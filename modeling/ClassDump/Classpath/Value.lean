import ClassDump.Decimal.Numeral
import ClassDump.Text.Quoted

/-! The values that someone may configure in the place of a path, and how messages show them. A number with a point is
shown with the fewest digits that stand for it: by position where its first digit is neither far behind the point nor
far before it, and otherwise with an exponent. -/

namespace ClassDump.Classpath

/-- A value that someone may configure in the place of a path. -/
inductive Value where
  | none
  | bool (value : Bool)
  | integer (value : Int)
  | float (value : Decimal.Binary64)
  | text (value : String)
  | list (values : List Value)

namespace Value

/-- Digits, or a zero in their place. -/
def digitsOrZero (digits : List Char) : String :=
  String.ofList (if digits.isEmpty then ['0'] else digits)

/-- Digits with a point after the first one, if there are more, and an exponent of two digits at least. -/
def withExponent (digits : List Char) (sign : String) (exponent : Nat) : String :=
  let tail := if digits.length ≤ 1 then "" else "." ++ String.ofList (digits.drop 1)
  String.ofList (digits.take 1) ++ tail ++ "e" ++ sign ++ Decimal.padded 2 exponent

/-- The greatest exponent of a number that is shown by position. -/
def exponentMax : Nat := 15

/-- The greatest number of places by which the first digit of a number that is shown by position stands behind the
point. -/
def placesMax : Nat := 4

/-- A positive number as messages show it, by its digits and the exponent of the first one. -/
def showDigits (digits : List Char) : Int → String
  | .ofNat up =>
    if up ≤ exponentMax then
      let whole := digits.take (up + 1) ++ List.replicate (up + 1 - digits.length) '0'
      String.ofList whole ++ "." ++ digitsOrZero (digits.drop (up + 1))
    else withExponent digits "+" up
  | .negSucc down =>
    if down + 1 ≤ placesMax then "0." ++ String.ofList (List.replicate down '0' ++ digits)
    else withExponent digits "-" (down + 1)

/-- A number with a point as messages show it. -/
def showFloat : Decimal.Binary64 → String
  | .nan .. => "nan"
  | .infinite negative => (if negative then "-" else "") ++ "inf"
  | .finite negative mantissa exponent =>
    let sign := if negative then "-" else ""
    if mantissa = 0 then sign ++ "0.0"
    else
      let shortest := Decimal.Shortest.ofPositive mantissa exponent
      let digits := (toString shortest.digits).toList
      sign ++ showDigits digits (shortest.exponent + digits.length - 1)

mutual

def shown : Value → String
  | .none => "None"
  | .bool true => "True"
  | .bool false => "False"
  | .integer value => toString value
  | .float value => showFloat value
  | .text value => Text.quote value
  | .list values => Text.bracketed (shownEach values)

def shownEach : List Value → List String
  | [] => []
  | value :: rest => value.shown :: shownEach rest

end

end Value
end ClassDump.Classpath
