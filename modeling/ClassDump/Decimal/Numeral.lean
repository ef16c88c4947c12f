import ClassDump.Decimal.Binary64

/-! Decimal numerals of binary numbers. With a fixed number of places the exact value is rounded once, a tie to the even
neighbour; the sign of a negative number is kept also where all digits are zero. The shortest numeral has the fewest
digits that stand for the number: on the coarsest decimal grid that has a point in the interval of reals rounding to the
number, the nearest such point. Of two equally near points the even one counts. -/

namespace ClassDump.Decimal

/-- The decimal numeral of a number with leading zeros up to `width` digits. -/
def padded (width n : Nat) : String :=
  let digits := toString n
  String.ofList (List.replicate (width - digits.length) '0') ++ digits

/-- The number of units in a whole, at so many decimal places. -/
def unitsAt : Nat → Nat
  | 0 => 1
  | places + 1 => 10 * unitsAt places

/-- The numeral of a number of units at so many decimal places, one at least. -/
def placed (places units : Nat) : String :=
  toString (units / unitsAt places) ++ "." ++ padded places (units % unitsAt places)

/-- The numeral with a fixed number of places, at least one; the numbers that are not finite have names. -/
def fixed (places : Nat) : Binary64 → String
  | .nan .. => "nan"
  | .infinite negative => (if negative then "-" else "") ++ "inf"
  | .finite negative mantissa exponent =>
    let (above, below) := Binary64.scaled (mantissa * unitsAt places) 1 exponent
    (if negative then "-" else "") ++ placed places (roundDiv above below)

/-- The decimal number `digits * 10 ^ exponent`. -/
structure Scientific where
  digits : Nat
  exponent : Int
deriving DecidableEq, Repr

namespace Shortest

/-- The reals that round to `mantissa * 2 ^ exponent`, with their ends in quarters of `2 ^ exponent`. -/
structure Interval where
  mantissa : Nat
  exponent : Int
deriving DecidableEq, Repr

namespace Interval

/-- The lower end; below a power of two the neighbours stand twice as close. -/
def low (interval : Interval) : Nat :=
  if interval.mantissa = Binary64.leadingBit ∧ -1074 < interval.exponent then 4 * interval.mantissa - 1
  else 4 * interval.mantissa - 2

def high (interval : Interval) : Nat :=
  4 * interval.mantissa + 2

/-- A quarter of the last binary place, and the mesh of the grid of a power of ten, in a common unit. -/
def units (interval : Interval) (place : Int) : Nat × Nat :=
  let (above, below) := Binary64.scaled 1 1 (interval.exponent - 2)
  match place with
  | .ofNat up => (above, below * unitsAt up)
  | .negSucc down => (above * unitsAt (down + 1), below)

/-- A point of a grid lies in the interval; the ends belong to it if the mantissa is even. -/
def hasPoint (interval : Interval) (place : Int) (point : Nat) : Bool :=
  let (quarter, mesh) := interval.units place
  let (low, here, high) := (interval.low * quarter, point * mesh, interval.high * quarter)
  if interval.mantissa % 2 = 0 then low ≤ here && here ≤ high else low < here && here < high

/-- The two points of a grid around the number, the nearer one first. -/
def around (interval : Interval) (place : Int) : List Nat :=
  let (quarter, mesh) := interval.units place
  let number := 4 * interval.mantissa * quarter
  let below := number / mesh
  if roundDiv number mesh = below then [below, below + 1] else [below + 1, below]

/-- The best point of the first grid, from one on to finer ones, that has a point in the interval; at most so many
finer grids are tried. -/
def search (interval : Interval) : Nat → Int → Scientific
  | 0, place => ⟨(interval.around place).headD 0, place⟩
  | finer + 1, place =>
    match (interval.around place).find? (interval.hasPoint place) with
    | some point => ⟨point, place⟩
    | none => search interval finer (place - 1)

/-- A power of ten that is greater than the number, but not by much. -/
def roof (interval : Interval) : Int :=
  (((interval.mantissa.log2 : Int) + 1 + interval.exponent) * 30103).fdiv 100000 + 1

end Interval

/-- The fewest digits that stand for a positive number. -/
def ofPositive (mantissa : Nat) (exponent : Int) : Scientific :=
  let interval : Interval := ⟨mantissa, exponent⟩
  interval.search 20 interval.roof

end Shortest
end ClassDump.Decimal
