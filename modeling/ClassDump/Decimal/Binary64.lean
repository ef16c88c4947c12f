/-! Binary floating-point numbers of 64 bits, as exact values: a sign, a whole number and a power of two. A ratio
of integers is rounded to the nearest of them, a tie to the even neighbour. -/

namespace ClassDump.Decimal

/-- The quotient rounded to the nearest whole number; a tie goes to the even neighbour. -/
def roundDiv (num den : Nat) : Nat :=
  let quotient := num / den
  let twice := 2 * (num % den)
  if twice < den then quotient
  else if den < twice then quotient + 1
  else if quotient % 2 = 0 then quotient else quotient + 1

/-- What a pattern of 64 bits stands for: not a number, an infinity, or `mantissa * 2 ^ exponent`, with its sign. -/
inductive Binary64 where
  | nan (negative : Bool) (payload : Nat)
  | infinite (negative : Bool)
  | finite (negative : Bool) (mantissa : Nat) (exponent : Int)
deriving DecidableEq, Repr

namespace Binary64

/-- The place value of the leading bit of a mantissa, above the fifty-two bits of the fraction. -/
def leadingBit : Nat := 0x10000000000000

def ofBits (bits : UInt64) : Binary64 :=
  let negative := decide (0x8000000000000000 ≤ bits.toNat)
  let exponent : Nat := bits.toNat / leadingBit % 2048
  let fraction : Nat := bits.toNat % leadingBit
  if exponent = 2047 then
    if fraction = 0 then .infinite negative else .nan negative fraction
  else if exponent = 0 then .finite negative fraction (-1074)
  else .finite negative (leadingBit + fraction) ((exponent : Int) - 1075)

/-- The bits of a sign in front of those of the exponent and the fraction. -/
def signedBits (negative : Bool) (bits : Nat) : UInt64 :=
  UInt64.ofNat ((if negative then 0x8000000000000000 else 0) + bits)

def toBits : Binary64 → UInt64
  | .nan negative payload => signedBits negative (2047 * leadingBit + payload)
  | .infinite negative => signedBits negative (2047 * leadingBit)
  | .finite negative mantissa exponent =>
    signedBits negative
      (if mantissa < leadingBit then mantissa
        else (exponent + 1075).toNat * leadingBit + (mantissa - leadingBit))

/-- The numerator and denominator of a number scaled by a power of two. -/
def scaled (num den : Nat) (exponent : Int) : Nat × Nat :=
  match exponent with
  | .ofNat up => (num <<< up, den)
  | .negSucc down => (num, den <<< (down + 1))

/-- The exponent of the greatest power of two that is at most `num / den`. -/
def binaryExponent (num den : Nat) : Int :=
  let guess : Int := num.log2 - den.log2
  let (above, below) := scaled num den (-guess)
  if below ≤ above then guess else guess - 1

/-- The representable number nearest to a ratio; one past the greatest becomes an infinity. -/
def nearest (negative : Bool) (num den : Nat) : Binary64 :=
  if num = 0 then .finite negative 0 (-1074)
  else
    let exponent := max (binaryExponent num den - 52) (-1074)
    let (above, below) := scaled num den (-exponent)
    let mantissa := roundDiv above below
    if 971 < exponent ∨ (exponent = 971 ∧ 2 * leadingBit ≤ mantissa) then .infinite negative
    else if mantissa = 2 * leadingBit then .finite negative leadingBit (exponent + 1)
    else .finite negative mantissa exponent

def ofRatio (num : Int) (den : Nat) : Binary64 :=
  nearest (num < 0) num.natAbs den

def zero : Binary64 :=
  .finite false 0 (-1074)

/-- The bit of a payload that marks what raises no alarm when it is used. -/
def quietBit : Nat := 0x8000000000000

/-- What a calculation with a value that is not a number results in: that value, which raises no alarm any more. -/
def quiet (negative : Bool) (payload : Nat) : Binary64 :=
  .nan negative (if payload < quietBit then payload + quietBit else payload)

/-- The signed mantissa of a number at a smaller exponent. -/
def mantissaAt (exponent : Int) (negative : Bool) (mantissa : Nat) (place : Int) : Int :=
  let moved : Nat := mantissa <<< (exponent - place).toNat
  if negative then -(moved : Int) else moved

/-- The sum, rounded. Of two values that are not numbers the first one stays; opposite infinities have no sum; a sum
of zero is negative only if both terms are. -/
def add : Binary64 → Binary64 → Binary64
  | .nan negative payload, _ => quiet negative payload
  | _, .nan negative payload => quiet negative payload
  | .infinite first, .infinite second => if first = second then .infinite first else .nan true quietBit
  | .infinite negative, .finite .. => .infinite negative
  | .finite .., .infinite negative => .infinite negative
  | .finite first firstMantissa firstExponent, .finite second secondMantissa secondExponent =>
    let place := min firstExponent secondExponent
    let sum := mantissaAt firstExponent first firstMantissa place +
      mantissaAt secondExponent second secondMantissa place
    if sum = 0 then .finite (first && second) 0 (-1074)
    else
      let (above, below) := scaled sum.natAbs 1 place
      nearest (sum < 0) above below

/-- The two are one number. What is not a number equals nothing, and a zero has no sign here. -/
def agree : Binary64 → Binary64 → Bool
  | .nan .., _ => false
  | .finite first mantissa exponent, .finite second other place =>
    mantissa = 0 && other = 0 || first = second && mantissa = other && exponent = place
  | x, y => x = y

/-- The product with a whole number, rounded. -/
def scale (x : Binary64) (factor : Nat) : Binary64 :=
  match x with
  | .finite negative mantissa exponent =>
    let (above, below) := scaled (mantissa * factor) 1 exponent
    nearest negative above below
  | other => other

end Binary64
end ClassDump.Decimal
