import WatchedTree.Text.Order

/-!
Numbers of the 64-bit binary format, as exact values. A quotient is rounded to the nearest number
of the format, and of two that are equally near to the one with the even mantissa.
-/
namespace WatchedTree

/-- A number of the format. A finite one has the value `mantissa * 2 ^ exponent`, with a mantissa
below `2 ^ 53`, and an exponent that is the least one, or leaves the mantissa at `2 ^ 52` or
above. -/
inductive Binary64 where
  | nan
  | infinite (negative : Bool)
  | finite (negative : Bool) (mantissa : Nat) (exponent : Int)
deriving DecidableEq, Repr

namespace Binary64

/-- The exponent of the numbers nearest to zero. -/
def leastExponent : Int := -1074

/-- The exponent of the largest numbers. -/
def greatestExponent : Int := 971

/-- The mantissas of numbers away from zero start here. -/
def hiddenBit : Nat := 1 <<< 52

/-- The quotient, with a remainder of half the divisor going to the even neighbour. -/
def roundHalfEven (dividend divisor : Nat) : Nat :=
  let quotient := dividend / divisor
  let twice := 2 * (dividend % divisor)
  if divisor < twice || (twice == divisor && quotient % 2 == 1) then quotient + 1 else quotient

/-- A quotient divided by a power of two, as dividend and divisor. -/
def scale (numerator denominator : Nat) (exponent : Int) : Nat × Nat :=
  if exponent < 0 then (numerator <<< exponent.natAbs, denominator)
  else (numerator, denominator <<< exponent.natAbs)

/-- The exponent that leaves 53 digits before the point, if it is in range; at least the least. -/
def exponentOf (numerator denominator : Nat) : Int :=
  let guess : Int := Nat.log2 numerator - Nat.log2 denominator - 52
  let (dividend, divisor) := scale numerator denominator guess
  max leastExponent (if dividend / divisor < hiddenBit then guess - 1 else guess)

/-- The number nearest to a quotient with a positive denominator. -/
def ofQuotient (negative : Bool) (numerator denominator : Nat) : Binary64 :=
  if numerator = 0 then finite negative 0 leastExponent
  else
    let exponent := exponentOf numerator denominator
    let (dividend, divisor) := scale numerator denominator exponent
    let mantissa := roundHalfEven dividend divisor
    let (mantissa, exponent) :=
      if mantissa = 2 * hiddenBit then (hiddenBit, exponent + 1) else (mantissa, exponent)
    if greatestExponent < exponent then infinite negative else finite negative mantissa exponent

/-- Beyond this power of ten everything is infinite. -/
def greatestDecimal : Int := 310

/-- Below this power of ten everything is zero. -/
def leastDecimal : Int := -330

/-- The number nearest to a decimal, given as its digits, with leading zeros or without, and the
power of ten that they count. -/
def ofDecimal (negative : Bool) (digits : Text) (power : Int) : Binary64 :=
  let significant := digits.dropWhile (· = '0')
  let size : Int := significant.length + power
  let number := Text.toNat significant
  if significant = [] || size < leastDecimal then finite negative 0 leastExponent
  else if greatestDecimal < size then infinite negative
  else if power < 0 then ofQuotient negative number (Nat.pow 10 power.natAbs)
  else ofQuotient negative (number * Nat.pow 10 power.natAbs) 1

/-! ## Properties of the value -/

def isNegative : Binary64 → Bool
  | nan => false
  | infinite negative | finite negative _ _ => negative

def isZero : Binary64 → Bool
  | finite _ mantissa _ => mantissa == 0
  | _ => false

/-- The magnitude rounded to an integer, halves away from zero. -/
def roundMagnitude (mantissa : Nat) (exponent : Int) : Nat :=
  if exponent < 0 then
    let divisor := 1 <<< exponent.natAbs
    (2 * mantissa + divisor) / (2 * divisor)
  else mantissa <<< exponent.natAbs

/-- The nearest integer from 0 to a bound; halves go up, and what is no number goes to 0. -/
def clamp (bound : Nat) : Binary64 → Nat
  | nan => 0
  | infinite negative => if negative then 0 else bound
  | finite negative mantissa exponent =>
    if negative then 0 else min bound (roundMagnitude mantissa exponent)

end Binary64

end WatchedTree
