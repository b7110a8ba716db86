import WatchedTree.Decimal.Binary64

/-!
The shortest decimal that reads back as a given number of the 64-bit binary format, and of the
shortest ones the nearest; of two that are equally near, the greater.

The reals that round to a number form an interval, to which its ends belong if the mantissa is even.
For each count of digits the two neighbours of the number on that decimal grid are tried; a grid
with a point in the interval has one of its two neighbours there.
-/
namespace WatchedTree

/-- Digits, and the power of ten that they count. -/
structure DecimalDigits where
  digits : Nat
  power : Int
deriving DecidableEq, Repr

/-- A positive number with the interval that rounds to it; all bounds are numerators over one
denominator. -/
structure RoundingInterval where
  lower : Nat
  value : Nat
  upper : Nat
  denominator : Nat
  /-- Whether the ends belong to the interval. -/
  closed : Bool
deriving DecidableEq, Repr

namespace RoundingInterval

/-- The interval of `mantissa * 2 ^ exponent`. Below a power of two the numbers lie closer. -/
def of (mantissa : Nat) (exponent : Int) : RoundingInterval :=
  let below :=
    if mantissa = Binary64.hiddenBit && Binary64.leastExponent < exponent then 1 else 2
  let (factor, denominator) := Binary64.scale 1 1 (2 - exponent)
  { lower := (4 * mantissa - below) * factor
    value := 4 * mantissa * factor
    upper := (4 * mantissa + 2) * factor
    denominator
    closed := mantissa % 2 == 0 }

def contains (interval : RoundingInterval) (numerator : Nat) : Bool :=
  if interval.closed then interval.lower ≤ numerator && numerator ≤ interval.upper
  else interval.lower < numerator && numerator < interval.upper

/-- The interval divided by a power of ten. -/
def shift (interval : RoundingInterval) (power : Int) : RoundingInterval :=
  if power < 0 then
    let factor := Nat.pow 10 power.natAbs
    { interval with
      lower := interval.lower * factor
      value := interval.value * factor
      upper := interval.upper * factor }
  else { interval with denominator := interval.denominator * Nat.pow 10 power.natAbs }

/-- The nearer of the two integers next to the value, among those in the interval. -/
def integer? (interval : RoundingInterval) : Option Nat :=
  let low := interval.value / interval.denominator
  let high := low + 1
  match interval.contains (low * interval.denominator),
    interval.contains (high * interval.denominator) with
  | true, true =>
    if high * interval.denominator - interval.value ≤
        interval.value - low * interval.denominator then some high else some low
  | true, false => some low
  | false, true => some high
  | false, false => none

/-- Number of decimal digits before the point. -/
def magnitude (interval : RoundingInterval) : Nat :=
  (Nat.repr (interval.value / interval.denominator)).length

/-- Tries grids from a power of ten downwards. -/
def search (interval : RoundingInterval) : Nat → Int → Option DecimalDigits
  | 0, _ => none
  | tries + 1, power =>
    match (interval.shift power).integer? with
    | some digits =>
      if digits = 0 then search interval tries (power - 1) else some { digits, power }
    | none => search interval tries (power - 1)

end RoundingInterval

namespace Binary64

/-- The shortest digits of a positive number. No number of the format needs more than 17, and the
first of them stands at the power of ten -324 or above. -/
def shortestDigits (mantissa : Nat) (exponent : Int) : DecimalDigits :=
  let interval := RoundingInterval.of mantissa exponent
  ((interval.search 400 interval.magnitude)).getD { digits := 0, power := 0 }

/-- Writes digits that count a power of ten, without an exponent. -/
def positional (decimal : DecimalDigits) : Text :=
  let digits := Text.ofNat decimal.digits
  if decimal.power < 0 then
    let places := decimal.power.natAbs
    let padded := List.replicate (places + 1 - digits.length) '0' ++ digits
    padded.take (padded.length - places) ++ '.' :: padded.drop (padded.length - places)
  else digits ++ List.replicate decimal.power.natAbs '0'

/-- The written form: the shortest digits that read back, never with an exponent. -/
def describe : Binary64 → Text
  | nan => "NaN".toList
  | infinite negative => if negative then "-inf".toList else "inf".toList
  | finite negative mantissa exponent =>
    let magnitude := if mantissa = 0 then ['0'] else positional (shortestDigits mantissa exponent)
    if negative then '-' :: magnitude else magnitude

/-- The written form of a number that is marked as one with a point. -/
def describeWithPoint (number : Binary64) : Text :=
  match number with
  | finite _ _ _ =>
    let written := number.describe
    if '.' ∈ written then written else written ++ ".0".toList
  | _ => number.describe

end Binary64

end WatchedTree
