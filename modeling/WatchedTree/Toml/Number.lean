import WatchedTree.Settings.Value
import WatchedTree.Toml.Scan

/-!
Unquoted values: truth values, integers in four bases, and real numbers. Single lines may stand
between digits.
-/
namespace WatchedTree

namespace Toml

/-- Digits of a kind, with single lines between them; the lines are left out. -/
def digits? (isDigit : Char → Bool) (text : Text) : Option Text :=
  let groups := Text.pieces '_' text
  if groups.all fun group => !group.isEmpty && group.all isDigit then some groups.flatten
  else none

/-- Decimal digits without a zero in front. -/
def whole? (text : Text) : Option Text :=
  (digits? Char.isDigit text).filter fun digits => digits == ['0'] || digits.head? != some '0'

def isHexDigit (letter : Char) : Bool := (hexValue? letter).isSome

/-- The number that digits of a base stand for. -/
def numberIn (base : Nat) (digits : Text) : Nat :=
  digits.foldl (fun number digit => base * number + (hexValue? digit).getD 0) 0

/-- A number in a base other than ten; it has no sign. -/
def based? (base : Nat) (isDigit : Char → Bool) (text : Text) : Option Int :=
  (digits? isDigit text).bind fun digits => Text.checkInt64 (numberIn base digits)

def integer? : Text → Option Int
  | '0' :: 'x' :: rest => based? 16 isHexDigit rest
  | '0' :: 'o' :: rest => based? 8 (fun letter => '0' ≤ letter && letter ≤ '7') rest
  | '0' :: 'b' :: rest => based? 2 (fun letter => letter == '0' || letter == '1') rest
  | text =>
    let (negative, magnitude) := Text.takeSign text
    (whole? magnitude).bind fun digits =>
      Text.checkInt64 (if negative then -(Text.toNat digits) else Text.toNat digits)

/-- The power of ten at the end of a real number. -/
def power? (text : Text) : Option Int :=
  let (negative, magnitude) := Text.takeSign text
  (digits? Char.isDigit magnitude).map fun digits =>
    if negative then -(Text.toNat digits) else Text.toNat digits

/-- Splits a text in front of the first of some letters. -/
def splitBefore (letters : List Char) (text : Text) : Text × Text :=
  (text.takeWhile (· ∉ letters), text.dropWhile (· ∉ letters))

/-- The digits behind the point of a real number; without a point there are none. -/
def fraction? : Text → Option Text
  | [] => some []
  | '.' :: digits => digits? Char.isDigit digits
  | _ => none

/-- A finite real number: digits, and a point with more digits or an exponent, or both. -/
def decimal? (negative : Bool) (text : Text) : Option Binary64 := do
  let (mantissa, exponent) := splitBefore ['e', 'E'] text
  let (whole, fraction) := splitBefore ['.'] mantissa
  if fraction.isEmpty && exponent.isEmpty then none
  else
    let digits ← whole? whole
    let decimals ← fraction? fraction
    let power ← if exponent.isEmpty then some 0 else power? exponent.tail
    return Binary64.ofDecimal negative (digits ++ decimals) (power - decimals.length)

/-- A real number, or a word for one. A positive number may not be too large to be finite. -/
def real? (text : Text) : Option Binary64 :=
  let (negative, magnitude) := Text.takeSign text
  if magnitude = "inf".toList then some (.infinite negative)
  else if magnitude = "nan".toList then some .nan
  else (decimal? negative magnitude).filter fun number => number != .infinite false

/-- A value without quotes and brackets, other than a date or a time. -/
def scalar? (text : Text) : Option Value :=
  if text = "true".toList then some (.boolean true)
  else if text = "false".toList then some (.boolean false)
  else match integer? text with
    | some number => some (.integer number)
    | none => (real? text).map .real

end Toml

end WatchedTree
