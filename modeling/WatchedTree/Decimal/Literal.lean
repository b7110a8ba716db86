import WatchedTree.Decimal.Binary64
import WatchedTree.Text.Pieces

/-!
Numbers as they are written: integers, and decimals with a point and an exponent.
-/
namespace WatchedTree

namespace Text

/-- Takes a sign off; whether it is a minus. -/
def takeSign : Text → Bool × Text
  | '-' :: rest => (true, rest)
  | '+' :: rest => (false, rest)
  | text => (false, text)

/-- The leading digits, and the rest. -/
def takeDigits (text : Text) : Text × Text :=
  (text.takeWhile Char.isDigit, text.dropWhile Char.isDigit)

/-- Holds of one digit or more, and nothing else. -/
def areDigits (text : Text) : Bool := !text.isEmpty && text.all Char.isDigit

def leastInt64 : Int := Int64.minValue.toInt

def greatestInt64 : Int := Int64.maxValue.toInt

def greatestUInt64 : Nat := UInt64.size - 1

/-- Keeps an integer that fits into 64 bits with a sign. -/
def checkInt64 (number : Int) : Option Int :=
  if leastInt64 ≤ number && number ≤ greatestInt64 then some number else none

/-- An integer with a sign or without, of 64 bits. -/
def int64? (text : Text) : Option Int :=
  let (negative, digits) := takeSign text
  if areDigits digits then checkInt64 (if negative then -(toNat digits) else toNat digits) else none

/-- A number without a minus, of 64 bits. -/
def uint64? (text : Text) : Option Nat :=
  let digits := match text with
    | '+' :: rest => rest
    | other => other
  if areDigits digits && toNat digits ≤ greatestUInt64 then some (toNat digits) else none

/-- The power of ten at the end of a decimal; nothing stands for the power zero. -/
def exponent? : Text → Option Int
  | [] => some 0
  | mark :: rest =>
    let (negative, digits) := takeSign rest
    if (mark == 'e' || mark == 'E') && areDigits digits then
      some (if negative then -(toNat digits) else toNat digits)
    else none

end Text

namespace Binary64

/-- A decimal without its sign: digits with a point among them or at an end, and an exponent. -/
def ofUnsignedText? (negative : Bool) (text : Text) : Option Binary64 :=
  let (whole, rest) := Text.takeDigits text
  let (fraction, rest) := match rest with
    | '.' :: more => Text.takeDigits more
    | other => ([], other)
  if whole.isEmpty && fraction.isEmpty then none
  else (Text.exponent? rest).map fun exponent =>
    ofDecimal negative (whole ++ fraction) (exponent - fraction.length)

/-- A decimal, or in any case of letters the word for an infinite number or for what is no
number; each with a sign or without. -/
def ofText? (text : Text) : Option Binary64 :=
  let (negative, magnitude) := Text.takeSign text
  let word := magnitude.map Char.toLower
  if word = "nan".toList then some nan
  else if word = "inf".toList || word = "infinity".toList then some (infinite negative)
  else ofUnsignedText? negative magnitude

end Binary64

end WatchedTree
