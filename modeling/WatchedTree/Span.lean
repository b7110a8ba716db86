import WatchedTree.Text.Order

/-!
Spans of time in nanoseconds, and how they are written: in the largest unit that leaves a whole
part, with the fraction cut after its last digit that is not zero.
-/
namespace WatchedTree

/-- A span of time, in nanoseconds. -/
abbrev Span := Nat

/-- A moment, in nanoseconds from the start of the clock. -/
abbrev Moment := Nat

namespace Span

def ofMillis (millis : Nat) : Span := millis * 1000000

def ofMicros (micros : Nat) : Span := micros * 1000

/-- Removes the zeros at the end. -/
def trimZeros (digits : Text) : Text := (digits.reverse.dropWhile (· = '0')).reverse

/-- Writes `part / 10 ^ places` as the digits after a point, or nothing for zero. -/
def fraction (places part : Nat) : Text :=
  let digits := Text.ofNat part
  match trimZeros (List.replicate (places - digits.length) '0' ++ digits) with
  | [] => []
  | kept => '.' :: kept

/-- Writes a span in a unit of `10 ^ places` nanoseconds. -/
def inUnit (places : Nat) (unit : String) (span : Span) : Text :=
  let size := Nat.pow 10 places
  Text.ofNat (span / size) ++ fraction places (span % size) ++ unit.toList

def describe (span : Span) : Text :=
  if 1000000000 ≤ span then inUnit 9 "s" span
  else if 1000000 ≤ span then inUnit 6 "ms" span
  else if 1000 ≤ span then inUnit 3 "µs" span
  else inUnit 0 "ns" span

end Span

end WatchedTree
