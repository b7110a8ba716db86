import WatchedTree.Toml.Scan

/-!
Dates and times, as the text in which they are handed on: a capital letter between date and time, no
zeros at the end of a fraction, and at most nine digits of it. Those that stand in a document without
quotes keep narrower bounds than those that are quoted under the reserved key.
-/
namespace WatchedTree

namespace Toml

/-- The greatest numbers of hours and minutes. -/
structure MomentBounds where
  hour : Nat := 23
  offsetHour : Nat := 23
  offsetMinute : Nat := 59
deriving DecidableEq, Repr

namespace MomentBounds

/-- The bounds of what is quoted under the reserved key. -/
def wide : MomentBounds := { hour := 24, offsetHour := 99, offsetMinute := 99 }

end MomentBounds

/-- The greatest distance from universal time, in minutes. -/
def greatestOffset : Nat := 24 * 60

/-- A number of exactly that many digits, within bounds. -/
def field? (count least greatest : Nat) (text : Text) : Scanned Nat :=
  let digits := text.take count
  let number := Text.toNat digits
  if digits.length = count && digits.all Char.isDigit && least ≤ number && number ≤ greatest then
    some (number, text.drop count)
  else none

/-- Takes one letter of some. -/
def oneOf? (letters : List Char) : Text → Option Text
  | letter :: rest => if letter ∈ letters then some rest else none
  | [] => none

def isLeapYear (year : Nat) : Bool := year % 4 == 0 && (year % 100 != 0 || year % 400 == 0)

def daysIn (year month : Nat) : Nat :=
  if month = 2 then (if isLeapYear year then 29 else 28)
  else if month ∈ [4, 6, 9, 11] then 30
  else 31

/-- Writes a number with at least that many digits. -/
def padded (count number : Nat) : Text :=
  let digits := Text.ofNat number
  List.replicate (count - digits.length) '0' ++ digits

def date? (text : Text) : Option (Text × Text) := do
  let (year, rest) ← field? 4 0 9999 text
  let (month, rest) ← field? 2 1 12 (← oneOf? ['-'] rest)
  let (day, rest) ← field? 2 1 (daysIn year month) (← oneOf? ['-'] rest)
  return (padded 4 year ++ '-' :: padded 2 month ++ '-' :: padded 2 day, rest)

/-- The fraction of a second; nothing stands for none. -/
def subsecond? : Text → Scanned Text
  | '.' :: rest =>
    let digits := rest.takeWhile Char.isDigit
    if digits.isEmpty then none
    else
      let kept := ((digits.take 9).reverse.dropWhile (· = '0')).reverse
      some (if kept.isEmpty then [] else '.' :: kept, rest.drop digits.length)
  | text => some ([], text)

def time? (bounds : MomentBounds) (text : Text) : Option (Text × Text) := do
  let (hour, rest) ← field? 2 0 bounds.hour text
  let (minute, rest) ← field? 2 0 59 (← oneOf? [':'] rest)
  let (second, rest) ← field? 2 0 60 (← oneOf? [':'] rest)
  let (fraction, rest) ← subsecond? rest
  return (padded 2 hour ++ ':' :: padded 2 minute ++ ':' :: padded 2 second ++ fraction, rest)

/-- The distance from universal time; nothing stands for local time. No distance has a plus. -/
def offset? (bounds : MomentBounds) : Text → Option (Text × Text)
  | [] => some ([], [])
  | letter :: rest =>
    if letter = 'Z' || letter = 'z' then some (['Z'], rest)
    else if letter = '+' || letter = '-' then do
      let (hour, rest) ← field? 2 0 bounds.offsetHour rest
      let (minute, rest) ← field? 2 0 bounds.offsetMinute (← oneOf? [':'] rest)
      let distance := 60 * hour + minute
      let sign := if distance = 0 then '+' else letter
      if distance ≤ greatestOffset then
        some (sign :: padded 2 (distance / 60) ++ ':' :: padded 2 (distance % 60), rest)
      else none
    else none

/-- A time with its distance, and nothing after it. -/
def clock? (bounds : MomentBounds) (text : Text) : Option Text := do
  let (time, rest) ← time? bounds text
  let (offset, rest) ← offset? bounds rest
  if rest.isEmpty then some (time ++ offset) else none

/-- A date, a time, or both, and nothing after it. -/
def moment? (bounds : MomentBounds) (text : Text) : Option Text :=
  match date? text with
  | none => (time? bounds text).bind fun (time, rest) => if rest.isEmpty then some time else none
  | some (date, []) => some date
  | some (date, letter :: rest) =>
    if letter ∈ ['T', 't', ' '] then (clock? bounds rest).map fun clock => date ++ 'T' :: clock
    else none

end Toml

end WatchedTree
