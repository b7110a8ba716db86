/-!
Text as the list of its characters, and its byte order. The bytes of UTF-8 order texts as their
code points do, so `Text` compares character by character.
-/
namespace WatchedTree

/-- A text is the list of its characters. -/
abbrev Text := List Char

namespace Text

/-- Membership in a list of texts is decided with this. -/
instance lawfulBEq : LawfulBEq Text := inferInstance

/-- Length of the UTF-8 form. -/
def byteLength (text : Text) : Nat :=
  text.foldl (fun length letter => length + letter.utf8Size) 0

/-- Holds if the code point lies in one of some inclusive ranges. -/
def isWithin (ranges : List (Nat × Nat)) (letter : Char) : Bool :=
  ranges.any fun range => range.1 ≤ letter.toNat && letter.toNat ≤ range.2

/-- Byte order: the first differing character decides, and a text comes before its extensions. -/
def before (left right : Text) : Bool := decide (left < right)

end Text

/-! ## Sorting -/

/-- Puts an item behind every item that comes before it, and in front of the others. -/
def insertSorted {Item : Type} (before : Item → Item → Bool) (item : Item) : List Item → List Item
  | [] => [item]
  | head :: tail =>
    if before head item then head :: insertSorted before item tail else item :: head :: tail

/-- Insertion sort; items that come before neither of each other keep their order. -/
def sortBy {Item : Type} (before : Item → Item → Bool) : List Item → List Item
  | [] => []
  | head :: tail => insertSorted before head (sortBy before tail)

namespace Text

def sort (texts : List Text) : List Text := sortBy before texts

/-- Drops each text that equals its neighbour in front. -/
def dropRepeats : List Text → List Text
  | [] => []
  | [text] => [text]
  | first :: second :: rest =>
    if first = second then dropRepeats (second :: rest)
    else first :: dropRepeats (second :: rest)

/-- Decimal digits of a number. -/
def ofNat (number : Nat) : Text := (Nat.repr number).toList

def ofInt (number : Int) : Text :=
  if number < 0 then '-' :: ofNat number.natAbs else ofNat number.natAbs

/-- The number that digits stand for. -/
def toNat (digits : Text) : Nat :=
  digits.foldl (fun number digit => 10 * number + (digit.toNat - '0'.toNat)) 0

end Text

/-- Sorts pairs by their first part, in byte order. -/
def sortByKey {Value : Type} (pairs : List (Text × Value)) : List (Text × Value) :=
  sortBy (fun left right => Text.before left.1 right.1) pairs

end WatchedTree
