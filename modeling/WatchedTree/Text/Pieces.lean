import WatchedTree.Text.Order

/-!
Cutting a text at a letter. `join_pieces` puts the pieces together again.
-/
namespace WatchedTree

namespace Text

/-- What stands between the separators; one piece more than there are separators. -/
def pieces (separator : Char) : Text → List Text
  | [] => [[]]
  | letter :: rest =>
    if letter = separator then [] :: pieces separator rest
    else match pieces separator rest with
      | [] => [[letter]]
      | piece :: others => (letter :: piece) :: others

/-- Puts pieces together, with the separator between them. -/
def join (separator : Char) : List Text → Text
  | [] => []
  | [piece] => piece
  | piece :: others => piece ++ separator :: join separator others

theorem pieces_ne_nil (separator : Char) (text : Text) : pieces separator text ≠ [] := by
  cases text with
  | nil => simp [pieces]
  | cons letter rest =>
    unfold pieces
    split
    · simp
    · split <;> simp

theorem join_pieces (separator : Char) (text : Text) :
    join separator (pieces separator text) = text := by
  induction text with
  | nil => rfl
  | cons letter rest ih =>
    unfold pieces
    have some := pieces_ne_nil separator rest
    split
    next same =>
      subst same
      cases found : pieces letter rest with
      | nil => exact absurd found some
      | cons piece others => simpa [join, found] using ih
    next =>
      cases found : pieces separator rest with
      | nil => exact absurd found some
      | cons piece others =>
        rw [found] at ih
        cases others with
        | nil => simpa [join] using ih
        | cons second more => simpa [join] using ih

/-- Replaces a pair of equal letters, from the left, by one letter. -/
def replacePair (letter replacement : Char) : Text → Text
  | first :: second :: rest =>
    if first = letter && second = letter then replacement :: replacePair letter replacement rest
    else first :: replacePair letter replacement (second :: rest)
  | short => short

end Text

end WatchedTree
