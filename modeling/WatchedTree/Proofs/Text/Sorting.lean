import Mathlib.Data.List.Nodup
import WatchedTree.Text.Order

/-!
# Sorting and dropping repeats

Sorting moves items and keeps all of them; dropping repeats of neighbours loses no text.
-/
namespace WatchedTree

variable {Item : Type}

theorem insertSorted_perm (before : Item → Item → Bool) (item : Item) (items : List Item) :
    (insertSorted before item items).Perm (item :: items) := by
  induction items with
  | nil => exact List.Perm.refl _
  | cons head tail inductionHypothesis =>
      rw [insertSorted]
      by_cases later : before head item = true
      · rw [if_pos later]
        exact (inductionHypothesis.cons head).trans (List.Perm.swap item head tail)
      · rw [if_neg later]

theorem sortBy_perm (before : Item → Item → Bool) (items : List Item) :
    (sortBy before items).Perm items := by
  induction items with
  | nil => exact List.Perm.refl _
  | cons head tail inductionHypothesis =>
      rw [sortBy]
      exact (insertSorted_perm before head _).trans (inductionHypothesis.cons head)

theorem mem_sortBy {before : Item → Item → Bool} {item : Item} {items : List Item} :
    item ∈ sortBy before items ↔ item ∈ items :=
  (sortBy_perm before items).mem_iff

/-! ## Orders to sort by -/

/-- Of two items at most one comes before the other, and what does not come before an item comes
before none of its followers. -/
structure IsStrict (before : Item → Item → Bool) : Prop where
  asymm : ∀ {left right}, before left right = true → before right left = false
  trans : ∀ {first second third}, before second first = false → before third second = false →
    before third first = false

section Strict

variable {before : Item → Item → Bool} {items others : List Item}

theorem IsStrict.pairwise_insertSorted (strict : IsStrict before) (item : Item)
    (sorted : items.Pairwise fun left right => before right left = false) :
    (insertSorted before item items).Pairwise fun left right => before right left = false := by
  induction items with
  | nil => exact List.pairwise_singleton _ item
  | cons head tail inductionHypothesis =>
      obtain ⟨least, rest⟩ := List.pairwise_cons.mp sorted
      rw [insertSorted]
      by_cases later : before head item = true
      · rw [if_pos later]
        refine List.pairwise_cons.mpr ⟨fun other member => ?_, inductionHypothesis rest⟩
        rcases List.mem_cons.mp ((insertSorted_perm before item tail).mem_iff.mp member) with
          rfl | inTail
        · exact strict.asymm later
        · exact least other inTail
      · rw [if_neg later]
        have first : before head item = false := eq_false_of_ne_true later
        refine List.pairwise_cons.mpr ⟨fun other member => ?_, sorted⟩
        rcases List.mem_cons.mp member with rfl | inTail
        · exact first
        · exact strict.trans first (least other inTail)

theorem IsStrict.pairwise_sortBy (strict : IsStrict before) (items : List Item) :
    (sortBy before items).Pairwise fun left right => before right left = false := by
  induction items with
  | nil => exact List.Pairwise.nil
  | cons head tail inductionHypothesis =>
      exact strict.pairwise_insertSorted head inductionHypothesis

/-- A list in order is the sorted form of any list with the same items, if no two different items
tie. -/
theorem IsStrict.sortBy_eq (strict : IsStrict before) (same : items.Perm others)
    (sorted : others.Pairwise fun left right => before right left = false)
    (noTies : ∀ left ∈ items, ∀ right ∈ items, before right left = false →
      before left right = false → left = right) : sortBy before items = others := by
  have moved := sortBy_perm before items
  refine List.Perm.eq_of_pairwise ?_ (strict.pairwise_sortBy items) sorted (moved.trans same)
  intro left right inLeft inRight
  exact noTies left (moved.mem_iff.mp inLeft) right (same.mem_iff.mpr inRight)

theorem IsStrict.sortBy_congr (strict : IsStrict before) (same : items.Perm others)
    (noTies : ∀ left ∈ items, ∀ right ∈ items, before right left = false →
      before left right = false → left = right) : sortBy before items = sortBy before others :=
  strict.sortBy_eq (same.trans (sortBy_perm before others).symm) (strict.pairwise_sortBy others)
    noTies

end Strict

namespace Text

theorem sort_perm (texts : List Text) : (sort texts).Perm texts := sortBy_perm before texts

theorem not_before_of_before {left right : Text} (inOrder : before left right = true) :
    before right left = false :=
  decide_eq_false (List.lt_asymm (of_decide_eq_true inOrder))

theorem not_before_trans {first second third : Text} (left : before second first = false)
    (right : before third second = false) : before third first = false := by
  have firstStep := List.not_lt.mp (of_decide_eq_false left)
  have secondStep := List.not_lt.mp (of_decide_eq_false right)
  exact decide_eq_false (List.not_lt.mpr (List.le_trans firstStep secondStep))

/-- Holds if no text stands behind one that it comes before. -/
def IsSorted (texts : List Text) : Prop :=
  texts.Pairwise fun left right => before right left = false

theorem isStrict_before : IsStrict before := ⟨not_before_of_before, not_before_trans⟩

theorem eq_of_not_before {left right : Text} (notRight : before right left = false)
    (notLeft : before left right = false) : left = right :=
  List.le_antisymm (List.not_lt.mp (of_decide_eq_false notRight))
    (List.not_lt.mp (of_decide_eq_false notLeft))

theorem isSorted_sort (texts : List Text) : IsSorted (sort texts) :=
  isStrict_before.pairwise_sortBy texts

/-- The order in which texts are given does not matter. -/
theorem sort_congr {texts others : List Text} (same : texts.Perm others) :
    sort texts = sort others :=
  isStrict_before.sortBy_congr same fun _ _ _ _ => eq_of_not_before

theorem mem_sort {text : Text} {texts : List Text} : text ∈ sort texts ↔ text ∈ texts :=
  mem_sortBy

theorem mem_ite_sort {sorts : Bool} {text : Text} {texts : List Text} :
    text ∈ (if sorts then sort texts else texts) ↔ text ∈ texts := by
  cases sorts with
  | true => exact mem_sort
  | false => exact Iff.rfl

theorem mem_dropRepeats {text : Text} {texts : List Text} :
    text ∈ dropRepeats texts ↔ text ∈ texts := by
  induction texts with
  | nil => simp [dropRepeats]
  | cons first rest inductionHypothesis =>
      cases rest with
      | nil => simp [dropRepeats]
      | cons second others =>
          rw [dropRepeats]
          by_cases same : first = second
          · rw [if_pos same, inductionHypothesis, same]
            simp
          · rw [if_neg same, List.mem_cons, inductionHypothesis]
            exact List.mem_cons.symm

end Text

/-! ## Pairs in the order of their texts -/

variable {Value : Type}

theorem isStrict_byKey : IsStrict fun left right : Text × Value => Text.before left.1 right.1 :=
  ⟨Text.not_before_of_before, Text.not_before_trans⟩

theorem map_fst_sortByKey (pairs : List (Text × Value)) :
    (sortByKey pairs).map Prod.fst = Text.sort (pairs.map Prod.fst) := by
  refine (Text.isStrict_before.sortBy_eq ?_ ?_ fun _ _ _ _ => Text.eq_of_not_before).symm
  · exact ((sortBy_perm _ pairs).map Prod.fst).symm
  · exact List.pairwise_map.mpr (isStrict_byKey.pairwise_sortBy pairs)

end WatchedTree
