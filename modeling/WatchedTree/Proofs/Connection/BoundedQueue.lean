import WatchedTree.Connection.FailureQueue

/-!
# Bounded queues

What is offered to a queue of failures goes to its end, and of all that it holds then the newest
ones stay that it has room for. Over a run each item is handed out, waits, or has been pushed out by
as many newer ones as the queue holds.
-/
namespace WatchedTree

namespace FailureQueue

/-! ## Lists of limited length -/

/-- The last items of a list, no more of them than a bound. -/
def newest {Item : Type} (bound : Nat) (items : List Item) : List Item :=
  items.drop (items.length - bound)

theorem offer_eq_newest (capacity : Nat) (pending : List Failure) (failure : Failure) :
    offer capacity pending failure = newest capacity (pending ++ [failure]) := by
  induction pending with
  | nil =>
      by_cases hasRoom : 0 < capacity
      · have whole : 1 - capacity = 0 := by omega
        simp [offer, newest, hasRoom, whole]
      · have roomless : capacity = 0 := by omega
        simp [offer, newest, roomless]
  | cons oldest rest inductionHypothesis =>
      by_cases hasRoom : (oldest :: rest).length < capacity
      · have whole : (oldest :: rest ++ [failure]).length - capacity = 0 := by
          simp only [List.length_cons, List.length_append, List.length_nil] at hasRoom ⊢
          omega
        rw [offer, if_pos hasRoom, newest, whole, List.drop_zero]
      · have pushesOut : (oldest :: rest ++ [failure]).length - capacity =
            ((rest ++ [failure]).length - capacity) + 1 := by
          simp only [List.length_cons, List.length_append, List.length_nil] at hasRoom ⊢
          omega
        rw [offer, if_neg hasRoom, inductionHypothesis, newest, newest, pushesOut,
          List.cons_append, List.drop_succ_cons]

/-- A list after one more item, which goes to its end. The front goes if the list is too long
then. -/
def takeIn {Item : Type} (capacity : Nat) (waiting : List Item) (item : Item) : List Item :=
  if capacity < (waiting ++ [item]).length then (waiting ++ [item]).tail else waiting ++ [item]

theorem newest_eq_takeIn {Item : Type} {capacity : Nat} {waiting : List Item}
    (within : waiting.length ≤ capacity) (item : Item) :
    newest capacity (waiting ++ [item]) = takeIn capacity waiting item := by
  rw [takeIn, newest]
  by_cases excess : capacity < (waiting ++ [item]).length
  · have oneTooMany : (waiting ++ [item]).length - capacity = 1 := by
      rw [List.length_append, List.length_singleton] at excess ⊢
      omega
    rw [if_pos excess, oneTooMany, List.drop_one]
  · rw [if_neg excess, Nat.sub_eq_zero_of_le (Nat.le_of_not_lt excess), List.drop_zero]

theorem map_takeIn {Item Other : Type} (capacity : Nat) (waiting : List Item) (item : Item)
    (read : Item → Other) :
    (takeIn capacity waiting item).map read =
      takeIn capacity (waiting.map read) (read item) := by
  unfold takeIn
  rw [← List.map_singleton, ← List.map_append, List.length_map]
  split
  · rw [List.map_tail]
  · rfl

/-! ## One step of a bounded queue -/

/-- What a step of a queue hands out, what it takes in, and what waits afterwards. -/
inductive Passes (capacity : Nat) {Item : Type} :
    (pending handed queued after : List Item) → Prop where
  | idle {pending : List Item} : Passes capacity pending [] [] pending
  | handed {oldest : Item} {rest : List Item} : Passes capacity (oldest :: rest) [oldest] [] rest
  | queued {pending : List Item} {item : Item} :
      Passes capacity pending [] [item] (newest capacity (pending ++ [item]))

variable {capacity : Nat} {Item : Type} {pending handed queued after : List Item}

theorem Passes.length_le (passes : Passes capacity pending handed queued after)
    (within : pending.length ≤ capacity) : after.length ≤ capacity := by
  cases passes with
  | idle => exact within
  | handed =>
      rw [List.length_cons] at within
      exact Nat.le_of_succ_le within
  | queued =>
      rw [newest, List.length_drop]
      omega

theorem Passes.mem_or_mem (passes : Passes capacity pending handed queued after) {item : Item}
    (member : item ∈ after) : item ∈ pending ∨ item ∈ queued := by
  cases passes with
  | idle => exact Or.inl member
  | handed => exact Or.inl (List.mem_cons_of_mem _ member)
  | queued => exact List.mem_append.mp (List.mem_of_mem_drop member)

/-! ## A run of a bounded queue -/

/-- Of all that was queued, what was handed out stood at ascending places, what waits are the last
ones, and any other item was followed by as many newer ones as the queue holds. -/
def IsSettled (capacity : Nat) (queued handed pending : List Item) : Prop :=
  ∃ (places : List Nat) (next : Nat),
    places.Pairwise (· < ·) ∧ (∀ place ∈ places, place < next) ∧
      handed.map some = places.map (queued[·]?) ∧
      next ≤ queued.length ∧ pending = queued.drop next ∧
      ∀ place < next, place ∉ places → place + capacity < queued.length

theorem isSettled_nil (capacity : Nat) : IsSettled capacity ([] : List Item) [] [] :=
  ⟨[], 0, .nil, by simp, rfl, Nat.le_refl 0, rfl, by simp⟩

theorem IsSettled.hand {oldest : Item} {rest : List Item}
    (settled : IsSettled capacity queued handed (oldest :: rest)) :
    IsSettled capacity queued (handed ++ [oldest]) rest := by
  obtain ⟨places, next, ascending, before, read, within, waiting, lost⟩ := settled
  have nextWithin : next < queued.length := by
    refine Nat.lt_of_not_le fun beyond => ?_
    rw [List.drop_eq_nil_of_le beyond] at waiting
    cases waiting
  rw [List.drop_eq_getElem_cons nextWithin, List.cons.injEq] at waiting
  obtain ⟨isOldest, waiting⟩ := waiting
  refine ⟨places ++ [next], next + 1, ?_, ?_, ?_, nextWithin, waiting, ?_⟩
  · rw [List.pairwise_append]
    refine ⟨ascending, List.pairwise_singleton _ _, ?_⟩
    intro place member other isNext
    rw [List.mem_singleton.mp isNext]
    exact before place member
  · intro place member
    rcases List.mem_append.mp member with earlier | isNext
    · exact Nat.lt_succ_of_lt (before place earlier)
    · rw [List.mem_singleton.mp isNext]
      exact Nat.lt_succ_self next
  · rw [List.map_append, List.map_append, read, List.map_singleton, List.map_singleton,
      List.getElem?_eq_getElem nextWithin, isOldest]
  · intro place earlier absent
    rw [List.mem_append, List.mem_singleton, not_or] at absent
    exact lost place (Nat.lt_of_le_of_ne (Nat.le_of_lt_succ earlier) absent.2) absent.1

/-- A full queue loses its oldest item to a new one, and has queued all its others since. -/
theorem IsSettled.queue (settled : IsSettled capacity queued handed pending) (item : Item) :
    IsSettled capacity (queued ++ [item]) handed (newest capacity (pending ++ [item])) := by
  obtain ⟨places, next, ascending, before, read, nextWithin, waiting, lost⟩ := settled
  have waits : next + pending.length = queued.length := by
    rw [waiting, List.length_drop]
    omega
  have readStill : handed.map some = places.map ((queued ++ [item])[·]?) := by
    rw [read]
    refine List.map_congr_left fun place member => ?_
    rw [List.getElem?_append_left (Nat.lt_of_lt_of_le (before place member) nextWithin)]
  have dropped : newest capacity (pending ++ [item]) =
      (queued ++ [item]).drop (next + ((pending ++ [item]).length - capacity)) := by
    rw [newest, ← List.drop_drop, List.drop_append_of_le_length nextWithin, ← waiting]
  rw [List.length_append, List.length_singleton] at dropped
  refine ⟨places, next + (pending.length + 1 - capacity), ascending, ?_, readStill, ?_, dropped, ?_⟩
  · intro place member
    exact Nat.lt_add_right _ (before place member)
  · rw [List.length_append, List.length_singleton]
    omega
  · intro place earlier absent
    rw [List.length_append, List.length_singleton]
    by_cases old : place < next
    · exact Nat.lt_succ_of_lt (lost place old absent)
    · omega

theorem IsSettled.step {moreHanded moreQueued : List Item}
    (settled : IsSettled capacity queued handed pending)
    (passes : Passes capacity pending moreHanded moreQueued after) :
    IsSettled capacity (queued ++ moreQueued) (handed ++ moreHanded) after := by
  cases passes with
  | idle =>
      rw [List.append_nil, List.append_nil]
      exact settled
  | handed =>
      rw [List.append_nil]
      exact settled.hand
  | queued =>
      rw [List.append_nil]
      exact settled.queue _

/-- Items that are places among others are settled as these are: at the places themselves. -/
theorem IsSettled.of_range {count : Nat} {polled waiting : List Nat}
    (settled : IsSettled capacity (List.range count) polled waiting) :
    ∃ next, polled.Pairwise (· < ·) ∧ (∀ place ∈ polled, place < next) ∧ next ≤ count ∧
      waiting = (List.range count).drop next ∧
      ∀ place < next, place ∉ polled → place + capacity < count := by
  obtain ⟨places, next, ascending, before, read, within, waits, lost⟩ := settled
  rw [List.length_range] at within lost
  have same : places.map ((List.range count)[·]?) = places.map some := by
    refine List.map_congr_left fun place member => ?_
    exact List.getElem?_range (Nat.lt_of_lt_of_le (before place member) within)
  rw [same] at read
  obtain rfl := (List.map_inj_right fun _ _ => Option.some.inj).mp read
  exact ⟨next, ascending, before, within, waits, lost⟩

end FailureQueue

end WatchedTree
