import Mathlib.Data.List.Induction

/-!
# Histories of calls

The first call of a history with a property that may depend on the calls before it. A history grows
at its end, so that what was the first such call stays it.
-/
namespace WatchedTree

variable {Call : Type} {property : List Call → Call → Prop} {calls before other after : List Call}
  {call first : Call}

/-- A call among some calls and a last one is the last one or among the others. -/
theorem split_concat {last : Call} (split : calls ++ [last] = before ++ call :: after) :
    (calls = before ∧ last = call ∧ after = []) ∨
      ∃ rest, after = rest ++ [last] ∧ calls = before ++ call :: rest := by
  rcases List.eq_nil_or_concat after with rfl | ⟨rest, final, rfl⟩
  · obtain ⟨same, isLast⟩ := List.append_inj' split rfl
    exact Or.inl ⟨same, List.singleton_inj.mp isLast, rfl⟩
  · rw [List.concat_eq_append, ← List.cons_append, ← List.append_assoc] at split
    obtain ⟨earlier, isFinal⟩ := List.append_inj' split rfl
    obtain rfl := List.singleton_inj.mp isFinal
    exact Or.inr ⟨rest, List.concat_eq_append, earlier⟩

/-- No call has the property, given the calls before it. -/
def NoneIn (property : List Call → Call → Prop) (calls : List Call) : Prop :=
  ∀ before call after, calls = before ++ call :: after → ¬property before call

/-- A call has the property, given the calls before it, and none of these has. -/
structure FirstIn (property : List Call → Call → Prop) (calls before : List Call) (call : Call)
    (after : List Call) : Prop where
  split : calls = before ++ call :: after
  holds : property before call
  none : NoneIn property before

theorem noneIn_nil (property : List Call → Call → Prop) : NoneIn property [] := by
  intro before call after split
  simp at split

theorem noneIn_concat :
    NoneIn property (calls ++ [call]) ↔ NoneIn property calls ∧ ¬property calls call := by
  constructor
  · intro none
    refine ⟨fun before other after split => none before other (after ++ [call]) ?_,
      none calls call [] rfl⟩
    rw [split, List.append_assoc, List.cons_append]
  · rintro ⟨none, last⟩ before other after split
    rcases split_concat split with ⟨rfl, rfl, rfl⟩ | ⟨rest, rfl, earlier⟩
    · exact last
    · exact none before other rest earlier

theorem FirstIn.concat (isFirst : FirstIn property calls before first after) (call : Call) :
    FirstIn property (calls ++ [call]) before first (after ++ [call]) where
  split := by rw [isFirst.split, List.append_assoc, List.cons_append]
  holds := isFirst.holds
  none := isFirst.none

theorem firstIn_last (none : NoneIn property calls) (holds : property calls call) :
    FirstIn property (calls ++ [call]) calls call [] :=
  ⟨rfl, holds, none⟩

theorem FirstIn.not_noneIn (isFirst : FirstIn property calls before first after) :
    ¬NoneIn property calls :=
  fun none => none before first after isFirst.split isFirst.holds

theorem noneIn_or_firstIn (property : List Call → Call → Prop) (calls : List Call) :
    NoneIn property calls ∨ ∃ before call after, FirstIn property calls before call after := by
  induction calls using List.reverseRecOn with
  | nil => exact Or.inl (noneIn_nil property)
  | append_singleton calls call inductionHypothesis =>
      rcases inductionHypothesis with none | ⟨before, first, after, isFirst⟩
      · by_cases holds : property calls call
        · exact Or.inr ⟨calls, call, [], firstIn_last none holds⟩
        · exact Or.inl (noneIn_concat.mpr ⟨none, holds⟩)
      · exact Or.inr ⟨before, first, after ++ [call], isFirst.concat call⟩

/-- There is one first call only. -/
theorem FirstIn.unique {otherFirst : Call} {otherAfter : List Call}
    (isFirst : FirstIn property calls before first after)
    (isOther : FirstIn property calls other otherFirst otherAfter) :
    before = other ∧ first = otherFirst ∧ after = otherAfter := by
  have same := isFirst.split.symm.trans isOther.split
  rcases List.append_eq_append_iff.mp same with ⟨between, rfl, rest⟩ | ⟨between, rfl, rest⟩
  · cases between with
    | nil => simpa using rest
    | cons next more =>
        obtain ⟨rfl, _⟩ := List.cons_eq_cons.mp rest
        exact absurd isFirst.holds (isOther.none before first more rfl)
  · cases between with
    | nil => simpa [eq_comm] using rest
    | cons next more =>
        obtain ⟨rfl, _⟩ := List.cons_eq_cons.mp rest
        exact absurd isOther.holds (isFirst.none other otherFirst more rfl)

end WatchedTree
