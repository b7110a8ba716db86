import WatchedTree.Proofs.Path.Descent

/-!
# What a path covers

A path covers itself and everything below it. The paths that a base covers are reached from it one
child at a time, which is the induction that the proofs about trees go by.
-/
namespace WatchedTree

namespace Path

variable {base path lower : Path} {segment : Text}

/-- Holds of the path itself and of the paths below it. -/
def Covers (base path : Path) : Prop := path = base ∨ isBelow base path = true

instance (base path : Path) : Decidable (Covers base path) := by
  unfold Covers
  infer_instance

theorem covers_refl (path : Path) : Covers path path := Or.inl rfl

theorem covers_of_isBelow (below : isBelow base path = true) : Covers base path := Or.inr below

theorem covers_trans (baseValid : IsValid base) (valid : IsValid path)
    (lowerValid : IsValid lower) (first : Covers base path) (second : Covers path lower) :
    Covers base lower := by
  rcases first with rfl | first
  · exact second
  · rcases second with rfl | second
    · exact Or.inr first
    · exact Or.inr (isBelow_trans baseValid valid lowerValid first second)

theorem isBelow_of_covers_of_isBelow (baseValid : IsValid base) (valid : IsValid path)
    (lowerValid : IsValid lower) (first : Covers base path) (second : isBelow path lower = true) :
    isBelow base lower = true := by
  rcases first with rfl | first
  · exact second
  · exact isBelow_trans baseValid valid lowerValid first second

theorem covers_antisymm (baseValid : IsValid base) (valid : IsValid path)
    (first : Covers base path) (second : Covers path base) : path = base := by
  rcases first with same | below
  · exact same
  · rcases second with same | above
    · exact same.symm
    · rw [isBelow_asymm baseValid valid below] at above
      cases above

theorem isBelow_child_iff_covers (baseValid : IsValid base) (valid : IsValid path)
    (isSegment : IsSegment segment) :
    isBelow base (path.child segment) = true ↔ Covers base path := by
  rw [isBelow_child_iff baseValid valid isSegment, Covers, eq_comm]

theorem covers_child (baseValid : IsValid base) (valid : IsValid path)
    (isSegment : IsSegment segment) (covers : Covers base path) :
    Covers base (path.child segment) :=
  Or.inr ((isBelow_child_iff_covers baseValid valid isSegment).mpr covers)

theorem isBelow_iff_covers_parent (baseValid : IsValid base) (valid : IsValid path) :
    isBelow base path = true ↔ path ≠ root ∧ Covers base (Path.parent path) := by
  rw [isBelow_iff_parent baseValid valid, Covers, eq_comm]

/-- The step of a base towards a path below it. -/
theorem covers_firstBelow (baseValid : IsValid base) (valid : IsValid path)
    (below : isBelow base path = true) : Covers (base.child (firstBelow base path)) path := by
  obtain ⟨_, onTheWay⟩ := firstBelow_spec baseValid valid below
  rcases onTheWay with same | lower
  · exact Or.inl same.symm
  · exact Or.inr lower

theorem firstBelow_of_covers (baseValid : IsValid base) (valid : IsValid path)
    (isSegment : IsSegment segment) (covers : Covers (base.child segment) path) :
    firstBelow base path = segment := by
  apply firstBelow_eq baseValid valid isSegment
  rcases covers with same | below
  · exact Or.inl same.symm
  · exact Or.inr below

theorem isBelow_of_covers_child (baseValid : IsValid base) (valid : IsValid path)
    (isSegment : IsSegment segment) (covers : Covers (base.child segment) path) :
    isBelow base path = true := by
  have childValid := baseValid.child isSegment
  have step := isBelow_child baseValid isSegment
  rcases covers with rfl | below
  · exact step
  · exact isBelow_trans baseValid childValid valid step below

/-- The paths that a base covers, from the base on, one child at a time. -/
theorem covers_induction {motive : Path → Prop} (baseValid : IsValid base)
    (atBase : motive base)
    (step : ∀ path segment, IsValid path → IsSegment segment → Covers base path → motive path →
      motive (path.child segment))
    (valid : IsValid path) (covers : Covers base path) : motive path := by
  obtain ⟨segments, allSegments, rfl⟩ := valid.exists_segments
  induction segments using List.reverseRecOn with
  | nil =>
      rcases covers with same | below
      · rw [same]
        exact atBase
      · rw [ofSegments_nil, not_isBelow_root baseValid] at below
        cases below
  | append_singleton upper segment inductionHypothesis =>
      have upperSegments : ∀ segment ∈ upper, IsSegment segment :=
        fun segment member => allSegments segment (by simp [member])
      have isSegment := allSegments segment (by simp)
      have upperValid := isValid_ofSegments upperSegments
      rcases covers with same | below
      · rw [same]
        exact atBase
      · rw [← child_ofSegments upperSegments] at below ⊢
        have upperCovered := (isBelow_child_iff_covers baseValid upperValid isSegment).mp below
        exact step _ segment upperValid isSegment upperCovered
          (inductionHypothesis upperSegments upperValid upperCovered)

/-- The way from a path down to one that it covers adds to the depth. -/
theorem depthBelow_of_covers (baseValid : IsValid base) (valid : IsValid path)
    (lowerValid : IsValid lower) {level : Nat} (depth : depthBelow base path = some level)
    (covers : Covers path lower) :
    ∃ steps, depthBelow base lower = some (level + steps) ∧
      (isBelow path lower = true → 0 < steps) := by
  apply covers_induction (motive := fun lower =>
    ∃ steps, depthBelow base lower = some (level + steps) ∧
      (isBelow path lower = true → 0 < steps)) valid
  · refine ⟨0, depth, fun below => ?_⟩
    rw [isBelow_irrefl] at below
    cases below
  · rintro key segment keyValid isSegment _ ⟨steps, keyDepth, _⟩
    refine ⟨steps + 1, ?_, fun _ => Nat.succ_pos steps⟩
    exact depthBelow_child baseValid keyValid isSegment keyDepth
  · exact lowerValid
  · exact covers

theorem depthBelow_self (base : Path) : depthBelow base base = some 0 := if_pos rfl

theorem depthBelow_lt (baseValid : IsValid base) (valid : IsValid path)
    (lowerValid : IsValid lower) (covers : Covers base path) (below : isBelow path lower = true) :
    ∃ level depth, depthBelow base path = some level ∧ depthBelow base lower = some depth ∧
      level < depth := by
  obtain ⟨level, pathDepth, _⟩ :=
    depthBelow_of_covers baseValid baseValid valid (depthBelow_self base) covers
  obtain ⟨steps, lowerDepth, more⟩ :=
    depthBelow_of_covers baseValid valid lowerValid pathDepth (covers_of_isBelow below)
  have someSteps := more below
  exact ⟨0 + level, 0 + level + steps, pathDepth, lowerDepth, by omega⟩

/-- Two paths that cover a third cover one the other. -/
theorem covers_or_covers {other : Path} (baseValid : IsValid base) (otherValid : IsValid other)
    (valid : IsValid path) (first : Covers base path) (second : Covers other path) :
    Covers base other ∨ Covers other base := by
  revert second
  apply covers_induction (motive := fun path =>
    Covers other path → Covers base other ∨ Covers other base) baseValid
  · exact Or.inr
  · intro upper segment upperValid isSegment upperCovered inductionHypothesis second
    rcases second with rfl | below
    · exact Or.inl (covers_child baseValid upperValid isSegment upperCovered)
    · exact inductionHypothesis
        ((isBelow_child_iff_covers otherValid upperValid isSegment).mp below)
  · exact valid
  · exact first

/-! ## How the remote side looks for descendants -/

theorem isPrefixOf_append_slash (notRoot : path ≠ root) (valid : IsValid path) (key : Path) :
    (path ++ ['/']).isPrefixOf key = isBelow path key := by
  obtain ⟨segments, allSegments, rfl⟩ := valid.exists_segments
  have someSegments : segments ≠ [] := by
    rintro rfl
    exact notRoot rfl
  have slashless := endsWithSlash_ofSegments allSegments
  rw [decide_eq_false someSegments] at slashless
  rw [isBelow, slashless, Bool.eq_iff_iff]
  generalize ofSegments segments = stem
  rw [Bool.and_eq_true, List.isPrefixOf_iff_prefix, List.isPrefixOf_iff_prefix]
  constructor
  · rintro ⟨rest, rfl⟩
    rw [List.append_assoc, List.drop_left]
    exact ⟨List.prefix_append _ _, by simp⟩
  · rintro ⟨⟨rest, rfl⟩, cut⟩
    rw [List.drop_left] at cut
    cases rest with
    | nil => cases cut
    | cons letter others =>
        have isSlash : letter = '/' := by simpa using cut
        subst isSlash
        exact ⟨others, by simp⟩

end Path

end WatchedTree
