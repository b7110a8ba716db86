import WatchedTree.Proofs.Path.Segments

/-!
# Parents, children and descent on valid paths

Each function on paths is read off the segments first; the second part restates what the rest of
the theory needs without them. `mem_ancestry_iff` says that climbing from a path to the root meets
exactly the paths it lies below.
-/
namespace WatchedTree

namespace Path

/-! ## In terms of segments -/

section Segments

variable {segments front back : List Text} {segment : Text}

@[simp] theorem parent_root : parent root = root := rfl

theorem dropWhile_reverse_append (stem : Text) (isSegment : IsSegment segment) :
    ((stem ++ '/' :: segment).reverse.dropWhile (· ≠ '/')) = '/' :: stem.reverse := by
  have free : ∀ letter ∈ segment.reverse, decide (letter ≠ '/') = true :=
    fun letter member => letters_of_free isSegment.2 letter (List.mem_reverse.mp member)
  rw [List.reverse_append, List.reverse_cons, List.append_assoc,
    List.dropWhile_append_of_pos free]
  simp

theorem parent_ofSegments_concat (isSegment : IsSegment segment) :
    parent (ofSegments (segments ++ [segment])) = ofSegments segments := by
  rw [ofSegments_concat, parent, dropWhile_reverse_append (steps segments) isSegment]
  rcases List.eq_nil_or_concat segments with rfl | ⟨front, last, rfl⟩
  · rfl
  · rw [List.concat_eq_append, ofSegments_of_ne_nil (by simp)]
    cases shape : (steps (front ++ [last])).reverse with
    | nil => simp at shape
    | cons letter rest =>
        simp only
        rw [← shape, List.reverse_reverse]

theorem name_ofSegments_concat (isSegment : IsSegment segment) :
    name (ofSegments (segments ++ [segment])) = segment := by
  have free : ∀ letter ∈ segment.reverse, decide (letter ≠ '/') = true :=
    fun letter member => letters_of_free isSegment.2 letter (List.mem_reverse.mp member)
  rw [ofSegments_concat, name, List.reverse_append, List.reverse_cons, List.append_assoc,
    List.takeWhile_append_of_pos free]
  simp

theorem endsWithSlash_ofSegments (allSegments : ∀ segment ∈ segments, IsSegment segment) :
    endsWithSlash (ofSegments segments) = decide (segments = []) := by
  by_cases empty : segments = []
  · rw [empty]
    rfl
  · rw [ofSegments_of_ne_nil empty, endsWithSlash_steps allSegments]
    simp [empty]

theorem child_ofSegments (allSegments : ∀ segment ∈ segments, IsSegment segment) :
    child (ofSegments segments) segment = ofSegments (segments ++ [segment]) := by
  rw [child, endsWithSlash_ofSegments allSegments, ofSegments_concat]
  by_cases empty : segments = []
  · simp [empty, root]
  · simp [empty, ofSegments_of_ne_nil empty]

/-- Below a path lie the chains that go on after it. -/
theorem isBelow_ofSegments {whole : List Text}
    (frontSegments : ∀ segment ∈ front, IsSegment segment)
    (wholeSegments : ∀ segment ∈ whole, IsSegment segment) :
    isBelow (ofSegments front) (ofSegments whole) = true ↔
      ∃ back, back ≠ [] ∧ whole = front ++ back := by
  constructor
  · intro below
    unfold isBelow at below
    obtain ⟨isPrefix, goesOn⟩ := Bool.and_eq_true_iff.mp below
    obtain ⟨rest, split⟩ := List.isPrefixOf_iff_prefix.mp isPrefix
    rw [← split, List.drop_left] at goesOn
    rw [endsWithSlash_ofSegments frontSegments] at goesOn
    by_cases frontNil : front = []
    · refine ⟨whole, ?_, by simp [frontNil]⟩
      intro wholeNil
      rw [frontNil, wholeNil] at split
      have restNil : rest = [] := by simpa using split
      rw [restNil] at goesOn
      simp at goesOn
    · cases rest with
      | nil => simp at goesOn
      | cons letter others =>
          have slash : letter = '/' := by simpa [frontNil] using goesOn
          have wholeSome : whole ≠ [] := by
            intro wholeNil
            rw [wholeNil, ofSegments_nil, ofSegments_of_ne_nil frontNil] at split
            have lengths := congrArg List.length split
            have positive : 0 < (steps front).length := by
              cases front with
              | nil => exact absurd rfl frontNil
              | cons => simp
            simp only [List.length_append, List.length_cons, root, List.length_nil] at lengths
            omega
          rw [ofSegments_of_ne_nil frontNil, ofSegments_of_ne_nil wholeSome] at split
          obtain ⟨back, wholeSplit, rest⟩ :=
            exists_append_of_steps_eq frontSegments wholeSegments (Or.inr (by simp [slash])) split
          refine ⟨back, ?_, wholeSplit⟩
          rintro rfl
          simp at rest
  · rintro ⟨back, backSome, rfl⟩
    have wholeSome : front ++ back ≠ [] := by simp [backSome]
    rw [isBelow, Bool.and_eq_true_iff, endsWithSlash_ofSegments frontSegments,
      ofSegments_of_ne_nil wholeSome]
    cases back with
    | nil => exact absurd rfl backSome
    | cons first others =>
        have firstSome := (wholeSegments first (by simp)).1
        by_cases frontNil : front = []
        · subst frontNil
          cases first with
          | nil => exact absurd rfl firstSome
          | cons letter rest => simp [root]
        · rw [ofSegments_of_ne_nil frontNil, steps_append]
          refine ⟨List.isPrefixOf_iff_prefix.mpr (List.prefix_append _ _), ?_⟩
          rw [List.drop_left]
          simp

theorem restBelow_ofSegments (isSegment : IsSegment segment) :
    restBelow (ofSegments front) (ofSegments (front ++ segment :: back)) =
      segment ++ steps back := by
  obtain ⟨letter, rest, shape⟩ := List.exists_cons_of_ne_nil isSegment.1
  have different : letter ≠ '/' := fun same => isSegment.2 (by simp [shape, same])
  rw [restBelow, ofSegments_of_ne_nil (by simp : front ++ segment :: back ≠ []), steps_append,
    shape]
  by_cases frontNil : front = []
  · simp [frontNil, root, different]
  · rw [ofSegments_of_ne_nil frontNil, List.drop_left]
    simp [different]

theorem firstBelow_ofSegments (isSegment : IsSegment segment) :
    firstBelow (ofSegments front) (ofSegments (front ++ segment :: back)) = segment := by
  rw [firstBelow, restBelow_ofSegments isSegment,
    List.takeWhile_append_of_pos (letters_of_free isSegment.2)]
  cases back <;> simp

theorem depthBelow_ofSegments
    (allSegments : ∀ segment ∈ front ++ back, IsSegment segment) :
    depthBelow (ofSegments front) (ofSegments (front ++ back)) = some back.length := by
  have frontSegments : ∀ segment ∈ front, IsSegment segment :=
    fun segment member => allSegments segment (by simp [member])
  unfold depthBelow
  cases back with
  | nil => simp
  | cons first others =>
      have isSegment := allSegments first (by simp)
      have below :=
        (isBelow_ofSegments frontSegments allSegments).mpr ⟨first :: others, by simp, rfl⟩
      have different : ofSegments (front ++ first :: others) ≠ ofSegments front := by
        intro same
        have := ofSegments_injective allSegments frontSegments same
        simp at this
      rw [if_neg different, if_pos below, restBelow_ofSegments isSegment, pieces]
      have someBack : first :: others ≠ [] := by simp
      have counted := pieces_tail_steps someBack
        (fun segment member => (allSegments segment (by simp [List.mem_append, member])).2)
      simp only [steps_cons, List.tail_cons] at counted
      rw [counted]

theorem mem_climb_iff {path : Path} :
    ∀ {count : Nat} {segments : List Text}, (∀ segment ∈ segments, IsSegment segment) →
      segments.length ≤ count →
      (path ∈ ancestry.climb count (ofSegments segments) ↔
        ∃ front back, segments = front ++ back ∧ path = ofSegments front) := by
  intro count
  induction count with
  | zero =>
      intro segments _ bound
      have empty : segments = [] := List.eq_nil_of_length_eq_zero (by omega)
      subst empty
      simp [ancestry.climb]
  | succ count inductionHypothesis =>
      intro segments allSegments bound
      rcases List.eq_nil_or_concat segments with rfl | ⟨stem, last, rfl⟩
      · simp [ancestry.climb]
      · rw [List.concat_eq_append] at allSegments bound ⊢
        have isSegment := allSegments last (by simp)
        have stemSegments : ∀ segment ∈ stem, IsSegment segment :=
          fun segment member => allSegments segment (by simp [member])
        have notRoot : ofSegments (stem ++ [last]) ≠ root := by
          rw [ofSegments_of_ne_nil (by simp)]
          exact steps_ne_root allSegments
        have shorter : stem.length ≤ count := by
          simp only [List.length_append, List.length_singleton] at bound
          omega
        rw [ancestry.climb, if_neg notRoot, parent_ofSegments_concat isSegment, List.mem_cons,
          inductionHypothesis stemSegments shorter]
        constructor
        · rintro (rfl | ⟨front, back, rfl, rfl⟩)
          · exact ⟨stem ++ [last], [], by simp, rfl⟩
          · exact ⟨front, back ++ [last], by simp, rfl⟩
        · rintro ⟨front, back, split, rfl⟩
          rcases List.eq_nil_or_concat back with rfl | ⟨others, final, rfl⟩
          · exact Or.inl (by rw [split, List.append_nil])
          · rw [List.concat_eq_append, ← List.append_assoc] at split
            obtain ⟨stemSplit, _⟩ := List.append_inj' split rfl
            exact Or.inr ⟨front, others, stemSplit, rfl⟩

theorem length_le_length_steps (segments : List Text) :
    segments.length ≤ (steps segments).length := by
  induction segments with
  | nil => simp
  | cons segment others inductionHypothesis =>
      simp only [steps_cons, List.length_cons, List.length_append]
      omega

end Segments

/-! ## On valid paths -/

section Valid

variable {base path lower : Path} {segment : Text}

theorem IsValid.child (valid : IsValid path) (isSegment : IsSegment segment) :
    IsValid (path.child segment) := by
  obtain ⟨segments, allSegments, rfl⟩ := valid.exists_segments
  rw [child_ofSegments allSegments]
  apply isValid_ofSegments
  intro held member
  rcases List.mem_append.mp member with inFront | isLast
  · exact allSegments held inFront
  · rw [List.mem_singleton.mp isLast]
    exact isSegment

/-- Every valid path except the root is the child of a valid path. -/
theorem IsValid.exists_child (valid : IsValid path) (notRoot : path ≠ root) :
    ∃ upper segment, IsValid upper ∧ IsSegment segment ∧ path = upper.child segment := by
  obtain ⟨segments, allSegments, rfl⟩ := valid.exists_segments
  rcases List.eq_nil_or_concat segments with rfl | ⟨front, last, rfl⟩
  · exact absurd rfl notRoot
  · rw [List.concat_eq_append] at allSegments ⊢
    have frontSegments : ∀ segment ∈ front, IsSegment segment :=
      fun segment member => allSegments segment (by simp [member])
    exact ⟨ofSegments front, last, isValid_ofSegments frontSegments, allSegments last (by simp),
      (child_ofSegments frontSegments).symm⟩

theorem parent_child (valid : IsValid path) (isSegment : IsSegment segment) :
    parent (path.child segment) = path := by
  obtain ⟨segments, allSegments, rfl⟩ := valid.exists_segments
  rw [child_ofSegments allSegments, parent_ofSegments_concat isSegment]

theorem name_child (valid : IsValid path) (isSegment : IsSegment segment) :
    name (path.child segment) = segment := by
  obtain ⟨segments, allSegments, rfl⟩ := valid.exists_segments
  rw [child_ofSegments allSegments, name_ofSegments_concat isSegment]

theorem child_ne_root (valid : IsValid path) (isSegment : IsSegment segment) :
    path.child segment ≠ root := by
  intro same
  have named := name_child valid isSegment
  rw [same] at named
  exact isSegment.1 (named.symm.trans (by decide))

theorem IsValid.parent (valid : IsValid path) : IsValid (Path.parent path) := by
  by_cases isRoot : path = root
  · rw [isRoot]
    exact isValid_root
  · obtain ⟨upper, segment, upperValid, isSegment, rfl⟩ := valid.exists_child isRoot
    rw [parent_child upperValid isSegment]
    exact upperValid

theorem child_parent_name (valid : IsValid path) (notRoot : path ≠ root) :
    (Path.parent path).child (name path) = path := by
  obtain ⟨upper, segment, upperValid, isSegment, rfl⟩ := valid.exists_child notRoot
  rw [parent_child upperValid isSegment, name_child upperValid isSegment]

theorem isSegment_name (valid : IsValid path) (notRoot : path ≠ root) :
    IsSegment (name path) := by
  obtain ⟨upper, segment, upperValid, isSegment, rfl⟩ := valid.exists_child notRoot
  rw [name_child upperValid isSegment]
  exact isSegment

theorem child_injective {other : Text} (valid : IsValid path) (isSegment : IsSegment segment)
    (otherSegment : IsSegment other) (same : path.child segment = path.child other) :
    segment = other := by
  rw [← name_child valid isSegment, same, name_child valid otherSegment]

theorem isBelow_irrefl (path : Path) : isBelow path path = false := by
  rw [isBelow, List.drop_length]
  simp

theorem ne_of_isBelow (below : isBelow base path = true) : base ≠ path := by
  rintro rfl
  rw [isBelow_irrefl] at below
  cases below

/-- A child lies below its parent and below what its parent lies below. -/
theorem isBelow_child_iff (baseValid : IsValid base) (valid : IsValid path)
    (isSegment : IsSegment segment) :
    isBelow base (path.child segment) = true ↔ base = path ∨ isBelow base path = true := by
  obtain ⟨front, frontSegments, rfl⟩ := baseValid.exists_segments
  obtain ⟨segments, allSegments, rfl⟩ := valid.exists_segments
  have wholeSegments : ∀ held ∈ segments ++ [segment], IsSegment held := by
    intro held member
    rcases List.mem_append.mp member with inFront | isLast
    · exact allSegments held inFront
    · rw [List.mem_singleton.mp isLast]
      exact isSegment
  rw [child_ofSegments allSegments, isBelow_ofSegments frontSegments wholeSegments,
    isBelow_ofSegments frontSegments allSegments]
  constructor
  · rintro ⟨back, some, split⟩
    rcases List.eq_nil_or_concat back with rfl | ⟨others, last, rfl⟩
    · exact absurd rfl some
    · rw [List.concat_eq_append, ← List.append_assoc] at split
      obtain ⟨stem, _⟩ := List.append_inj' split rfl
      cases others with
      | nil => exact Or.inl (by rw [stem, List.append_nil])
      | cons first rest => exact Or.inr ⟨first :: rest, by simp, stem⟩
  · rintro (same | ⟨back, _, rfl⟩)
    · have fronts := ofSegments_injective frontSegments allSegments same
      exact ⟨[segment], by simp, by rw [fronts]⟩
    · exact ⟨back ++ [segment], by simp, by simp⟩

theorem isBelow_child (valid : IsValid path) (isSegment : IsSegment segment) :
    isBelow path (path.child segment) = true :=
  (isBelow_child_iff valid valid isSegment).mpr (Or.inl rfl)

theorem not_isBelow_root (baseValid : IsValid base) : isBelow base root = false := by
  obtain ⟨front, frontSegments, rfl⟩ := baseValid.exists_segments
  rw [Bool.eq_false_iff]
  intro below
  rw [← ofSegments_nil, isBelow_ofSegments frontSegments (by simp)] at below
  obtain ⟨back, some, split⟩ := below
  exact some (List.append_eq_nil_iff.mp split.symm).2

theorem ne_root_of_isBelow (baseValid : IsValid base) (below : isBelow base path = true) :
    path ≠ root := by
  rintro rfl
  rw [not_isBelow_root baseValid] at below
  cases below

theorem isBelow_trans (baseValid : IsValid base) (valid : IsValid path)
    (lowerValid : IsValid lower) (first : isBelow base path = true)
    (second : isBelow path lower = true) : isBelow base lower = true := by
  obtain ⟨front, frontSegments, rfl⟩ := baseValid.exists_segments
  obtain ⟨middle, middleSegments, rfl⟩ := valid.exists_segments
  obtain ⟨whole, wholeSegments, rfl⟩ := lowerValid.exists_segments
  rw [isBelow_ofSegments frontSegments middleSegments] at first
  rw [isBelow_ofSegments middleSegments wholeSegments] at second
  obtain ⟨back, some, rfl⟩ := first
  obtain ⟨more, _, rfl⟩ := second
  exact (isBelow_ofSegments frontSegments wholeSegments).mpr ⟨back ++ more, by simp [some], by simp⟩

theorem isBelow_asymm (baseValid : IsValid base) (valid : IsValid path)
    (below : isBelow base path = true) : isBelow path base = false := by
  rw [Bool.eq_false_iff]
  intro back
  have loop := isBelow_trans baseValid valid baseValid below back
  rw [isBelow_irrefl] at loop
  cases loop

/-- Below a base, a path is a child of the base or its parent lies below the base too. -/
theorem isBelow_iff_parent (baseValid : IsValid base) (valid : IsValid path) :
    isBelow base path = true ↔
      path ≠ root ∧ (base = Path.parent path ∨ isBelow base (Path.parent path) = true) := by
  by_cases isRoot : path = root
  · subst isRoot
    simp [not_isBelow_root baseValid]
  · obtain ⟨upper, segment, upperValid, isSegment, rfl⟩ := valid.exists_child isRoot
    rw [isBelow_child_iff baseValid upperValid isSegment, parent_child upperValid isSegment]
    simp [isRoot]

/-- The first segment below a base leads to a child on the way to the path. -/
theorem firstBelow_spec (baseValid : IsValid base) (valid : IsValid path)
    (below : isBelow base path = true) :
    IsSegment (firstBelow base path) ∧
      (base.child (firstBelow base path) = path ∨
        isBelow (base.child (firstBelow base path)) path = true) := by
  obtain ⟨front, frontSegments, rfl⟩ := baseValid.exists_segments
  obtain ⟨whole, wholeSegments, rfl⟩ := valid.exists_segments
  rw [isBelow_ofSegments frontSegments wholeSegments] at below
  obtain ⟨back, some, rfl⟩ := below
  cases back with
  | nil => exact absurd rfl some
  | cons first others =>
      have isSegment := wholeSegments first (by simp)
      rw [firstBelow_ofSegments isSegment, child_ofSegments frontSegments]
      refine ⟨isSegment, ?_⟩
      cases others with
      | nil => exact Or.inl rfl
      | cons second more =>
          have upperSegments : ∀ segment ∈ front ++ [first], IsSegment segment := by
            intro segment member
            apply wholeSegments segment
            rcases List.mem_append.mp member with inFront | isFirst
            · simp [inFront]
            · simp [List.mem_singleton.mp isFirst]
          exact Or.inr <|
            (isBelow_ofSegments upperSegments wholeSegments).mpr ⟨second :: more, by simp, by simp⟩

theorem firstBelow_eq (baseValid : IsValid base) (valid : IsValid path)
    (isSegment : IsSegment segment)
    (onTheWay : base.child segment = path ∨ isBelow (base.child segment) path = true) :
    firstBelow base path = segment := by
  obtain ⟨front, frontSegments, rfl⟩ := baseValid.exists_segments
  obtain ⟨whole, wholeSegments, rfl⟩ := valid.exists_segments
  have upperSegments : ∀ held ∈ front ++ [segment], IsSegment held := by
    intro held member
    rcases List.mem_append.mp member with inFront | isLast
    · exact frontSegments held inFront
    · rw [List.mem_singleton.mp isLast]
      exact isSegment
  rw [child_ofSegments frontSegments] at onTheWay
  rcases onTheWay with same | below
  · have split := ofSegments_injective upperSegments wholeSegments same
    rw [← split]
    exact firstBelow_ofSegments isSegment
  · rw [isBelow_ofSegments upperSegments wholeSegments] at below
    obtain ⟨back, _, rfl⟩ := below
    rw [List.append_assoc]
    exact firstBelow_ofSegments isSegment

/-- Depth counts the steps from the base down. -/
theorem depthBelow_child (baseValid : IsValid base) (valid : IsValid path)
    (isSegment : IsSegment segment) {level : Nat} (depth : depthBelow base path = some level) :
    depthBelow base (path.child segment) = some (level + 1) := by
  obtain ⟨front, frontSegments, rfl⟩ := baseValid.exists_segments
  obtain ⟨whole, wholeSegments, rfl⟩ := valid.exists_segments
  have within : ∃ back, whole = front ++ back := by
    unfold depthBelow at depth
    split at depth
    next same => exact ⟨[], by simp [ofSegments_injective wholeSegments frontSegments same]⟩
    next =>
      split at depth
      next below =>
        obtain ⟨back, _, split⟩ := (isBelow_ofSegments frontSegments wholeSegments).mp below
        exact ⟨back, split⟩
      next => cases depth
  obtain ⟨back, rfl⟩ := within
  rw [depthBelow_ofSegments wholeSegments] at depth
  rw [child_ofSegments wholeSegments, List.append_assoc, depthBelow_ofSegments]
  · cases depth
    simp
  · intro held member
    rw [← List.append_assoc] at member
    rcases List.mem_append.mp member with inFront | isLast
    · exact wholeSegments held inFront
    · rw [List.mem_singleton.mp isLast]
      exact isSegment

/-- Climbing from a path meets the path and what it lies below. -/
theorem mem_ancestry_iff (valid : IsValid path) (baseValid : IsValid base) :
    base ∈ ancestry path ↔ base = path ∨ isBelow base path = true := by
  obtain ⟨segments, allSegments, rfl⟩ := valid.exists_segments
  obtain ⟨front, frontSegments, rfl⟩ := baseValid.exists_segments
  have enough : segments.length ≤ (ofSegments segments).length := by
    by_cases empty : segments = []
    · simp [empty]
    · rw [ofSegments_of_ne_nil empty]
      exact length_le_length_steps segments
  rw [ancestry, mem_climb_iff allSegments enough, isBelow_ofSegments frontSegments allSegments]
  constructor
  · rintro ⟨other, back, split, same⟩
    have otherSegments : ∀ segment ∈ other, IsSegment segment :=
      fun segment member => allSegments segment (by simp [split, member])
    have fronts := ofSegments_injective frontSegments otherSegments same
    subst fronts
    by_cases empty : back = []
    · exact Or.inl (by rw [split, empty, List.append_nil])
    · exact Or.inr ⟨back, empty, split⟩
  · rintro (same | ⟨back, _, split⟩)
    · exact ⟨segments, [], by simp, same⟩
    · exact ⟨front, back, split, rfl⟩

end Valid

end Path

end WatchedTree
