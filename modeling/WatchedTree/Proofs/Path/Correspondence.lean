import Mathlib.Logic.Function.Iterate
import WatchedTree.Proofs.Path.Descent

/-!
# Functions on paths as functions on lists of segments

Spelled out with a slash before each segment, the lists of segments are one to one the valid paths,
and each function on paths is one on lists: the parent drops the last segment, the name is the last
segment, a child has one more, and what lies below is what goes on. Climbing by parents goes through
the beginnings of the list, from the longest to the empty one.
-/
namespace WatchedTree

namespace Path

variable {segments front whole : List Text} {upper : Path}

/-! ## One step up -/

theorem parent_ofSegments (allSegments : ∀ segment ∈ segments, IsSegment segment) :
    parent (ofSegments segments) = ofSegments segments.dropLast := by
  rcases List.eq_nil_or_concat segments with rfl | ⟨stem, last, rfl⟩
  · rfl
  · rw [List.concat_eq_append] at allSegments ⊢
    rw [parent_ofSegments_concat (allSegments last (by simp)), List.dropLast_concat]

theorem name_ofSegments (allSegments : ∀ segment ∈ segments, IsSegment segment) :
    name (ofSegments segments) = segments.getLast?.getD [] := by
  rcases List.eq_nil_or_concat segments with rfl | ⟨stem, last, rfl⟩
  · rfl
  · rw [List.concat_eq_append] at allSegments ⊢
    rw [name_ofSegments_concat (allSegments last (by simp)), List.getLast?_concat, Option.getD_some]

/-! ## Descent -/

/-- A path lies below another one if it goes on after it. -/
theorem isBelow_ofSegments_iff (frontSegments : ∀ segment ∈ front, IsSegment segment)
    (wholeSegments : ∀ segment ∈ whole, IsSegment segment) :
    isBelow (ofSegments front) (ofSegments whole) = true ↔ front <+: whole ∧ front ≠ whole := by
  rw [isBelow_ofSegments frontSegments wholeSegments]
  constructor
  · rintro ⟨back, some, rfl⟩
    refine ⟨List.prefix_append front back, ?_⟩
    rwa [ne_eq, List.self_eq_append_right]
  · rintro ⟨⟨back, rfl⟩, different⟩
    rw [ne_eq, List.self_eq_append_right] at different
    exact ⟨back, different, rfl⟩

theorem depthBelow_ofSegments_eq (frontSegments : ∀ segment ∈ front, IsSegment segment)
    (wholeSegments : ∀ segment ∈ whole, IsSegment segment) :
    depthBelow (ofSegments front) (ofSegments whole) =
      if front <+: whole then some (whole.length - front.length) else none := by
  by_cases isPrefix : front <+: whole
  · obtain ⟨back, rfl⟩ := isPrefix
    rw [depthBelow_ofSegments wholeSegments, if_pos (List.prefix_append front back),
      List.length_append, Nat.add_sub_cancel_left]
  · have different : ofSegments whole ≠ ofSegments front := by
      intro same
      rw [ofSegments_injective wholeSegments frontSegments same] at isPrefix
      exact isPrefix (List.prefix_refl front)
    have notBelow : ¬isBelow (ofSegments front) (ofSegments whole) = true := by
      rw [isBelow_ofSegments_iff frontSegments wholeSegments]
      exact fun below => isPrefix below.1
    rw [depthBelow, if_neg different, if_neg notBelow, if_neg isPrefix]

/-! ## Climbing -/

theorem iterate_parent_ofSegments (allSegments : ∀ segment ∈ segments, IsSegment segment)
    (count : Nat) :
    parent^[count] (ofSegments segments) =
      ofSegments (segments.take (segments.length - count)) := by
  induction count with
  | zero => simp
  | succ count inductionHypothesis =>
      have taken : ∀ segment ∈ segments.take (segments.length - count), IsSegment segment :=
        fun segment member => allSegments segment (List.mem_of_mem_take member)
      rw [Function.iterate_succ_apply', inductionHypothesis, parent_ofSegments taken,
        List.dropLast_eq_take, List.take_take, List.length_take]
      congr 2
      omega

/-- The paths met while climbing are those of the beginnings of the list. -/
theorem exists_iterate_parent_iff (allSegments : ∀ segment ∈ segments, IsSegment segment) :
    (∃ count, parent^[count] (ofSegments segments) = upper) ↔
      ∃ front, front <+: segments ∧ upper = ofSegments front := by
  constructor
  · rintro ⟨count, rfl⟩
    exact ⟨_, List.take_prefix _ segments, iterate_parent_ofSegments allSegments count⟩
  · rintro ⟨front, ⟨back, rfl⟩, rfl⟩
    refine ⟨back.length, ?_⟩
    rw [iterate_parent_ofSegments allSegments, List.length_append, Nat.add_sub_cancel,
      List.take_left]

theorem exists_iterate_parent_iff_isBelow
    (allSegments : ∀ segment ∈ segments, IsSegment segment) :
    (∃ count, parent^[count] (ofSegments segments) = upper) ↔
      IsValid upper ∧
        (upper = ofSegments segments ∨ isBelow upper (ofSegments segments) = true) := by
  rw [exists_iterate_parent_iff allSegments]
  constructor
  · rintro ⟨front, isPrefix, rfl⟩
    have frontSegments : ∀ segment ∈ front, IsSegment segment :=
      fun segment member => allSegments segment (isPrefix.subset member)
    refine ⟨isValid_ofSegments frontSegments, ?_⟩
    by_cases same : front = segments
    · exact Or.inl (congrArg ofSegments same)
    · exact Or.inr ((isBelow_ofSegments_iff frontSegments allSegments).mpr ⟨isPrefix, same⟩)
  · rintro ⟨valid, same | below⟩
    · exact ⟨segments, List.prefix_refl segments, same⟩
    · obtain ⟨front, frontSegments, rfl⟩ := valid.exists_segments
      exact ⟨front, ((isBelow_ofSegments_iff frontSegments allSegments).mp below).1, rfl⟩

/-- Climbing stops at the root, after one step for each segment. -/
theorem climb_ofSegments {count : Nat} (allSegments : ∀ segment ∈ segments, IsSegment segment)
    (enough : segments.length ≤ count) :
    ancestry.climb count (ofSegments segments) =
      (List.range (segments.length + 1)).map fun steps => parent^[steps] (ofSegments segments) := by
  induction count generalizing segments with
  | zero =>
      obtain rfl := List.eq_nil_of_length_eq_zero (Nat.le_zero.mp enough)
      rfl
  | succ count inductionHypothesis =>
      by_cases empty : segments = []
      · subst empty
        rfl
      · have notRoot : ofSegments segments ≠ root := by
          rw [ofSegments_of_ne_nil empty]
          exact steps_ne_root allSegments
        have positive := List.length_pos_iff.mpr empty
        have stemSegments : ∀ segment ∈ segments.dropLast, IsSegment segment :=
          fun segment member => allSegments segment (List.dropLast_subset segments member)
        have shorter : segments.dropLast.length ≤ count := by
          rw [List.length_dropLast]
          omega
        rw [ancestry.climb, if_neg notRoot, parent_ofSegments allSegments,
          inductionHypothesis stemSegments shorter, List.length_dropLast,
          Nat.sub_add_cancel positive, List.range_succ_eq_map (n := segments.length),
          List.map_cons, List.map_map, ← parent_ofSegments allSegments]
        rfl

theorem ancestry_ofSegments (allSegments : ∀ segment ∈ segments, IsSegment segment) :
    ancestry (ofSegments segments) =
      (List.range (segments.length + 1)).map fun steps => parent^[steps] (ofSegments segments) := by
  apply climb_ofSegments allSegments
  by_cases empty : segments = []
  · simp [empty]
  · rw [ofSegments_of_ne_nil empty]
    exact length_le_length_steps segments

/-! ## The correspondence -/

/-- What the functions on paths make of the path with these segments. -/
structure ActsOn (segments : List Text) : Prop where
  /-- No other segments spell the path. -/
  unique : ∀ other, (∀ segment ∈ other, IsSegment segment) →
    ofSegments other = ofSegments segments → other = segments
  parent : Path.parent (ofSegments segments) = ofSegments segments.dropLast
  name : Path.name (ofSegments segments) = segments.getLast?.getD []
  child : ∀ segment, IsSegment segment →
    Path.child (ofSegments segments) segment = ofSegments (segments ++ [segment]) ∧
    Path.parent (Path.child (ofSegments segments) segment) = ofSegments segments ∧
    Path.name (Path.child (ofSegments segments) segment) = segment
  rejoin : ofSegments segments ≠ root →
    Path.child (Path.parent (ofSegments segments)) (Path.name (ofSegments segments)) =
      ofSegments segments
  isBelow : ∀ front, (∀ segment ∈ front, IsSegment segment) →
    (Path.isBelow (ofSegments front) (ofSegments segments) = true ↔
      front <+: segments ∧ front ≠ segments)
  depthBelow : ∀ front, (∀ segment ∈ front, IsSegment segment) →
    Path.depthBelow (ofSegments front) (ofSegments segments) =
      if front <+: segments then some (segments.length - front.length) else none
  visits : ∀ upper, (∃ count, Path.parent^[count] (ofSegments segments) = upper) ↔
    IsValid upper ∧
      (upper = ofSegments segments ∨ Path.isBelow upper (ofSegments segments) = true)
  /-- The last of the paths visited is the root, and the climb ends there. -/
  ancestry : Path.ancestry (ofSegments segments) =
      (List.range (segments.length + 1)).map
        (fun count => Path.parent^[count] (ofSegments segments)) ∧
    Path.parent^[segments.length] (ofSegments segments) = root ∧ Path.parent root = root

/-- The check accepts the root and the chains of segments, each behind a slash, and nothing else.
On the paths accepted, the other functions are those of lists of segments. -/
theorem paths_as_segments :
    (∀ path : Path, check path = .ok () ↔ path = root ∨
      ∃ segments, segments ≠ [] ∧ (∀ segment ∈ segments, IsSegment segment) ∧
        path = steps segments) ∧
    ∀ segments, (∀ segment ∈ segments, IsSegment segment) → ActsOn segments := by
  constructor
  · intro path
    rw [← IsValid, isValid_iff]
    constructor
    · rintro ⟨segments, allSegments, rfl⟩
      by_cases empty : segments = []
      · exact Or.inl (by rw [empty, ofSegments_nil])
      · exact Or.inr ⟨segments, empty, allSegments, ofSegments_of_ne_nil empty⟩
    · rintro (rfl | ⟨segments, some, allSegments, rfl⟩)
      · exact ⟨[], by simp, rfl⟩
      · exact ⟨segments, allSegments, (ofSegments_of_ne_nil some).symm⟩
  · intro segments allSegments
    have valid := isValid_ofSegments allSegments
    have top : Path.parent^[segments.length] (ofSegments segments) = root := by
      rw [iterate_parent_ofSegments allSegments, Nat.sub_self, List.take_zero, ofSegments_nil]
    exact
      { unique := fun other otherSegments => ofSegments_injective otherSegments allSegments
        parent := parent_ofSegments allSegments
        name := name_ofSegments allSegments
        child := fun segment isSegment =>
          ⟨child_ofSegments allSegments, parent_child valid isSegment, name_child valid isSegment⟩
        rejoin := child_parent_name valid
        isBelow := fun front frontSegments => isBelow_ofSegments_iff frontSegments allSegments
        depthBelow := fun front frontSegments =>
          depthBelow_ofSegments_eq frontSegments allSegments
        visits := fun upper => exists_iterate_parent_iff_isBelow allSegments
        ancestry := ⟨ancestry_ofSegments allSegments, top, parent_root⟩ }

/-- A name of several bytes is one segment, and a path is not below one whose last name only begins
as its own does. -/
theorem paths_as_segments_of_shared_prefix :
    let segments := ["a".toList, "éa".toList]
    (∀ segment ∈ segments, IsSegment segment) ∧
      Path.parent "/a/éa".toList = "/a".toList ∧
      Path.depthBelow "/a".toList "/a/éa".toList = some 1 ∧
      Path.isBelow "/a/é".toList "/a/éa".toList = false := by
  intro segments
  have allSegments : ∀ segment ∈ segments, IsSegment segment := by
    simp [segments, IsSegment]
  have acts := paths_as_segments.2 segments allSegments
  refine ⟨allSegments, acts.parent, acts.depthBelow ["a".toList] (by simp [IsSegment]), ?_⟩
  have notBelow := acts.isBelow ["a".toList, "é".toList] (by simp [IsSegment])
  rw [← Bool.not_eq_true]
  exact fun below => absurd (notBelow.mp below).1 (by decide)

end Path

end WatchedTree
