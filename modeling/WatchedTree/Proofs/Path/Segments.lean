import Mathlib.Data.List.Basic
import Mathlib.Data.List.Infix
import WatchedTree.Path

/-!
# Paths as lists of segments

A path is valid exactly if it is the root or a chain of segments, each behind a slash.
`isBelow_ofSegments` reads descent as the prefix order on segments; the facts about parents,
children and ancestors that the rest of the theory uses follow from it.
-/
namespace WatchedTree

namespace Path

/-- What may stand between slashes: something, and no slash. -/
def IsSegment (text : Text) : Prop := text ≠ [] ∧ '/' ∉ text

/-- A slash and a segment, over and over. -/
def steps (segments : List Text) : Path := segments.flatMap ('/' :: ·)

/-- The path with these segments; the root has none. -/
def ofSegments (segments : List Text) : Path := if segments = [] then root else steps segments

/-- The paths that the check accepts. -/
def IsValid (path : Path) : Prop := check path = .ok ()

instance (path : Path) : Decidable (IsValid path) :=
  match accepted : check path with
  | .ok () => isTrue accepted
  | .error _ => isFalse fun valid => by
      rw [IsValid, accepted] at valid
      cases valid

@[simp] theorem steps_nil : steps [] = [] := rfl

@[simp] theorem steps_cons (segment : Text) (segments : List Text) :
    steps (segment :: segments) = '/' :: (segment ++ steps segments) := rfl

@[simp] theorem steps_append (front back : List Text) :
    steps (front ++ back) = steps front ++ steps back := by
  simp [steps]

@[simp] theorem ofSegments_nil : ofSegments [] = root := rfl

theorem ofSegments_of_ne_nil {segments : List Text} (some : segments ≠ []) :
    ofSegments segments = steps segments := by
  rw [ofSegments, if_neg some]

@[simp] theorem ofSegments_concat (segments : List Text) (last : Text) :
    ofSegments (segments ++ [last]) = steps segments ++ '/' :: last := by
  rw [ofSegments_of_ne_nil (by simp)]
  simp

/-! ## Taking texts apart at slashes -/

theorem letters_of_free {text : Text} (free : '/' ∉ text) :
    ∀ letter ∈ text, decide (letter ≠ '/') = true := by
  intro letter member
  have different : letter ≠ '/' := fun same => free (same ▸ member)
  simpa using different

/-- A text that is empty or starts with a slash cannot reach into a segment before it. -/
theorem eq_of_append_eq_append {left right leftRest rightRest : Text}
    (leftFree : '/' ∉ left) (rightFree : '/' ∉ right)
    (leftCut : leftRest = [] ∨ leftRest.head? = some '/')
    (rightCut : rightRest = [] ∨ rightRest.head? = some '/')
    (equality : left ++ leftRest = right ++ rightRest) :
    left = right ∧ leftRest = rightRest := by
  have front : ∀ {segment rest : Text}, '/' ∉ segment →
      (rest = [] ∨ rest.head? = some '/') →
      (segment ++ rest).takeWhile (· ≠ '/') = segment := by
    intro segment rest free cut
    rw [List.takeWhile_append_of_pos (letters_of_free free)]
    rcases cut with rfl | head
    · simp
    · cases rest with
      | nil => simp at head
      | cons letter others =>
          have slash : letter = '/' := by simpa using head
          simp [slash]
  have same : left = right := by
    rw [← front leftFree leftCut, ← front rightFree rightCut, equality]
  subst same
  exact ⟨rfl, List.append_cancel_left equality⟩

theorem steps_cut (segments : List Text) :
    steps segments = [] ∨ (steps segments).head? = some '/' := by
  cases segments <;> simp

/-- A chain of segments that goes on at a slash is a beginning of the longer chain. -/
theorem exists_append_of_steps_eq {front : List Text} :
    ∀ {whole : List Text} {rest : Text},
      (∀ segment ∈ front, IsSegment segment) → (∀ segment ∈ whole, IsSegment segment) →
      (rest = [] ∨ rest.head? = some '/') →
      steps front ++ rest = steps whole →
      ∃ back, whole = front ++ back ∧ rest = steps back := by
  induction front with
  | nil =>
      intro whole rest _ _ _ equality
      exact ⟨whole, rfl, by simpa using equality⟩
  | cons segment segments inductionHypothesis =>
      intro whole rest frontSegments wholeSegments cut equality
      cases whole with
      | nil => simp at equality
      | cons first others =>
          have tails : segment ++ (steps segments ++ rest) = first ++ steps others := by
            simpa using equality
          have tailCut :
              steps segments ++ rest = [] ∨ (steps segments ++ rest).head? = some '/' := by
            cases segments with
            | nil => simpa using cut
            | cons => simp
          obtain ⟨same, remaining⟩ :=
            eq_of_append_eq_append (frontSegments segment (by simp)).2
              (wholeSegments first (by simp)).2 tailCut (steps_cut others) tails
          obtain ⟨back, split, rest_eq⟩ :=
            inductionHypothesis (fun held member => frontSegments held (by simp [member]))
              (fun held member => wholeSegments held (by simp [member])) cut remaining
          exact ⟨back, by rw [same, split]; rfl, rest_eq⟩

theorem steps_injective {left right : List Text}
    (leftSegments : ∀ segment ∈ left, IsSegment segment)
    (rightSegments : ∀ segment ∈ right, IsSegment segment)
    (equality : steps left = steps right) : left = right := by
  obtain ⟨back, split, rest⟩ :=
    exists_append_of_steps_eq leftSegments rightSegments (Or.inl rfl)
      (by simpa using equality)
  cases back with
  | nil => simpa using split.symm
  | cons => simp at rest

theorem steps_ne_root {segments : List Text}
    (allSegments : ∀ segment ∈ segments, IsSegment segment) : steps segments ≠ root := by
  cases segments with
  | nil => simp [root]
  | cons segment others =>
      intro equality
      have some := (allSegments segment (by simp)).1
      cases segment with
      | nil => exact some rfl
      | cons => simp [root] at equality

theorem ofSegments_injective {left right : List Text}
    (leftSegments : ∀ segment ∈ left, IsSegment segment)
    (rightSegments : ∀ segment ∈ right, IsSegment segment)
    (equality : ofSegments left = ofSegments right) : left = right := by
  by_cases leftNil : left = [] <;> by_cases rightNil : right = []
  · rw [leftNil, rightNil]
  · rw [leftNil, ofSegments_nil, ofSegments_of_ne_nil rightNil] at equality
    exact absurd equality.symm (steps_ne_root rightSegments)
  · rw [rightNil, ofSegments_nil, ofSegments_of_ne_nil leftNil] at equality
    exact absurd equality (steps_ne_root leftSegments)
  · rw [ofSegments_of_ne_nil leftNil, ofSegments_of_ne_nil rightNil] at equality
    exact steps_injective leftSegments rightSegments equality

theorem getLast?_steps_concat (segments : List Text) {last : Text} (isSegment : IsSegment last) :
    (steps (segments ++ [last])).getLast? = last.getLast? := by
  have some := isSegment.1
  rw [steps_append, List.getLast?_append]
  cases last with
  | nil => exact absurd rfl some
  | cons letter rest => simp [List.getLast?_cons]

theorem endsWithSlash_steps {segments : List Text}
    (allSegments : ∀ segment ∈ segments, IsSegment segment) :
    endsWithSlash (steps segments) = false := by
  rcases List.eq_nil_or_concat segments with rfl | ⟨front, last, rfl⟩
  · rfl
  · have isSegment := allSegments last (by simp)
    rw [List.concat_eq_append, endsWithSlash, getLast?_steps_concat front isSegment]
    rw [beq_eq_false_iff_ne]
    intro ends
    exact isSegment.2 (List.mem_of_getLast? ends)

/-! ## Validity -/

theorem pieces_of_free {text : Text} (free : '/' ∉ text) : Text.pieces '/' text = [text] := by
  induction text with
  | nil => rfl
  | cons letter rest inductionHypothesis =>
      have different : letter ≠ '/' := fun same => free (by simp [same])
      have restFree : '/' ∉ rest := fun member => free (by simp [member])
      simp [Text.pieces, different, inductionHypothesis restFree]

theorem pieces_append_slash {text : Text} (free : '/' ∉ text) (rest : Text) :
    Text.pieces '/' (text ++ '/' :: rest) = text :: Text.pieces '/' rest := by
  induction text with
  | nil => simp [Text.pieces]
  | cons letter others inductionHypothesis =>
      have different : letter ≠ '/' := fun same => free (by simp [same])
      have restFree : '/' ∉ others := fun member => free (by simp [member])
      simp [Text.pieces, different, inductionHypothesis restFree]

theorem free_of_mem_pieces (text : Text) : ∀ piece ∈ Text.pieces '/' text, '/' ∉ piece := by
  induction text with
  | nil => simp [Text.pieces]
  | cons letter rest inductionHypothesis =>
      intro piece member
      unfold Text.pieces at member
      split at member
      · rcases List.mem_cons.mp member with rfl | later
        · simp
        · exact inductionHypothesis piece later
      next different =>
        cases found : Text.pieces '/' rest with
        | nil => exact absurd found (Text.pieces_ne_nil '/' rest)
        | cons first others =>
            rw [found] at member inductionHypothesis
            rcases List.mem_cons.mp member with rfl | later
            · have firstFree := inductionHypothesis first (by simp)
              simp [firstFree, Ne.symm different]
            · exact inductionHypothesis piece (by simp [later])

theorem slash_join (pieces : List Text) (some : pieces ≠ []) :
    '/' :: Text.join '/' pieces = steps pieces := by
  induction pieces with
  | nil => exact absurd rfl some
  | cons piece others inductionHypothesis =>
      cases others with
      | nil => simp [Text.join]
      | cons second more => simp [Text.join, ← inductionHypothesis (by simp)]

theorem pieces_tail_steps {segments : List Text} (some : segments ≠ [])
    (free : ∀ segment ∈ segments, '/' ∉ segment) :
    Text.pieces '/' (steps segments).tail = segments := by
  induction segments with
  | nil => exact absurd rfl some
  | cons segment others inductionHypothesis =>
      have segmentFree := free segment (by simp)
      cases others with
      | nil => simp [pieces_of_free segmentFree]
      | cons second more =>
          have later := inductionHypothesis (by simp)
            (fun held member => free held (by simp [member]))
          simp only [steps_cons, List.tail_cons] at later ⊢
          rw [pieces_append_slash segmentFree, later]

theorem isValid_root : IsValid root := by decide

theorem isValid_ofSegments {segments : List Text}
    (allSegments : ∀ segment ∈ segments, IsSegment segment) : IsValid (ofSegments segments) := by
  by_cases empty : segments = []
  · rw [empty]
    exact isValid_root
  · rw [ofSegments_of_ne_nil empty]
    have notNil : steps segments ≠ [] := by
      cases segments with
      | nil => exact absurd rfl empty
      | cons => simp
    have head : (steps segments).head? = some '/' := (steps_cut segments).resolve_left notNil
    have filled : [] ∉ pieces (steps segments).tail := by
      rw [pieces, pieces_tail_steps empty fun segment member => (allSegments segment member).2]
      exact fun member => (allSegments [] member).1 rfl
    rw [IsValid, check, if_neg notNil, if_neg (by simp [head]),
      if_neg (steps_ne_root allSegments), if_neg (by simp [endsWithSlash_steps allSegments]),
      if_neg filled]

/-- A valid path has segments. -/
theorem IsValid.exists_segments {path : Path} (valid : IsValid path) :
    ∃ segments, (∀ segment ∈ segments, IsSegment segment) ∧ path = ofSegments segments := by
  unfold IsValid check at valid
  by_cases empty : path = []
  · simp [empty] at valid
  rw [if_neg empty] at valid
  by_cases absolute : path.head? = some '/'
  swap
  · simp [absolute] at valid
  rw [if_neg (by simp [absolute])] at valid
  by_cases isRoot : path = root
  · exact ⟨[], by simp, isRoot⟩
  rw [if_neg isRoot] at valid
  by_cases trailing : endsWithSlash path = true
  · simp [trailing] at valid
  rw [if_neg trailing] at valid
  by_cases hollow : [] ∈ pieces path.tail
  · simp [hollow] at valid
  refine ⟨pieces path.tail, ?_, ?_⟩
  · intro segment member
    exact ⟨fun same => hollow (same ▸ member), free_of_mem_pieces _ segment member⟩
  · have some : pieces path.tail ≠ [] := Text.pieces_ne_nil '/' path.tail
    rw [ofSegments_of_ne_nil some, ← slash_join _ some, pieces, Text.join_pieces]
    cases path with
    | nil => exact absurd rfl empty
    | cons letter rest =>
        have slash : letter = '/' := by simpa using absolute
        simp [slash]

/-- No valid path but the root ends in a slash. -/
theorem IsValid.endsWithSlash {path : Path} (valid : IsValid path) (notRoot : path ≠ root) :
    endsWithSlash path = false := by
  obtain ⟨segments, allSegments, rfl⟩ := valid.exists_segments
  have some : segments ≠ [] := by
    rintro rfl
    exact notRoot rfl
  rw [ofSegments_of_ne_nil some]
  exact endsWithSlash_steps allSegments

/-- The check accepts the root and the chains of segments, and nothing else. -/
theorem isValid_iff {path : Path} :
    IsValid path ↔
      ∃ segments, (∀ segment ∈ segments, IsSegment segment) ∧ path = ofSegments segments := by
  constructor
  · exact IsValid.exists_segments
  · rintro ⟨segments, allSegments, rfl⟩
    exact isValid_ofSegments allSegments

end Path

end WatchedTree
