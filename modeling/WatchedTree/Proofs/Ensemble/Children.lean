import WatchedTree.Proofs.Ensemble.Tree
import WatchedTree.Proofs.Path.Cover
import WatchedTree.Proofs.Text.Sorting

/-!
# Children in the tree of the ensemble

A list of children names exactly the nodes one step below a path, each once. In a rooted tree the
ancestors of a node are nodes, and no change of a path other than the root uproots anything.
-/
namespace WatchedTree

namespace Ensemble

open WatchedTree.Path

variable {ensemble : Ensemble} {path key name : Text}

theorem childName?_eq_some_iff (valid : Path.IsValid path) :
    childName? path key = some name ↔ IsSegment name ∧ key = Path.child path name := by
  obtain ⟨segments, allSegments, rfl⟩ := valid.exists_segments
  have slash := endsWithSlash_ofSegments allSegments
  have isRoot : ofSegments segments = root ↔ segments = [] := by
    constructor
    · intro same
      by_contra someSegments
      rw [same, decide_eq_false someSegments] at slash
      cases slash
    · rintro rfl
      rfl
  have stem : ∀ rest, Path.child (ofSegments segments) rest =
      (if ofSegments segments = root then ofSegments segments
        else ofSegments segments ++ ['/']) ++ rest := by
    intro rest
    rw [Path.child, slash]
    by_cases none : segments = []
    · simp [none]
    · have notRoot : ofSegments segments ≠ root := fun same => none (isRoot.mp same)
      simp [none, notRoot]
  unfold childName?
  simp only [stem, List.isPrefixOf_iff_prefix]
  generalize (if ofSegments segments = root then ofSegments segments
    else ofSegments segments ++ ['/']) = stem
  constructor
  · intro named
    split at named
    next isPrefix =>
      obtain ⟨rest, rfl⟩ := isPrefix
      rw [List.drop_left] at named
      split at named
      · cases named
      · next isName =>
          cases named
          simp only [Bool.or_eq_true, decide_eq_true_eq, not_or] at isName
          exact ⟨isName, rfl⟩
    · cases named
  · rintro ⟨isSegment, rfl⟩
    rw [if_pos (List.prefix_append _ _), List.drop_left, if_neg]
    simp only [Bool.or_eq_true, decide_eq_true_eq, not_or]
    exact isSegment

theorem mem_childNames (valid : Path.IsValid path) :
    name ∈ ensemble.childNames path ↔
      IsSegment name ∧ Path.child path name ∈ ensemble.nodes.keys := by
  rw [childNames, List.mem_reverse, Text.mem_sort, List.mem_filterMap]
  constructor
  · rintro ⟨key, member, named⟩
    obtain ⟨isSegment, rfl⟩ := (childName?_eq_some_iff valid).mp named
    exact ⟨isSegment, member⟩
  · rintro ⟨isSegment, member⟩
    exact ⟨_, member, (childName?_eq_some_iff valid).mpr ⟨isSegment, rfl⟩⟩

theorem nodup_childNames (distinct : ensemble.nodes.Distinct) (valid : Path.IsValid path) :
    (ensemble.childNames path).Nodup := by
  rw [childNames, List.nodup_reverse, (Text.sort_perm _).nodup_iff]
  apply List.Nodup.filterMap _ distinct
  intro key other name named otherNamed
  have first := (childName?_eq_some_iff valid).mp named
  have second := (childName?_eq_some_iff valid).mp otherNamed
  rw [first.2, second.2]

/-! ## Rooted trees -/

/-- Every node but the root has its parent. -/
def IsRooted (ensemble : Ensemble) : Prop :=
  ∀ path ∈ ensemble.nodes.keys, path ≠ root → Path.parent path ∈ ensemble.nodes.keys

theorem IsRooted.mem_of_covers (rooted : ensemble.IsRooted) {base : Path}
    (baseValid : base.IsValid) (valid : Path.IsValid path) (covers : Covers base path)
    (member : path ∈ ensemble.nodes.keys) : base ∈ ensemble.nodes.keys := by
  revert member
  apply covers_induction (motive := fun path =>
    path ∈ ensemble.nodes.keys → base ∈ ensemble.nodes.keys) baseValid
  · exact id
  · intro upper segment upperValid isSegment _ inductionHypothesis member
    have above := rooted _ member (child_ne_root upperValid isSegment)
    rw [parent_child upperValid isSegment] at above
    exact inductionHypothesis above
  · exact valid
  · exact covers

theorem IsRooted.grown (rooted : ensemble.IsRooted)
    (parent : Path.parent path ∈ ensemble.nodes.keys) (data : Payload) (owner : Int) :
    (ensemble.grown path data owner).IsRooted := by
  intro other member notRoot
  rw [mem_keys_grown] at member ⊢
  rcases member with rfl | old
  · exact Or.inr parent
  · exact Or.inr (rooted other old notRoot)

theorem IsRooted.rewritten (rooted : ensemble.IsRooted) (data : Payload) :
    (ensemble.rewritten path data).IsRooted := by
  intro other member notRoot
  rw [keys_rewritten] at member ⊢
  exact rooted other member notRoot

theorem IsRooted.pruned (rooted : ensemble.IsRooted) (sound : ensemble.Sound)
    (valid : Path.IsValid path)
    (bare : ∀ key ∈ ensemble.nodes.keys, isBelow path key = false) :
    (ensemble.pruned path).IsRooted := by
  intro other member notRoot
  rw [mem_keys_pruned] at member ⊢
  obtain ⟨_, old⟩ := member
  refine ⟨?_, rooted other old notRoot⟩
  intro isParent
  obtain ⟨node, found⟩ := Table.mem_keys_iff.mp old
  have below := (isBelow_iff_covers_parent valid (sound.valid other node found)).mpr
    ⟨notRoot, Or.inl isParent⟩
  rw [bare other old] at below
  cases below

end Ensemble

end WatchedTree
