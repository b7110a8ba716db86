import WatchedTree.Proofs.Ensemble.Children
import WatchedTree.Proofs.Ensemble.Time

/-!
# Offspring

The nodes one step below a path are what its stat counts and what a list of children names. Every
change keeps the count, as long as paths are valid and the root stays.
-/
namespace WatchedTree

namespace Ensemble

open WatchedTree.Path

variable {ensemble before after : Ensemble} {path other key : Path} {data : Payload} {owner : Int}
  {names : List Text} {id : SessionId}

/-! ## Nodes below a path -/

/-- The nodes one step below a path. -/
def offspring (ensemble : Ensemble) (path : Path) : List Path :=
  ensemble.nodes.keys.filter fun key => key ≠ root ∧ key.parent = path

/-- A node has a name below a path exactly if it stands one step below it. -/
theorem map_child_childName? (valid : path.IsValid) (keyValid : key.IsValid) :
    (childName? path key).map path.child =
      if key ≠ root ∧ key.parent = path then some key else none := by
  by_cases isChild : key ≠ root ∧ key.parent = path
  · obtain ⟨notRoot, rfl⟩ := isChild
    have named : childName? key.parent key = some key.name :=
      (childName?_eq_some_iff valid).mpr
        ⟨isSegment_name keyValid notRoot, (child_parent_name keyValid notRoot).symm⟩
    rw [if_pos ⟨notRoot, rfl⟩, named, Option.map_some, child_parent_name keyValid notRoot]
  · rw [if_neg isChild, Option.map_eq_none_iff]
    by_contra named
    obtain ⟨name, isName⟩ := Option.ne_none_iff_exists'.mp named
    obtain ⟨isSegment, rfl⟩ := (childName?_eq_some_iff valid).mp isName
    exact isChild ⟨child_ne_root valid isSegment, parent_child valid isSegment⟩

theorem map_child_filterMap (valid : path.IsValid) {keys : List Path}
    (allValid : ∀ key ∈ keys, key.IsValid) :
    (keys.filterMap (childName? path)).map path.child =
      keys.filter fun key => key ≠ root ∧ key.parent = path := by
  rw [List.map_filterMap, ← List.filterMap_eq_filter]
  apply List.filterMap_congr
  intro key member
  rw [map_child_childName? valid (allValid key member), Option.guard]
  simp only [decide_eq_true_eq]

/-- A list of children names the offspring. -/
theorem childNames_perm_offspring (sound : ensemble.Sound) (valid : path.IsValid) :
    ((ensemble.childNames path).map path.child).Perm (ensemble.offspring path) := by
  rw [offspring, ← map_child_filterMap valid fun _ => sound.mem_valid, childNames]
  exact ((List.reverse_perm _).trans (Text.sort_perm _)).map _

/-! ## Offspring under changes -/

theorem keys_grown (fresh : path ∉ ensemble.nodes.keys) :
    (ensemble.grown path data owner).nodes.keys = ensemble.nodes.keys ++ [path] := by
  rw [grown, Table.keys_put_of_not_mem _ (by rwa [Table.keys_adjust]), Table.keys_adjust]

theorem keys_pruned (ensemble : Ensemble) (path : Path) :
    (ensemble.pruned path).nodes.keys = ensemble.nodes.keys.filter (· ≠ path) := by
  rw [pruned, Table.keys_adjust, Table.keys_erase]

theorem offspring_grown (fresh : path ∉ ensemble.nodes.keys) (notRoot : path ≠ root) :
    (ensemble.grown path data owner).offspring other =
      ensemble.offspring other ++ if path.parent = other then [path] else [] := by
  rw [offspring, keys_grown fresh, List.filter_append]
  by_cases isParent : path.parent = other <;> simp [offspring, notRoot, isParent]

theorem offspring_rewritten : (ensemble.rewritten path data).offspring other =
    ensemble.offspring other := by
  rw [offspring, keys_rewritten]
  rfl

theorem offspring_pruned (ensemble : Ensemble) (path other : Path) :
    (ensemble.pruned path).offspring other = (ensemble.offspring other).filter (· ≠ path) := by
  rw [offspring, keys_pruned, offspring, List.filter_filter, List.filter_filter]
  exact List.filter_congr fun key _ => Bool.and_comm _ _

theorem length_offspring_pruned (distinct : ensemble.nodes.Distinct)
    (member : path ∈ ensemble.nodes.keys) (notRoot : path ≠ root) (other : Path) :
    ((ensemble.pruned path).offspring other).length + (if path.parent = other then 1 else 0) =
      (ensemble.offspring other).length := by
  have noDuplicates : (ensemble.offspring other).Nodup := List.Nodup.filter _ distinct
  have isMember : path ∈ ensemble.offspring other ↔ path.parent = other := by
    simp [offspring, member, notRoot]
  rw [offspring_pruned]
  by_cases isParent : path.parent = other
  · have erased : (ensemble.offspring other).filter (· ≠ path) =
        (ensemble.offspring other).erase path := by
      rw [noDuplicates.erase_eq_filter]
      exact List.filter_congr fun key _ => Bool.eq_iff_iff.mpr (by simp)
    rw [if_pos isParent, erased]
    exact List.length_erase_add_one (isMember.mpr isParent)
  · rw [if_neg isParent, Nat.add_zero, List.filter_eq_self.mpr]
    intro key isKey
    exact decide_eq_true fun same => isParent (isMember.mp (same ▸ isKey))

/-! ## Trees that count -/

/-- Every stat counts the nodes one step below. -/
def IsCounted (ensemble : Ensemble) : Prop :=
  ∀ path node, ensemble.nodes.get? path = some node →
    node.stat.numChildren = (ensemble.offspring path).length

/-- A tree in good order: closed under parents, and with stats that count the offspring. -/
structure IsTidy (ensemble : Ensemble) : Prop where
  sound : ensemble.Sound
  rooted : ensemble.IsRooted
  counted : ensemble.IsCounted

theorem IsTidy.of_sameTree (tidy : before.IsTidy) (same : after.SameTree before) :
    after.IsTidy where
  sound := tidy.sound.of_eq same.1 same.2
  rooted := by
    rw [IsRooted, same.1]
    exact tidy.rooted
  counted := by
    intro path node found
    rw [offspring, same.1]
    exact tidy.counted path node (same.1 ▸ found)

theorem IsCounted.grown (counted : ensemble.IsCounted) (rooted : ensemble.IsRooted)
    (fresh : path ∉ ensemble.nodes.keys) (hasParent : path.parent ∈ ensemble.nodes.keys) :
    (ensemble.grown path data owner).IsCounted := by
  have notRoot : path ≠ root := by
    rintro rfl
    exact fresh hasParent
  intro key node found
  rw [get?_grown] at found
  rw [offspring_grown fresh notRoot, List.length_append]
  by_cases isNew : key = path
  · subst isNew
    have childless : ensemble.offspring key = [] := by
      rw [offspring, List.filter_eq_nil_iff]
      intro other member isChild
      obtain ⟨isOther, isParent⟩ := of_decide_eq_true isChild
      exact fresh (isParent ▸ rooted other member isOther)
    have notOwn : key.parent ≠ key := fun same => fresh (same ▸ hasParent)
    rw [if_pos rfl] at found
    cases found
    rw [childless, if_neg notOwn]
    rfl
  · rw [if_neg isNew] at found
    by_cases isParent : key = path.parent
    · rw [if_pos isParent, Option.map_eq_some_iff] at found
      obtain ⟨old, present, rfl⟩ := found
      have before := counted key old present
      rw [if_pos isParent.symm, List.length_singleton]
      change old.stat.numChildren + 1 = _
      omega
    · rw [if_neg isParent] at found
      rw [if_neg (Ne.symm isParent), List.length_nil]
      exact counted key node found

theorem IsCounted.rewritten (counted : ensemble.IsCounted) :
    (ensemble.rewritten path data).IsCounted := by
  intro key node found
  rw [get?_rewritten] at found
  rw [offspring_rewritten]
  by_cases same : key = path
  · rw [if_pos same, Option.map_eq_some_iff] at found
    obtain ⟨old, present, rfl⟩ := found
    exact counted key old present
  · rw [if_neg same] at found
    exact counted key node found

theorem IsCounted.pruned (counted : ensemble.IsCounted) (distinct : ensemble.nodes.Distinct)
    (member : path ∈ ensemble.nodes.keys) (notRoot : path ≠ root) :
    (ensemble.pruned path).IsCounted := by
  intro key node found
  have length := length_offspring_pruned distinct member notRoot key
  rw [get?_pruned] at found
  by_cases gone : key = path
  · rw [if_pos gone] at found
    cases found
  · rw [if_neg gone] at found
    by_cases isParent : key = path.parent
    · rw [if_pos isParent, Option.map_eq_some_iff] at found
      obtain ⟨old, present, rfl⟩ := found
      rw [if_pos isParent.symm] at length
      have before := counted key old present
      change old.stat.numChildren + -1 = _
      omega
    · rw [if_neg isParent] at found
      rw [if_neg (Ne.symm isParent)] at length
      have before := counted key node found
      omega

/-! ## Runs -/

/-- Nodes are created at valid paths, the root is not deleted, and no payload is replaced behind the
back of the watches. -/
def Request.IsOrderly : Request → Prop
  | .create path _ _ => path.IsValid
  | .delete path => path ≠ root
  | .replaceSilently _ _ => False
  | _ => True

theorem IsTidy.create (tidy : ensemble.IsTidy) (valid : path.IsValid) :
    (ensemble.create path data owner).2.IsTidy := by
  rcases ensemble.create_cases path data owner with ⟨fault, refused⟩ | ⟨absent, hasParent, done⟩
  · rw [refused]
    exact ⟨tidy.sound.nextTransaction.sound, tidy.rooted, tidy.counted⟩
  · have fresh := Table.get?_eq_none_iff.mp absent
    have isNode := Table.contains_iff.mp hasParent
    have grown : (ensemble.grown path data owner).IsTidy :=
      ⟨(tidy.sound.grown valid data owner).sound, tidy.rooted.grown isNode data owner,
        tidy.counted.grown tidy.rooted fresh isNode⟩
    rw [done]
    exact grown.of_sameTree ⟨nodes_fireEach _ _, zxid_fireEach _ _⟩

theorem IsTidy.setData (tidy : ensemble.IsTidy) : (ensemble.setData path data).2.IsTidy := by
  rcases ensemble.setData_cases path data with ⟨fault, refused⟩ | ⟨_, done⟩
  · rw [refused]
    exact ⟨tidy.sound.nextTransaction.sound, tidy.rooted, tidy.counted⟩
  · have rewritten : (ensemble.rewritten path data).IsTidy :=
      ⟨(tidy.sound.rewritten path data).sound, tidy.rooted.rewritten data, tidy.counted.rewritten⟩
    rw [done]
    exact rewritten.of_sameTree ⟨nodes_fireEach _ _, zxid_fireEach _ _⟩

theorem IsTidy.delete (tidy : ensemble.IsTidy) (notRoot : path ≠ root) :
    (ensemble.delete path).2.IsTidy := by
  rcases ensemble.delete_cases path with ⟨fault, refused⟩ | ⟨bare, present, done⟩
  · rw [refused]
    exact ⟨tidy.sound.nextTransaction.sound, tidy.rooted, tidy.counted⟩
  · have member := Table.contains_iff.mp present
    have valid := tidy.sound.mem_valid member
    have leaf : ∀ key ∈ ensemble.nodes.keys, isBelow path key = false := by
      intro key isKey
      rw [← isPrefixOf_append_slash notRoot valid]
      exact bare key isKey
    have pruned : (ensemble.pruned path).IsTidy :=
      ⟨(tidy.sound.pruned path).sound, tidy.rooted.pruned tidy.sound valid leaf,
        tidy.counted.pruned tidy.sound.distinct member notRoot⟩
    rw [done]
    exact pruned.of_sameTree ⟨nodes_fireEach _ _, zxid_fireEach _ _⟩

theorem IsTidy.serve (tidy : ensemble.IsTidy) {request : Request} (orderly : request.IsOrderly) :
    (ensemble.serve request).IsTidy := by
  cases request with
  | create path data owner => exact tidy.create orderly
  | setData path data => exact tidy.setData
  | delete path => exact tidy.delete orderly
  | replaceSilently path data => exact absurd orderly id
  | readStat id path => exact tidy.of_sameTree (sameTree_readStat _ id path)
  | readData id path => exact tidy.of_sameTree (sameTree_readData _ id path)
  | readChildren id path => exact tidy.of_sameTree (sameTree_readChildren _ id path)
  | openSession handler =>
      apply tidy.of_sameTree
      rw [Ensemble.serve, openSession]
      split <;> exact ⟨rfl, rfl⟩
  | failReads | healReads | refuseSessions | closeSession | expireSession | hold | release =>
      exact tidy.of_sameTree ⟨rfl, rfl⟩

theorem isTidy_initial : ({} : Ensemble).IsTidy := by
  refine ⟨⟨List.nodup_singleton root, ?_, ?_⟩, ?_, ?_⟩
  · intro path node found
    obtain ⟨rfl, _⟩ := eq_of_get?_initial found
    exact isValid_root
  · intro path node found
    obtain ⟨_, rfl⟩ := eq_of_get?_initial found
    exact ⟨Int.le_refl _, Int.le_refl _⟩
  · intro path member notRoot
    exact absurd (List.mem_singleton.mp member) notRoot
  · intro path node found
    obtain ⟨rfl, rfl⟩ := eq_of_get?_initial found
    rfl

theorem isTidy_serveAll {requests : List Request}
    (orderly : ∀ request ∈ requests, request.IsOrderly) :
    (({} : Ensemble).serveAll requests).IsTidy := by
  induction requests using List.reverseRecOn with
  | nil => exact isTidy_initial
  | append_singleton others request inductionHypothesis =>
      rw [serveAll_append]
      exact IsTidy.serve
        (inductionHypothesis fun other member => orderly other (List.mem_append_left _ member))
        (orderly request (List.mem_append_right _ List.mem_cons_self))

theorem mem_keys_of_readChildren (answered : (ensemble.readChildren id path).1 = .ok names) :
    path ∈ ensemble.nodes.keys := by
  unfold readChildren at answered
  simp only at answered
  split at answered
  · cases answered
  · split at answered
    next present => exact Table.contains_iff.mp present
    · cases answered

/-- A list of children names each child once. -/
theorem IsTidy.lists (tidy : ensemble.IsTidy)
    (answered : (ensemble.readChildren id path).1 = .ok names) :
    names.Nodup ∧ (names.map path.child).Perm (ensemble.offspring path) := by
  have valid := tidy.sound.mem_valid (mem_keys_of_readChildren answered)
  rw [childNames_of_readChildren answered]
  exact ⟨nodup_childNames tidy.sound.distinct valid, childNames_perm_offspring tidy.sound valid⟩

end Ensemble

end WatchedTree
