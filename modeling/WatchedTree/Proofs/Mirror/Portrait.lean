import WatchedTree.Proofs.Ensemble.Children
import WatchedTree.Proofs.Mirror.Hosting

/-!
# The portrait of one node

A cache of one node has its portrait: the node in all that the action keeps, or nothing where there
is no node. Whatever is kept is watched, and a node that is missing is watched for, so a change that
spoils the portrait fires a watch on the path.
-/
namespace WatchedTree

open WatchedTree.Path

/-- A stat without what it says of the children. -/
def Stat.own (stat : Stat) : Stat := { stat with cversion := 0, numChildren := 0, pzxid := 0 }

/-- A cached node agrees with a remote one in all that the action keeps. What a stat says of the
children is up to date only where their list is kept as well. -/
structure Node.Depicts (kept : Node) (path : Path) (action : Action) (remote : RemoteNode)
    (names : List Text) : Prop where
  path : kept.path = path
  data : kept.data = if action.wantsData then some remote.data else none
  children : kept.children = if action.wantsChildren then some names else none
  own : kept.stat.map Stat.own = if action.wantsStat then some remote.stat.own else none
  stat : action.wantsChildren = true →
    kept.stat = if action.wantsStat then some remote.stat else none

/-! ## Child lists of other paths -/

namespace Ensemble

variable {ensemble : Ensemble} {base path : Path}

/-- The list of children of a path does not name what is no child of it. -/
theorem childName?_eq_none (valid : base.IsValid) (notParent : base ≠ path.parent) :
    childName? base path = none := by
  cases named : childName? base path with
  | none => rfl
  | some name =>
      obtain ⟨isSegment, rfl⟩ := (childName?_eq_some_iff valid).mp named
      exact absurd (parent_child valid isSegment).symm notParent

theorem childNames_of_keys {after : Ensemble} (keys : after.nodes.keys = ensemble.nodes.keys) :
    after.childNames base = ensemble.childNames base := by
  rw [childNames, keys, childNames]

theorem childNames_grown (valid : base.IsValid) (notParent : base ≠ path.parent)
    (absent : ensemble.nodes.get? path = none) (data : Payload) (owner : Int) :
    (ensemble.grown path data owner).childNames base = ensemble.childNames base := by
  have missing : path ∉ (ensemble.nodes.adjust path.parent
      (childListChanged (ensemble.zxid + 1) 1)).keys := by
    rw [Table.keys_adjust]
    exact Table.get?_eq_none_iff.mp absent
  have keys : (ensemble.grown path data owner).nodes.keys = ensemble.nodes.keys ++ [path] := by
    rw [grown, Table.keys_put_of_not_mem _ missing, Table.keys_adjust]
  have nothing : [path].filterMap (childName? base) = [] := by
    rw [List.filterMap_cons_none (childName?_eq_none valid notParent), List.filterMap_nil]
  rw [childNames, keys, List.filterMap_append, nothing, List.append_nil, childNames]

theorem childNames_pruned (valid : base.IsValid) (notParent : base ≠ path.parent) :
    (ensemble.pruned path).childNames base = ensemble.childNames base := by
  have keys : (ensemble.pruned path).nodes.keys =
      ensemble.nodes.keys.filter fun key => key ≠ path := by
    rw [pruned, Table.keys_adjust, Table.erase, Table.keys, Table.keys, List.filter_map]
    rfl
  have nothing := childName?_eq_none valid notParent
  have same : (ensemble.nodes.keys.filter fun key => key ≠ path).filterMap (childName? base) =
      ensemble.nodes.keys.filterMap (childName? base) := by
    rw [List.filterMap_filter]
    apply List.filterMap_congr
    intro key _
    by_cases isPath : key = path
    · simp [isPath, nothing]
    · simp [isPath]
  rw [childNames, keys, same, childNames]

end Ensemble

namespace Cache

/-- The cache shows the node at its base as its action keeps it, or nothing if there is none, and a
change of that will be told. -/
structure Portrays (cache : Cache) (now : Moment) (session : SessionId) (action : Action)
    (remote : Ensemble) : Prop where
  absent : remote.nodes.get? cache.options.basePath = none →
    cache.store.peek now cache.options.basePath = none ∧
      remote.isArmed session .data cache.options.basePath = true
  present : ∀ node, remote.nodes.get? cache.options.basePath = some node →
    ∃ kept, cache.store.peek now cache.options.basePath = some kept ∧
      kept.Depicts cache.options.basePath action node
        (cache.listing remote cache.options.basePath)
  watched : (remote.nodes.get? cache.options.basePath).isSome → ∀ kind,
    Ensemble.watches action false kind = true →
      remote.isArmed session kind cache.options.basePath = true

variable {cache : Cache} {now : Moment} {session : SessionId} {action : Action}
  {remote after : Ensemble} {path : Path}

/-- No watch of the session on the base is among those that are fired. -/
def Unstirred (cache : Cache) (session : SessionId) (remote : Ensemble)
    (fires : List (WatchKind × EventKind × Path)) : Prop :=
  ∀ fire ∈ fires, fire.2.2 = cache.options.basePath →
    remote.isArmed session fire.1 cache.options.basePath = false

/-- Nothing about the base has changed, and its watches are still armed. -/
theorem Portrays.of_same (portrays : cache.Portrays now session action remote)
    (node : after.nodes.get? cache.options.basePath = remote.nodes.get? cache.options.basePath)
    (names : after.childNames cache.options.basePath = remote.childNames cache.options.basePath)
    (armed : ∀ kind, remote.isArmed session kind cache.options.basePath = true →
      after.isArmed session kind cache.options.basePath = true) :
    cache.Portrays now session action after where
  absent := by
    intro missing
    rw [node] at missing
    obtain ⟨unseen, watched⟩ := portrays.absent missing
    exact ⟨unseen, armed .data watched⟩
  present := by
    intro found isFound
    rw [node] at isFound
    obtain ⟨kept, shown, depicts⟩ := portrays.present found isFound
    refine ⟨kept, shown, ?_⟩
    rw [Cache.listing, names, ← Cache.listing]
    exact depicts
  watched := by
    intro isThere kind isWatched
    rw [node] at isThere
    exact armed kind (portrays.watched isThere kind isWatched)

/-- A change of the children does not touch what is kept of the base without them. -/
theorem Portrays.of_children (portrays : cache.Portrays now session action remote)
    (unlisted : action.wantsChildren = false) {zxid added : Int}
    (node : after.nodes.get? cache.options.basePath =
      (remote.nodes.get? cache.options.basePath).map (Ensemble.childListChanged zxid added))
    (armed : ∀ kind, after.isArmed session kind cache.options.basePath =
      remote.isArmed session kind cache.options.basePath) :
    cache.Portrays now session action after where
  absent := by
    intro missing
    rw [node, Option.map_eq_none_iff] at missing
    rw [armed]
    exact portrays.absent missing
  present := by
    intro found isFound
    rw [node, Option.map_eq_some_iff] at isFound
    obtain ⟨old, wasFound, rfl⟩ := isFound
    obtain ⟨kept, shown, depicts⟩ := portrays.present old wasFound
    refine ⟨kept, shown, ?_⟩
    exact
      { path := depicts.path
        data := depicts.data
        children := by
          rw [depicts.children]
          simp [unlisted]
        own := depicts.own
        stat := fun wantsChildren => by
          rw [unlisted] at wantsChildren
          cases wantsChildren }
  watched := by
    intro isThere kind isWatched
    rw [node, Option.isSome_map] at isThere
    rw [armed]
    exact portrays.watched isThere kind isWatched

/-! ## Changes that fire no watch on the base -/

section Unstirred

variable (portrays : cache.Portrays now session action remote)

include portrays

/-- What is watched is not fired. -/
theorem Portrays.not_watched {fires : List (WatchKind × EventKind × Path)}
    (unstirred : cache.Unstirred session remote fires)
    (isThere : (remote.nodes.get? cache.options.basePath).isSome) {watch : WatchKind}
    {kind : EventKind} (fired : (watch, kind, cache.options.basePath) ∈ fires) :
    Ensemble.watches action false watch = false := by
  apply eq_false_of_ne_true
  intro isWatched
  have armed := portrays.watched isThere watch isWatched
  rw [unstirred _ fired rfl] at armed
  cases armed

/-- Where a change of the children goes unnoticed, their list is not kept. -/
theorem Portrays.of_unnoticed_children {fires : List (WatchKind × EventKind × Path)}
    (unstirred : cache.Unstirred session remote fires)
    (fired : (.child, .childrenChanged, cache.options.basePath) ∈ fires) {zxid added : Int}
    (node : after.nodes.get? cache.options.basePath =
      (remote.nodes.get? cache.options.basePath).map (Ensemble.childListChanged zxid added))
    (armed : ∀ kind, after.isArmed session kind cache.options.basePath =
      remote.isArmed session kind cache.options.basePath) :
    cache.Portrays now session action after := by
  cases isThere : remote.nodes.get? cache.options.basePath with
  | none =>
      have missing : after.nodes.get? cache.options.basePath = none := by
        rw [node, isThere, Option.map_none]
      refine ⟨fun _ => ?_, fun found isFound => ?_, fun isFound => ?_⟩
      · rw [armed]
        exact portrays.absent isThere
      · rw [missing] at isFound
        cases isFound
      · rw [missing] at isFound
        cases isFound
  | some old =>
      have unlisted : action.wantsChildren = false := by
        have notWatched := portrays.not_watched unstirred (by simp [isThere]) fired
        simpa [Ensemble.watches] using notWatched
      exact portrays.of_children unlisted node armed

theorem Portrays.grown (base : cache.options.basePath.IsValid)
    (absent : remote.nodes.get? path = none)
    (unstirred : cache.Unstirred session remote (Ensemble.creationFires path)) (data : Payload)
    (owner : Int) : cache.Portrays now session action (remote.grown path data owner) := by
  have node := remote.get?_grown path cache.options.basePath data owner
  by_cases isBase : cache.options.basePath = path
  · -- The watch for a missing base would have been fired.
    rw [← isBase] at absent unstirred
    have armed := (portrays.absent absent).2
    rw [unstirred (.data, .created, _) (by simp [Ensemble.creationFires]) rfl] at armed
    cases armed
  · rw [if_neg isBase] at node
    by_cases isParent : cache.options.basePath = path.parent
    · rw [if_pos isParent] at node
      refine portrays.of_unnoticed_children unstirred ?_ node fun _ => rfl
      rw [isParent]
      simp [Ensemble.creationFires]
    · rw [if_neg isParent] at node
      exact portrays.of_same node (Ensemble.childNames_grown base isParent absent data owner)
        fun _ armed => armed

theorem Portrays.rewritten
    (unstirred : cache.Unstirred session remote [(.data, .dataChanged, path)]) (data : Payload) :
    cache.Portrays now session action (remote.rewritten path data) := by
  have names : (remote.rewritten path data).childNames cache.options.basePath =
      remote.childNames cache.options.basePath :=
    Ensemble.childNames_of_keys Ensemble.keys_rewritten
  have node := remote.get?_rewritten path cache.options.basePath data
  by_cases isBase : cache.options.basePath = path
  · rw [if_pos isBase] at node
    rw [← isBase] at unstirred
    cases isThere : remote.nodes.get? cache.options.basePath with
    | none =>
        rw [isThere, Option.map_none, ← isThere] at node
        exact portrays.of_same node names fun _ armed => armed
    | some old =>
        -- A node whose payload changes unnoticed is kept without payload and stat.
        have notWatched := portrays.not_watched unstirred (by simp [isThere])
          (List.mem_singleton.mpr rfl)
        obtain ⟨noData, noStat⟩ : action.wantsData = false ∧ action.wantsStat = false := by
          simpa [Ensemble.watches] using notWatched
        refine ⟨fun missing => ?_, fun found isFound => ?_, fun _ => ?_⟩
        · rw [node, isThere] at missing
          cases missing
        · obtain ⟨kept, shown, depicts⟩ := portrays.present old isThere
          refine ⟨kept, shown, ?_⟩
          exact
            { path := depicts.path
              data := by
                rw [depicts.data]
                simp [noData]
              children := by
                rw [depicts.children, Cache.listing, ← names, ← Cache.listing]
              own := by
                rw [depicts.own]
                simp [noStat]
              stat := fun wantsChildren => by
                rw [depicts.stat wantsChildren]
                simp [noStat] }
        · exact portrays.watched (by simp [isThere])
  · rw [if_neg isBase] at node
    exact portrays.of_same node names fun _ armed => armed

theorem Portrays.pruned (base : cache.options.basePath.IsValid) (isStored : action.isStored = true)
    (unstirred : cache.Unstirred session remote (Ensemble.deletionFires path)) :
    cache.Portrays now session action (remote.pruned path) := by
  have node := remote.get?_pruned path cache.options.basePath
  by_cases isBase : cache.options.basePath = path
  · rw [if_pos isBase] at node
    rw [← isBase] at unstirred
    cases isThere : remote.nodes.get? cache.options.basePath with
    | none =>
        obtain ⟨unseen, armed⟩ := portrays.absent isThere
        refine ⟨fun _ => ⟨unseen, armed⟩, fun found isFound => ?_, fun isFound => ?_⟩
        · rw [node] at isFound
          cases isFound
        · rw [node] at isFound
          cases isFound
    | some old =>
        -- Whatever is kept of the base, one of its watches tells of the deletion.
        have unwatched : ∀ watch, Ensemble.watches action false watch = false := by
          intro watch
          have fired : (watch, .deleted, cache.options.basePath) ∈
              Ensemble.deletionFires cache.options.basePath := by
            cases watch <;> simp [Ensemble.deletionFires]
          exact portrays.not_watched unstirred (by simp [isThere]) fired
        have noStat : action.wantsStat = false := by
          have noData := unwatched .data
          simp only [Ensemble.watches, Bool.or_eq_false_iff] at noData
          exact noData.2
        have noChildren : action.wantsChildren = false := by
          have noChild := unwatched .child
          simpa [Ensemble.watches] using noChild
        rw [action.not_isStored_of_no_reads noStat noChildren] at isStored
        cases isStored
  · rw [if_neg isBase] at node
    by_cases isParent : cache.options.basePath = path.parent
    · rw [if_pos isParent] at node
      refine portrays.of_unnoticed_children unstirred ?_ node fun _ => rfl
      rw [isParent]
      simp [Ensemble.deletionFires]
    · rw [if_neg isParent] at node
      exact portrays.of_same node (Ensemble.childNames_pruned base isParent)
        fun _ armed => armed

/-- Where no watch on the base is armed there is none to consume. -/
theorem Portrays.fireEach {fires : List (WatchKind × EventKind × Path)}
    (unstirred : cache.Unstirred session remote fires) :
    cache.Portrays now session action (Ensemble.fireEach fires remote).2 := by
  refine portrays.of_same ?_ (Ensemble.childNames_of_keys ?_) ?_
  · rw [Ensemble.nodes_fireEach]
  · rw [Ensemble.nodes_fireEach]
  · intro kind armed
    refine (Ensemble.isArmed_fireEach fires).mpr ⟨?_, armed⟩
    rintro fire member ⟨rfl, isBase⟩
    rw [unstirred fire member isBase.symm] at armed
    cases armed

end Unstirred

end Cache

end WatchedTree
