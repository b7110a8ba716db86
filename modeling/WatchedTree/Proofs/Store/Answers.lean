import WatchedTree.Proofs.Store.Entries

/-!
# The answers of a store, as those of a plain map

What a call answers, and what a reader is told, depends on the entries only through the live paths
and their nodes. A plain map of these gives the same answers, with no thought of ages, of stamps
and of a bound; refusals are left to a gate, which counts epochs and keeps tombstones but no node.
-/
namespace WatchedTree

/-- What a call answers. -/
inductive StoreReply where
  | nothing
  | epoch (epoch : Epoch)
  | flag (flag : Bool)
  /-- The outcome of an offer, and all that is told while the entry is held. -/
  | offer (outcome : Upsert) (notices : List (Upsert × Node))
  | node (node : Option Node)
  /-- The nodes removed, in the order of their notifications. -/
  | removed (nodes : List Node)
deriving DecidableEq

/-! ## Notifications -/

namespace Store

/-- An offer as a procedure that tells of the node it stores while the entry is still held, before
the bound on entries is enforced. -/
def upsertTelling {Told : Type} (tell : Told → Upsert → Node → Told) (store : Store) (now : Moment)
    (node : Node) (epoch : Epoch) (told : Told) : Told × Upsert × Store :=
  if store.deletedSince node.path epoch then (told, .deleted, store)
  else match store.entries.get? node.path with
    | none =>
      let (stamp, stamped) := store.restamp none node.path
      let entry : Entry := { node, written := now, accessed := now, stamp }
      let held := { stamped with entries := stamped.entries.put node.path entry }
      (tell told .inserted entry.node, .inserted, held.enforceCapacity node.path)
    | some old =>
      let expired := store.isExpired now old
      if !expired && node.isOlderThan old.node then (told, .stale, store)
      else
        let (stamp, stamped) := store.restamp (some old.stamp) node.path
        let entry : Entry := { node, written := now, accessed := now, stamp }
        let held := { stamped with entries := stamped.entries.put node.path entry }
        let outcome := if expired then .inserted else .replaced old.node
        (tell told outcome node, outcome, held.enforceCapacity node.path)

/-- What is told is the notice of the outcome. -/
theorem upsertTelling_eq {Told : Type} (tell : Told → Upsert → Node → Told) (store : Store)
    (now : Moment) (node : Node) (epoch : Epoch) (told : Told) :
    store.upsertTelling tell now node epoch told =
      ((((store.upsert now node epoch).1.notice node).toList.foldl
          fun told notice => tell told notice.1 notice.2) told,
        store.upsert now node epoch) := by
  rw [upsertTelling, upsert]
  by_cases removed : store.deletedSince node.path epoch = true
  · rw [if_pos removed, if_pos removed]
    rfl
  · rw [if_neg removed, if_neg removed]
    cases store.entries.get? node.path with
    | none => rfl
    | some entry =>
        by_cases expired : store.isExpired now entry = true
        · simp only [expired]
          rfl
        · rw [Bool.not_eq_true] at expired
          by_cases older : node.isOlderThan entry.node = true
          · simp only [expired, older]
            rfl
          · simp only [expired, older]
            rfl

end Store

/-! ## Gates -/

namespace GuardedStore

/-- The answer to a call. -/
def reply (guarded : GuardedStore) : StoreCall → StoreReply
  | .begin name => .epoch (guarded.begin name).1
  | .finish name => .flag (guarded.finish name).1
  | .upsert node choice =>
    let (notices, outcome, _) := guarded.store.upsertTelling
      (fun notices outcome node => notices ++ [(outcome, node)]) guarded.now node
      (guarded.epochOf choice) []
    .offer outcome notices
  | .get path => .node (guarded.store.get guarded.now path).1
  | .update path change => .flag (guarded.store.update guarded.now path change).1
  | .remove path => .node (guarded.store.remove guarded.now path).1
  | .removeSubtree path => .removed (guarded.store.removeSubtree guarded.now path).1
  | .clear | .advance _ => .nothing

/-- What becomes of a gate, which hears of a call only what concerns fetches, removals and time. -/
def hear (gate : GuardedStore) : StoreCall → GuardedStore
  | .begin name => (gate.begin name).2
  | .finish name => (gate.finish name).2
  | .removeSubtree path => { gate with store := (gate.store.removeSubtree gate.now path).2 }
  | .advance span => gate.advance span
  | .upsert _ _ | .get _ | .update _ _ | .remove _ | .clear => gate

/-- Both refuse the same offers, and their clocks show the same. -/
structure IsGuardedBy (guarded gate : GuardedStore) : Prop where
  fence : guarded.store.fence = gate.store.fence
  guards : guarded.guards = gate.guards
  now : guarded.now = gate.now

namespace IsGuardedBy

variable {guarded gate : GuardedStore}

theorem epochOf (isGuarded : guarded.IsGuardedBy gate) (choice : EpochChoice) :
    guarded.epochOf choice = gate.epochOf choice := by
  have present : guarded.store.epoch = gate.store.epoch := congrArg Fence.epoch isGuarded.fence
  cases choice with
  | present => exact present
  | number epoch => rfl
  | guard name => rw [GuardedStore.epochOf, GuardedStore.epochOf, isGuarded.guards, present]

theorem deletedSince (isGuarded : guarded.IsGuardedBy gate) (path : Path) (epoch : Epoch) :
    guarded.store.deletedSince path epoch = gate.store.deletedSince path epoch := by
  have tombstones : guarded.store.tombstones = gate.store.tombstones :=
    congrArg Fence.tombstones isGuarded.fence
  rw [Store.deletedSince, Store.deletedSince, tombstones]

/-- Fetches begin under the same epoch, and end in the same way. -/
theorem begin (isGuarded : guarded.IsGuardedBy gate) (name : Text) :
    (guarded.begin name).1 = (gate.begin name).1 ∧
      (guarded.begin name).2.IsGuardedBy (gate.begin name).2 := by
  obtain ⟨⟨_, _, _, _, _, _, _⟩, _, guards⟩ := guarded
  obtain ⟨⟨_, _, _, _, _, _, _⟩, _, _⟩ := gate
  obtain ⟨fence, rfl, rfl⟩ := isGuarded
  cases fence
  refine ⟨rfl, ?_⟩
  unfold GuardedStore.begin
  cases guards.get? name with
  | none => exact ⟨rfl, rfl, rfl⟩
  | some ended => exact ⟨rfl, rfl, rfl⟩

theorem finish (isGuarded : guarded.IsGuardedBy gate) (name : Text) :
    (guarded.finish name).1 = (gate.finish name).1 ∧
      (guarded.finish name).2.IsGuardedBy (gate.finish name).2 := by
  obtain ⟨⟨_, _, _, _, _, _, _⟩, _, guards⟩ := guarded
  obtain ⟨⟨_, _, _, _, _, _, _⟩, _, _⟩ := gate
  obtain ⟨fence, rfl, rfl⟩ := isGuarded
  cases fence
  unfold GuardedStore.finish
  cases guards.get? name with
  | none => exact ⟨rfl, rfl, rfl, rfl⟩
  | some ended => exact ⟨rfl, rfl, rfl, rfl⟩

theorem removeSubtree (isGuarded : guarded.IsGuardedBy gate) (path : Path) :
    (guarded.obey (.removeSubtree path)).IsGuardedBy (gate.hear (.removeSubtree path)) := by
  have epoch : guarded.store.epoch = gate.store.epoch := congrArg Fence.epoch isGuarded.fence
  have tombstones : guarded.store.tombstones = gate.store.tombstones :=
    congrArg Fence.tombstones isGuarded.fence
  refine ⟨?_, isGuarded.guards, isGuarded.now⟩
  change (guarded.store.removeSubtree _ path).2.fence = (gate.store.removeSubtree _ path).2.fence
  rw [Store.fence_removeSubtree, Store.fence_removeSubtree, isGuarded.fence, epoch, tombstones]

theorem obey (isGuarded : guarded.IsGuardedBy gate) (call : StoreCall) :
    (guarded.obey call).IsGuardedBy (gate.hear call) := by
  cases call with
  | begin name => exact (isGuarded.begin name).2
  | finish name => exact (isGuarded.finish name).2
  | removeSubtree path => exact isGuarded.removeSubtree path
  | advance span =>
      exact ⟨isGuarded.fence, isGuarded.guards, congrArg (· + span) isGuarded.now⟩
  | upsert node choice =>
      exact ⟨(Store.fence_upsert _ _ _ _).trans isGuarded.fence, isGuarded.guards, isGuarded.now⟩
  | get path =>
      exact ⟨(Store.fence_get _ _ _).trans isGuarded.fence, isGuarded.guards, isGuarded.now⟩
  | update path change =>
      exact ⟨(Store.fence_update _ _ _ _).trans isGuarded.fence, isGuarded.guards, isGuarded.now⟩
  | remove path =>
      exact ⟨(Store.fence_remove _ _ _).trans isGuarded.fence, isGuarded.guards, isGuarded.now⟩
  | clear => exact ⟨isGuarded.fence, isGuarded.guards, isGuarded.now⟩

end IsGuardedBy

end GuardedStore

/-! ## Plain maps -/

/-- Paths and their nodes; nothing in it expires, and no bound holds. -/
abbrev NodeMap := Table Path Node

namespace NodeMap

variable {nodes : NodeMap} {path : Path} {node : Node}

/-- What becomes of a node that is offered. -/
def offer (nodes : NodeMap) (refused : Bool) (node : Node) : Upsert :=
  if refused then .deleted
  else match nodes.get? node.path with
    | none => .inserted
    | some old => if node.isOlderThan old then .stale else .replaced old

/-- What a change makes of the node at a path, if anything. -/
def changed (nodes : NodeMap) (path : Path) (change : Node → Option Node) : Option Node :=
  (nodes.get? path).bind change

/-- The paths at a path and below it, each before its ancestors. -/
def doomed (nodes : NodeMap) (path : Path) : List Path :=
  sortBy Store.deeperFirst (nodes.keys.filter fun key => Path.Covers path key)

def childrenOf (nodes : NodeMap) (parent : Path) : List (Text × Node) :=
  let children := List.filter
    (fun pair => Path.isBelow parent pair.1 && Path.parent pair.1 = parent) nodes
  sortByKey (children.map fun pair => (Path.name pair.1, pair.2))

/-- The outcome of an offer under an epoch, at a gate. -/
def offerAt (nodes : NodeMap) (gate : GuardedStore) (node : Node) (choice : EpochChoice) : Upsert :=
  nodes.offer (gate.store.deletedSince node.path (gate.epochOf choice)) node

/-- The answer of a plain map to a call, with the gate that refuses offers for it. A node that is
taken is told of once, with what it replaces, and one that is turned down is not. -/
def reply (nodes : NodeMap) (gate : GuardedStore) : StoreCall → StoreReply
  | .begin name => .epoch (gate.begin name).1
  | .finish name => .flag (gate.finish name).1
  | .upsert node choice =>
    match nodes.offerAt gate node choice with
    | .inserted => .offer .inserted [(.inserted, node)]
    | .replaced old => .offer (.replaced old) [(.replaced old, node)]
    | .stale => .offer .stale []
    | .deleted => .offer .deleted []
  | .get path | .remove path => .node (nodes.get? path)
  | .update path change => .flag (nodes.changed path change).isSome
  | .removeSubtree path => .removed ((nodes.doomed path).filterMap nodes.get?)
  | .clear | .advance _ => .nothing

end NodeMap

/-! ## Stores that show a plain map -/

/-- Pairs are sorted in one way only if no key stands twice. -/
theorem sortByKey_congr {Value : Type} {pairs others : Table Text Value}
    (distinct : pairs.Distinct) (same : pairs.Perm others) :
    sortByKey pairs = sortByKey others := by
  refine isStrict_byKey.sortBy_congr same ?_
  rintro ⟨left, value⟩ inLeft ⟨right, other⟩ inRight notRight notLeft
  obtain rfl : left = right := Text.eq_of_not_before notRight notLeft
  have found := Table.get?_of_mem distinct inLeft
  rw [Table.get?_of_mem distinct inRight] at found
  cases found
  rfl

namespace Store

theorem deeperFirst_eq_true_iff {left right : Path} :
    deeperFirst left right = true ↔ Text.byteLength right < Text.byteLength left ∨
      Text.byteLength left = Text.byteLength right ∧ Text.before left right = true := by
  simp [deeperFirst]

theorem deeperFirst_eq_false_iff {left right : Path} :
    deeperFirst left right = false ↔ Text.byteLength left ≤ Text.byteLength right ∧
      (Text.byteLength left = Text.byteLength right → Text.before left right = false) := by
  simp [deeperFirst]

theorem isStrict_deeperFirst : IsStrict deeperFirst where
  asymm := by
    intro left right inOrder
    rw [deeperFirst_eq_false_iff]
    rcases deeperFirst_eq_true_iff.mp inOrder with longer | ⟨same, first⟩
    · exact ⟨Nat.le_of_lt longer, fun same => absurd same (Nat.ne_of_lt longer)⟩
    · exact ⟨Nat.le_of_eq same.symm, fun _ => Text.not_before_of_before first⟩
  trans := by
    intro first second third left right
    rw [deeperFirst_eq_false_iff] at left right ⊢
    refine ⟨Nat.le_trans right.1 left.1, fun same => ?_⟩
    have tie : Text.byteLength second = Text.byteLength first := by omega
    exact Text.not_before_trans (left.2 tie) (right.2 (by omega))

theorem eq_of_not_deeperFirst {left right : Path} (notRight : deeperFirst right left = false)
    (notLeft : deeperFirst left right = false) : left = right := by
  rw [deeperFirst_eq_false_iff] at notRight notLeft
  have same := Nat.le_antisymm notLeft.1 notRight.1
  exact Text.eq_of_not_before (notRight.2 same.symm) (notLeft.2 same)

variable {store : Store} {now : Moment} {nodes : NodeMap}

/-- The live paths of the store and their nodes are those of the map. -/
structure Shows (store : Store) (now : Moment) (nodes : NodeMap) : Prop where
  distinct : store.entries.Distinct
  mapDistinct : nodes.Distinct
  peek : ∀ path, store.peek now path = nodes.get? path

/-- Every reader is told what the map says. The order of the paths below a base is not fixed, and
neither is that of two children with one name. -/
structure ReadsAs (store : Store) (now : Moment) (nodes : NodeMap) : Prop where
  peek : ∀ path, store.peek now path = nodes.get? path
  contains : ∀ path, store.contains now path = nodes.contains path
  size : store.size now = nodes.length
  isEmpty : store.isEmpty now = nodes.isEmpty
  sorted : store.sorted now = sortByKey nodes
  pathsBelow : ∀ base,
    (store.pathsBelow now base).Perm (nodes.keys.filter fun path => Path.isBelow base path)
  childrenOf : ∀ parent, (store.childrenOf now parent).Perm (nodes.childrenOf parent)
  childNames : ∀ parent,
    (store.childrenOf now parent).map Prod.fst = (nodes.childrenOf parent).map Prod.fst

namespace Shows

theorem perm (shows : store.Shows now nodes) : (store.liveNodes now).Perm nodes := by
  have live := distinct_liveNodes shows.distinct now
  refine (List.perm_ext_iff_of_nodup live.of_map shows.mapDistinct.of_map).mpr ?_
  rintro ⟨path, node⟩
  rw [mem_liveNodes_iff shows.distinct, shows.peek, Table.mem_iff_get? shows.mapDistinct]

theorem size (shows : store.Shows now nodes) : store.size now = nodes.length := by
  rw [← shows.perm.length_eq, Store.size]
  by_cases expires : store.policy.expires = true
  · rw [if_pos expires]
  · rw [if_neg expires, liveNodes, List.length_map, List.filter_eq_self.mpr]
    intro pair _
    rw [EvictionPolicy.expires, Bool.or_eq_true, not_or, Option.not_isSome_iff_eq_none,
      Option.not_isSome_iff_eq_none] at expires
    rw [isExpired, expires.1, expires.2]
    rfl

theorem childrenOf (shows : store.Shows now nodes) (parent : Path) :
    (store.childrenOf now parent).Perm (nodes.childrenOf parent) ∧
      (store.childrenOf now parent).map Prod.fst = (nodes.childrenOf parent).map Prod.fst := by
  have children := (shows.perm.filter fun pair =>
    Path.isBelow parent pair.1 && Path.parent pair.1 = parent).map
      fun pair => (Path.name pair.1, pair.2)
  constructor
  · exact (sortBy_perm _ _).trans (children.trans (sortBy_perm _ _).symm)
  · rw [Store.childrenOf, NodeMap.childrenOf, map_fst_sortByKey, map_fst_sortByKey]
    exact Text.sort_congr (children.map Prod.fst)

theorem readsAs (shows : store.Shows now nodes) : store.ReadsAs now nodes where
  peek := shows.peek
  contains := fun path => congrArg Option.isSome (shows.peek path)
  size := shows.size
  isEmpty := by
    rw [Store.isEmpty, shows.size]
    cases nodes <;> rfl
  sorted := sortByKey_congr (distinct_liveNodes shows.distinct now) shows.perm
  pathsBelow := fun _ => (shows.perm.map Prod.fst).filter _
  childrenOf := fun parent => (shows.childrenOf parent).1
  childNames := fun parent => (shows.childrenOf parent).2

/-! ## Calls -/

theorem get_fst (shows : store.Shows now nodes) (path : Path) :
    (store.get now path).1 = nodes.get? path := by
  rw [← shows.peek path, Store.get, Store.peek, live?]
  cases store.entries.get? path with
  | none => rfl
  | some entry =>
      by_cases expired : store.isExpired now entry = true
      · simp [expired]
      · simp [expired]

theorem upsert_fst (shows : store.Shows now nodes) (node : Node) (epoch : Epoch) :
    (store.upsert now node epoch).1 =
      nodes.offer (store.deletedSince node.path epoch) node := by
  have answers := answers_upsert store now node epoch
  rw [NodeMap.offer, ← shows.peek]
  generalize store.upsert now node epoch = answer at answers ⊢
  cases answers with
  | deleted removed => rw [if_pos removed]
  | stale kept live older => simp [kept, live, older]
  | inserted kept vacant => simp [kept, vacant]
  | replaced kept live notOlder => simp [kept, live, notOlder]

theorem update_fst (shows : store.Shows now nodes) (path : Path)
    (change : Node → Option Node) :
    (store.update now path change).1 = (nodes.changed path change).isSome := by
  rw [Store.update, NodeMap.changed, ← shows.peek, Store.peek]
  cases store.live? now path with
  | none => rfl
  | some entry =>
      cases changed : change entry.node with
      | none => simp [changed]
      | some node => simp [changed]

/-- Entries that have expired take their place in the order of removals, but are not told of. -/
theorem doomed_filter (shows : store.Shows now nodes) (path : Path) :
    ((store.doomed path).filter fun key => (store.peek now key).isSome) = nodes.doomed path := by
  have keysDistinct : nodes.keys.Nodup := shows.mapDistinct
  refine (isStrict_deeperFirst.sortBy_eq ?_ ?_ fun _ _ _ _ => eq_of_not_deeperFirst).symm
  · refine (List.perm_ext_iff_of_nodup (keysDistinct.filter _)
      ((nodup_doomed shows.distinct path).filter _)).mpr fun key => ?_
    rw [List.mem_filter, List.mem_filter, mem_doomed_iff, Table.mem_keys_iff, shows.peek,
      Option.isSome_iff_exists, decide_eq_true_eq]
    constructor
    · rintro ⟨⟨node, found⟩, covered⟩
      obtain ⟨entry, present, _⟩ := peek_eq_some_iff.mp ((shows.peek key).trans found)
      exact ⟨⟨Table.mem_keys_iff.mpr ⟨entry, present⟩, covered⟩, node, found⟩
    · rintro ⟨⟨_, covered⟩, found⟩
      exact ⟨found, covered⟩
  · exact (isStrict_deeperFirst.pairwise_sortBy _).filter _

theorem removeSubtree_fst (shows : store.Shows now nodes) (path : Path) :
    (store.removeSubtree now path).1 = (nodes.doomed path).filterMap nodes.get? := by
  have samePeek : store.peek now = nodes.get? := funext shows.peek
  rw [Store.removeSubtree_fst shows.distinct, ← shows.doomed_filter path, ← samePeek,
    List.filterMap_filter]
  apply List.filterMap_congr
  intro key _
  cases store.peek now key with
  | none => rfl
  | some node => rfl

end Shows

end Store

/-- Both hold the same entries, with the same stamps and under the same policy. -/
structure Store.HoldsSame (after before : Store) : Prop where
  policy : after.policy = before.policy
  entries : after.entries = before.entries
  recency : after.recency = before.recency
  clock : after.clock = before.clock

namespace GuardedStore

/-! ## What no call changes, and what fetches leave alone -/

theorem begin_holdsSame (guarded : GuardedStore) (name : Text) :
    (guarded.begin name).2.store.HoldsSame guarded.store := by
  unfold GuardedStore.begin
  cases guarded.guards.get? name with
  | none => exact ⟨rfl, rfl, rfl, rfl⟩
  | some ended => exact ⟨rfl, rfl, rfl, rfl⟩

theorem finish_holdsSame (guarded : GuardedStore) (name : Text) :
    (guarded.finish name).2.store.HoldsSame guarded.store := by
  unfold GuardedStore.finish
  cases guarded.guards.get? name with
  | none => exact ⟨rfl, rfl, rfl, rfl⟩
  | some ended => exact ⟨rfl, rfl, rfl, rfl⟩

theorem now_finish (guarded : GuardedStore) (name : Text) :
    (guarded.finish name).2.now = guarded.now := by
  unfold GuardedStore.finish
  cases guarded.guards.get? name <;> rfl

theorem policy_obey (guarded : GuardedStore) (call : StoreCall) :
    (guarded.obey call).store.policy = guarded.store.policy := by
  have isGuarded : guarded.IsGuardedBy guarded := ⟨rfl, rfl, rfl⟩
  have heard := congrArg Fence.policy (isGuarded.obey call).fence
  refine heard.trans ?_
  cases call with
  | begin name => exact (begin_holdsSame guarded name).policy
  | finish name => exact (finish_holdsSame guarded name).policy
  | removeSubtree path => exact congrArg Fence.policy (Store.fence_removeSubtree _ _ path)
  | upsert | get | update | remove | clear | advance => rfl

/-- No path is ever stored twice. -/
theorem distinct_obey {guarded : GuardedStore} (distinct : guarded.store.entries.Distinct)
    (call : StoreCall) : (guarded.obey call).store.entries.Distinct := by
  have keeps : guarded.store.Keeps fun _ _ => True := ⟨distinct, fun _ _ _ => trivial⟩
  cases call with
  | begin name => exact (begin_holdsSame guarded name).entries ▸ distinct
  | finish name => exact (finish_holdsSame guarded name).entries ▸ distinct
  | upsert node choice => exact (keeps.upsert trivial guarded.now _).distinct
  | get path => exact (Store.within_get _ guarded.now path).distinct distinct
  | update path change => exact (keeps.update guarded.now fun _ _ _ _ _ => trivial).distinct
  | remove path => exact (Store.within_remove _ guarded.now path).distinct distinct
  | removeSubtree path => exact (Store.within_removeSubtree _ guarded.now path).distinct distinct
  | clear => exact Table.distinct_nil
  | advance span => exact distinct

/-- Every call and every reader gets the answer that the map and the gate give. -/
structure AnswersAs (guarded gate : GuardedStore) (nodes : NodeMap) : Prop where
  replies : ∀ call, guarded.reply call = nodes.reply gate call
  reads : guarded.store.ReadsAs guarded.now nodes
  epoch : guarded.store.epoch = gate.store.epoch
  deletedSince : ∀ path epoch,
    guarded.store.deletedSince path epoch = gate.store.deletedSince path epoch

theorem IsGuardedBy.upsert_fst {guarded gate : GuardedStore} {nodes : NodeMap}
    (isGuarded : guarded.IsGuardedBy gate) (shows : guarded.store.Shows guarded.now nodes)
    (node : Node) (choice : EpochChoice) :
    (guarded.store.upsert guarded.now node (guarded.epochOf choice)).1 =
      nodes.offerAt gate node choice := by
  rw [shows.upsert_fst, NodeMap.offerAt, isGuarded.epochOf, isGuarded.deletedSince]

theorem IsGuardedBy.answersAs {guarded gate : GuardedStore} {nodes : NodeMap}
    (isGuarded : guarded.IsGuardedBy gate) (shows : guarded.store.Shows guarded.now nodes) :
    guarded.AnswersAs gate nodes := by
  refine ⟨fun call => ?_, shows.readsAs, congrArg Fence.epoch isGuarded.fence,
    isGuarded.deletedSince⟩
  cases call with
  | begin name => exact congrArg StoreReply.epoch (isGuarded.begin name).1
  | finish name => exact congrArg StoreReply.flag (isGuarded.finish name).1
  | upsert node choice =>
      rw [reply, NodeMap.reply, Store.upsertTelling_eq]
      simp only [isGuarded.upsert_fst shows]
      cases nodes.offerAt gate node choice <;> rfl
  | get path => exact congrArg StoreReply.node (shows.get_fst path)
  | update path change => exact congrArg StoreReply.flag (shows.update_fst path change)
  | remove path =>
      exact congrArg StoreReply.node ((Store.remove_fst _ _ _).trans (shows.peek path))
  | removeSubtree path => exact congrArg StoreReply.removed (shows.removeSubtree_fst path)
  | clear => rfl
  | advance span => rfl

end GuardedStore

end WatchedTree
