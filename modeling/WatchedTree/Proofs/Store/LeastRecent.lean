import WatchedTree.Proofs.Store.Answers
import WatchedTree.Proofs.Store.Recency

/-!
# Eviction of the least recently used

A store with a bound on its entries and no expiry gives the answers of a list of nodes in the order
of their use. What is stored and what is read comes to the front, and what is behind the bound goes;
nothing else moves.
-/
namespace WatchedTree

/-! ## The list in the order of use -/

namespace NodeMap

/-- Puts a node in front, in the place of the one that its path had. -/
def toFront (nodes : NodeMap) (path : Path) (node : Node) : NodeMap :=
  (path, node) :: nodes.erase path

/-- The nodes left by the removal of a path and everything below it. -/
def without (nodes : NodeMap) (path : Path) : NodeMap :=
  List.filter (fun pair => ¬Path.Covers path pair.1) nodes

/-- The list after a call, the most recently used first, with at most as many nodes as the bound
allows. -/
def used (bound : Nat) (nodes : NodeMap) (gate : GuardedStore) : StoreCall → NodeMap
  | .upsert node choice =>
    if (nodes.offerAt gate node choice).isStored then (nodes.toFront node.path node).take bound
    else nodes
  | .get path =>
    match nodes.get? path with
    | none => nodes
    | some node => nodes.toFront path node
  | .update path change =>
    match nodes.changed path change with
    | none => nodes
    | some node => nodes.put path node
  | .remove path => nodes.erase path
  | .removeSubtree path => nodes.without path
  | .clear => []
  | .begin _ | .finish _ | .advance _ => nodes

end NodeMap

/-- A store that keeps its nodes in the order of their use, the most recent first. -/
structure UsageList where
  bound : Nat
  gate : GuardedStore
  nodes : NodeMap := []

namespace UsageList

def ofBound (bound : Nat) : UsageList :=
  { bound, gate := .ofPolicy { maxEntries := some bound } }

def obey (list : UsageList) (call : StoreCall) : UsageList :=
  { list with
    gate := list.gate.hear call
    nodes := list.nodes.used list.bound list.gate call }

/-- The list after some calls, one after the other. -/
def run (list : UsageList) (calls : List StoreCall) : UsageList := calls.foldl obey list

theorem bound_run (list : UsageList) (calls : List StoreCall) :
    (list.run calls).bound = list.bound := by
  induction calls generalizing list with
  | nil => rfl
  | cons call others inductionHypothesis => exact inductionHypothesis (list.obey call)

end UsageList

/-! ## Stores ranked by such a list -/

namespace Store

variable {store : Store} {nodes : NodeMap} {now : Moment} {path : Path} {node : Node}

/-- The list names the paths by their last use, and has the node of each. -/
structure Ranks (store : Store) (nodes : NodeMap) : Prop where
  indexed : store.IsIndexed
  keys : nodes.keys = store.byUse.reverse
  nodes : ∀ path, nodes.get? path = (store.entries.get? path).map (·.node)

namespace Ranks

theorem of_same {after : Store} (ranks : store.Ranks nodes) (same : after.HoldsSame store) :
    after.Ranks nodes where
  indexed := ranks.indexed.of_same same.entries same.recency same.clock
  keys := by
    rw [byUse, same.recency]
    exact ranks.keys
  nodes := same.entries ▸ ranks.nodes

/-- A path that is used comes to the front. -/
theorem use {after : Store} (ranks : store.Ranks nodes) {entry : Entry}
    (stamped : entry.stamp = store.clock)
    (entries : after.entries = store.entries.put path entry)
    (recency : after.recency =
      (store.recency.filter fun pair => pair.2 ≠ path) ++ [(store.clock, path)])
    (clock : after.clock = store.clock + 1) : after.Ranks (nodes.toFront path entry.node) where
  indexed := ranks.indexed.use stamped entries recency clock
  keys := by
    rw [byUse_use recency, List.reverse_concat, ← List.filter_reverse, ← ranks.keys,
      ← Table.keys_erase]
    rfl
  nodes := by
    intro key
    rw [entries, Table.get?_put, NodeMap.toFront, Table.get?, Table.get?_erase, ranks.nodes]
    by_cases same : key = path
    · simp [same]
    · simp [same, Ne.symm same]

theorem drop {after : Store} (ranks : store.Ranks nodes)
    (entries : after.entries = store.entries.erase path)
    (recency : after.recency = store.recency.filter fun pair => pair.2 ≠ path)
    (clock : after.clock = store.clock) : after.Ranks (nodes.erase path) where
  indexed := ranks.indexed.drop entries recency clock
  keys := by
    rw [byUse_drop recency, ← List.filter_reverse, ← ranks.keys, ← Table.keys_erase]
  nodes := by
    intro key
    rw [entries, Table.get?_erase, Table.get?_erase, ranks.nodes]
    by_cases same : key = path
    · simp [same]
    · simp [same]

theorem revise {after : Store} (ranks : store.Ranks nodes) {entry : Entry}
    (found : store.entries.get? path = some entry) (node : Node)
    (entries : after.entries = store.entries.put path { entry with node })
    (recency : after.recency = store.recency) (clock : after.clock = store.clock) :
    after.Ranks (nodes.put path node) where
  indexed := ranks.indexed.revise found node entries recency clock
  keys := by
    have held : path ∈ nodes.keys := by
      rw [Table.mem_keys_iff, ranks.nodes, found]
      exact ⟨entry.node, rfl⟩
    rw [Table.keys_put_of_mem node held, ranks.keys, byUse, byUse, recency]
  nodes := by
    intro key
    rw [entries, Table.get?_put, Table.get?_put, ranks.nodes]
    by_cases same : key = path
    · simp [same]
    · simp [same]

/-- What stays of the store is what stays in front. -/
theorem retain {after : Store} {bound : Nat} (ranks : store.Ranks nodes)
    (retains : after.Retains store (store.byUse.drop (store.byUse.length - bound))) :
    after.Ranks (nodes.take bound) := by
  have front : nodes.keys.take bound =
      (store.byUse.drop (store.byUse.length - bound)).reverse := by
    rw [ranks.keys, List.take_reverse]
  have keys : Table.keys (nodes.take bound) = nodes.keys.take bound := List.map_take
  refine ⟨retains.indexed, ?_, fun key => ?_⟩
  · rw [retains.byUse, keys, front]
  · by_cases member : key ∈ store.byUse.drop (store.byUse.length - bound)
    · rw [retains.entries key member, Table.get?_take, ranks.nodes]
      rw [front]
      exact List.mem_reverse.mpr member
    · have missing : key ∉ after.byUse := retains.byUse ▸ member
      rw [retains.indexed.get?_of_not_mem_byUse missing, Option.map_none,
        Table.get?_eq_none_iff, keys, front, List.mem_reverse]
      exact member

theorem distinct (ranks : store.Ranks nodes) : nodes.Distinct := by
  rw [Table.Distinct, ranks.keys, List.nodup_reverse]
  exact ranks.indexed.nodup_byUse

theorem length (ranks : store.Ranks nodes) : nodes.length = store.entries.length := by
  have keys := congrArg List.length ranks.keys
  rw [Table.keys, List.length_map, List.length_reverse] at keys
  exact keys.trans ranks.indexed.length_byUse

end Ranks

/-! ## Calls -/

/-- At most a number of entries are kept, and none expires. -/
def IsBounded (store : Store) (bound : Nat) : Prop := store.policy = { maxEntries := some bound }

theorem IsBounded.maxEntries {bound : Nat} (bounded : store.IsBounded bound) :
    store.policy.maxEntries = some bound :=
  congrArg EvictionPolicy.maxEntries bounded

theorem IsBounded.isExpired {bound : Nat} (bounded : store.IsBounded bound) (now : Moment)
    (entry : Entry) : store.isExpired now entry = false := by
  rw [Store.isExpired, bounded]
  rfl

namespace Ranks

variable {bound : Nat}

theorem shows (ranks : store.Ranks nodes) (bounded : store.IsBounded bound) (now : Moment) :
    store.Shows now nodes where
  distinct := ranks.indexed.distinct
  mapDistinct := ranks.distinct
  peek := by
    intro path
    rw [ranks.nodes, Store.peek, live?]
    cases store.entries.get? path with
    | none => rfl
    | some entry => simp [bounded.isExpired]

theorem get (ranks : store.Ranks nodes) (bounded : store.IsBounded bound) (now : Moment)
    (path : Path) (gate : GuardedStore) :
    (store.get now path).2.Ranks (nodes.used bound gate (.get path)) := by
  have restamped := ranks.indexed.restamp bounded.maxEntries path
  rw [NodeMap.used, ranks.nodes, Store.get]
  cases found : store.entries.get? path with
  | none => exact ranks
  | some entry =>
      rw [found, Option.map_some] at restamped
      simp only [bounded.isExpired, restamped, Bool.false_eq_true, if_false]
      let used : Entry := { entry with accessed := now, stamp := store.clock }
      change Ranks _ (nodes.toFront path used.node)
      exact ranks.use rfl rfl rfl rfl

/-- The node that enters comes to the front, and what is behind the bound goes. -/
theorem enter (ranks : store.Ranks nodes) (bounded : store.IsBounded bound) (positive : 1 ≤ bound)
    (fits : store.entries.length ≤ bound) (now : Moment) (node : Node) :
    ((store.enter now node).enforceCapacity node.path).Ranks
      ((nodes.toFront node.path node).take bound) := by
  have front : (store.enter now node).Ranks (nodes.toFront node.path node) :=
    ranks.use (rfl : Entry.stamp ⟨node, now, now, store.clock⟩ = store.clock) rfl rfl rfl
  have almost : (store.enter now node).entries.length ≤ bound + 1 :=
    Nat.le_trans (ranks.indexed.length_enter now node) (Nat.succ_le_succ fits)
  exact front.retain (front.indexed.retains_enforceCapacity positive bounded.maxEntries almost
    (byUse_enter store now node))

theorem upsert (ranks : store.Ranks nodes) (bounded : store.IsBounded bound)
    (positive : 1 ≤ bound) (fits : store.entries.length ≤ bound) (now : Moment) (node : Node)
    (epoch : Epoch) :
    (store.upsert now node epoch).2.Ranks
      (if (store.upsert now node epoch).1.isStored then (nodes.toFront node.path node).take bound
        else nodes) := by
  rw [ranks.indexed.upsert_eq bounded.maxEntries]
  split
  · exact ranks.enter bounded positive fits now node
  · exact ranks

theorem update (ranks : store.Ranks nodes) (bounded : store.IsBounded bound) (now : Moment)
    (path : Path) (change : Node → Option Node) (gate : GuardedStore) :
    (store.update now path change).2.Ranks (nodes.used bound gate (.update path change)) := by
  rw [NodeMap.used, NodeMap.changed, ranks.nodes, Store.update, live?]
  cases found : store.entries.get? path with
  | none => exact ranks
  | some entry =>
      simp only [bounded.isExpired, Bool.false_eq_true, if_false, Option.map_some,
        Option.bind_some]
      cases change entry.node with
      | none => exact ranks
      | some node => exact ranks.revise found node rfl rfl rfl

theorem remove (ranks : store.Ranks nodes) (now : Moment) (path : Path) :
    (store.remove now path).2.Ranks (nodes.erase path) := by
  unfold Store.remove
  cases found : store.entries.get? path with
  | none =>
      have missing : path ∉ nodes.keys := by
        rw [← Table.get?_eq_none_iff, ranks.nodes, found]
        rfl
      rw [Table.erase_of_not_mem missing]
      exact ranks
  | some entry => exact ranks.drop rfl (ranks.indexed.filter_stamp found) rfl

theorem removeEach (ranks : store.Ranks nodes) (now : Moment) (paths : List Path) :
    (removeEach now paths store).2.Ranks
      (List.filter (fun pair => pair.1 ∉ paths) nodes) := by
  induction paths generalizing store nodes with
  | nil => simpa [Store.removeEach] using ranks
  | cons path others inductionHypothesis =>
      have oneByOne : List.filter (fun pair => pair.1 ∉ path :: others) nodes =
          List.filter (fun pair => pair.1 ∉ others) (nodes.erase path) := by
        rw [Table.erase, List.filter_filter]
        apply List.filter_congr
        intro pair _
        simp [Bool.and_comm]
      rw [oneByOne]
      exact inductionHypothesis (ranks.remove now path)

theorem removeSubtree (ranks : store.Ranks nodes) (now : Moment) (path : Path) :
    (store.removeSubtree now path).2.Ranks (nodes.without path) := by
  have covered : nodes.without path =
      List.filter (fun pair => pair.1 ∉ store.doomed path) nodes := by
    apply List.filter_congr
    intro pair member
    have found := Table.get?_of_mem ranks.distinct member
    rw [ranks.nodes, Option.map_eq_some_iff] at found
    obtain ⟨entry, present, _⟩ := found
    have inKeys := Table.mem_keys_iff.mpr ⟨entry, present⟩
    simp [mem_doomed_iff, inKeys]
  have buried : ({ store with
      epoch := store.epoch + 1
      tombstones := store.tombstones.put path (store.epoch + 1) } : Store).Ranks nodes :=
    ranks.of_same ⟨rfl, rfl, rfl, rfl⟩
  rw [covered]
  exact buried.removeEach now (store.doomed path)

theorem of_empty (entries : store.entries = []) (recency : store.recency = []) :
    store.Ranks [] where
  indexed :=
    { distinct := entries ▸ Table.distinct_nil
      increasing := recency ▸ List.Pairwise.nil
      past := by simp [recency]
      mem_iff := by simp [recency, entries] }
  keys := by
    rw [byUse, recency]
    rfl
  nodes := by
    rw [entries]
    exact fun _ => rfl

end Ranks

end Store

/-- No call leaves more nodes than the bound allows. -/
theorem NodeMap.length_used {bound : Nat} {nodes : NodeMap} (fits : nodes.length ≤ bound)
    (gate : GuardedStore) (call : StoreCall) : (nodes.used bound gate call).length ≤ bound := by
  cases call with
  | upsert node choice =>
      rw [used]
      split
      · exact List.length_take_le _ _
      · exact fits
  | get path =>
      rw [used]
      cases found : nodes.get? path with
      | none => exact fits
      | some node =>
          have fewer : (nodes.erase path).length < nodes.length :=
            List.length_filter_lt_length_iff_exists.mpr
              ⟨(path, node), Table.mem_of_get? found, by simp⟩
          simp only [toFront, List.length_cons]
          omega
  | update path change =>
      rw [used]
      cases changed : nodes.changed path change with
      | none => exact fits
      | some node =>
          obtain ⟨old, found, _⟩ := Option.bind_eq_some_iff.mp changed
          have keys := Table.keys_put_of_mem node (Table.mem_keys_iff.mpr ⟨old, found⟩)
          have length := congrArg List.length keys
          rw [Table.keys, Table.keys, List.length_map, List.length_map] at length
          exact length ▸ fits
  | remove path => exact Nat.le_trans (List.length_filter_le _ _) fits
  | removeSubtree path => exact Nat.le_trans (List.length_filter_le _ _) fits
  | clear => exact Nat.zero_le _
  | begin | finish | advance => exact fits

namespace GuardedStore

/-- A store within its bound, and the list that gives its answers. -/
structure Matches (guarded : GuardedStore) (list : UsageList) : Prop where
  bounded : guarded.store.IsBounded list.bound
  fits : guarded.store.entries.length ≤ list.bound
  isGuarded : guarded.IsGuardedBy list.gate
  ranks : guarded.store.Ranks list.nodes

namespace Matches

variable {guarded : GuardedStore} {list : UsageList}

theorem answersAs (matched : guarded.Matches list) : guarded.AnswersAs list.gate list.nodes :=
  matched.isGuarded.answersAs (matched.ranks.shows matched.bounded guarded.now)

theorem ranks_upsert (matched : guarded.Matches list) (positive : 1 ≤ list.bound) (node : Node)
    (choice : EpochChoice) :
    (guarded.obey (.upsert node choice)).store.Ranks
      (list.nodes.used list.bound list.gate (.upsert node choice)) := by
  have shows := matched.ranks.shows matched.bounded guarded.now
  have stored := matched.ranks.upsert matched.bounded positive matched.fits guarded.now node
    (guarded.epochOf choice)
  rw [matched.isGuarded.upsert_fst shows] at stored
  exact stored

theorem ranks_obey (matched : guarded.Matches list) (positive : 1 ≤ list.bound)
    (call : StoreCall) :
    (guarded.obey call).store.Ranks (list.nodes.used list.bound list.gate call) := by
  cases call with
  | upsert node choice => exact matched.ranks_upsert positive node choice
  | get path => exact matched.ranks.get matched.bounded guarded.now path list.gate
  | update path change =>
      exact matched.ranks.update matched.bounded guarded.now path change list.gate
  | remove path => exact matched.ranks.remove guarded.now path
  | removeSubtree path => exact matched.ranks.removeSubtree guarded.now path
  | clear => exact Store.Ranks.of_empty rfl rfl
  | begin name => exact matched.ranks.of_same (begin_holdsSame guarded name)
  | finish name => exact matched.ranks.of_same (finish_holdsSame guarded name)
  | advance span => exact matched.ranks

theorem obey (matched : guarded.Matches list) (positive : 1 ≤ list.bound) (call : StoreCall) :
    (guarded.obey call).Matches (list.obey call) := by
  have ranks := matched.ranks_obey positive call
  have within : list.nodes.length ≤ list.bound := matched.ranks.length ▸ matched.fits
  exact
    { bounded := (policy_obey guarded call).trans matched.bounded
      fits := ranks.length ▸ NodeMap.length_used within list.gate call
      isGuarded := matched.isGuarded.obey call
      ranks }

theorem run (matched : guarded.Matches list) (positive : 1 ≤ list.bound)
    (calls : List StoreCall) : (guarded.run calls).Matches (list.run calls) := by
  induction calls generalizing guarded list with
  | nil => exact matched
  | cons call others inductionHypothesis =>
      exact inductionHypothesis (matched.obey positive call) positive

theorem ofBound (bound : Nat) :
    (ofPolicy { maxEntries := some bound }).Matches (UsageList.ofBound bound) where
  bounded := rfl
  fits := Nat.zero_le _
  isGuarded := ⟨rfl, rfl, rfl⟩
  ranks := Store.Ranks.of_empty rfl rfl

end Matches

/-- A node that was stored is there afterwards, whatever had to go for it. -/
theorem Matches.peek_upsert {guarded : GuardedStore} {list : UsageList}
    (matched : guarded.Matches list) (positive : 1 ≤ list.bound) {node : Node}
    {choice : EpochChoice} (stored : (list.nodes.offerAt list.gate node choice).isStored = true) :
    (guarded.obey (.upsert node choice)).store.peek guarded.now node.path = some node := by
  have next := matched.obey positive (.upsert node choice)
  have shown := (next.ranks.shows next.bounded guarded.now).peek node.path
  rw [shown]
  obtain ⟨fewer, more⟩ := Nat.exists_eq_succ_of_ne_zero (Nat.ne_of_gt positive)
  simp [UsageList.obey, NodeMap.used, stored, more, NodeMap.toFront, Table.get?]

/-- In every run, a store with a bound and no expiry answers every call and every reader as the
list of its nodes in the order of their use. It never holds more entries than the bound allows, and
a node that was just stored is there. -/
theorem answersAs_usageList (bound : Nat) (positive : 1 ≤ bound) (calls : List StoreCall) :
    let guarded := (ofPolicy { maxEntries := some bound }).run calls
    let list := (UsageList.ofBound bound).run calls
    guarded.AnswersAs list.gate list.nodes ∧
      guarded.store.entries.length ≤ bound ∧
      ∀ node choice,
        (guarded.store.upsert guarded.now node (guarded.epochOf choice)).1.isStored = true →
          (guarded.obey (.upsert node choice)).store.peek guarded.now node.path = some node := by
  intro guarded list
  have matched : guarded.Matches list := (Matches.ofBound bound).run positive calls
  have sameBound : list.bound = bound := UsageList.bound_run _ calls
  refine ⟨matched.answersAs, sameBound ▸ matched.fits, fun node choice stored => ?_⟩
  have shows := matched.ranks.shows matched.bounded guarded.now
  rw [matched.isGuarded.upsert_fst shows] at stored
  exact matched.peek_upsert (sameBound ▸ positive) stored

/-- The node read in between stays, and of two nodes the one that was only looked at goes. -/
theorem answersAs_usageList_of_read :
    let calls : List StoreCall :=
      [.upsert { path := "/a".toList } .present, .upsert { path := "/b".toList } .present,
        .get "/a".toList, .update "/b".toList (fun node => some { node with data := some [] }),
        .upsert { path := "/c".toList } .present]
    let guarded := (ofPolicy { maxEntries := some 2 }).run calls
    let list := (UsageList.ofBound 2).run calls
    1 ≤ 2 ∧ guarded.AnswersAs list.gate list.nodes ∧ guarded.store.entries.length ≤ 2 ∧
      list.nodes.keys = ["/c".toList, "/a".toList] ∧
        guarded.store.contains guarded.now "/b".toList = false := by
  intro calls guarded list
  obtain ⟨answers, fits, _⟩ := answersAs_usageList 2 (by decide) calls
  have order : list.nodes.keys = ["/c".toList, "/a".toList] := by decide
  refine ⟨by decide, answers, fits, order, ?_⟩
  have missing : list.nodes.contains "/b".toList = false := by decide
  exact (answers.reads.contains "/b".toList).trans missing

end GuardedStore

end WatchedTree
