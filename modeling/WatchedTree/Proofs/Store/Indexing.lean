import Mathlib.Data.List.Perm.Subperm
import WatchedTree.Proofs.Store.Answers
import WatchedTree.Proofs.Store.Recency

/-!
# The order of use over a run

Every call keeps the list of stamps the inverse of the stamps that the entries bear, under any bound
on entries, zero included, and with any expiry; without a bound the list stays empty. As evictions
find in the list all that is stored, the bound holds after every call.
-/
namespace WatchedTree

namespace Store

variable {store : Store} {now : Moment} {path key : Path} {node : Node} {bound : Nat}

/-! ## Evictions -/

/-- Stamps that are all of one path belong to one entry at most. -/
theorem IsIndexed.length_le_one (indexed : store.IsIndexed) {keep : Path}
    (single : ∀ pair ∈ store.recency, pair.2 = keep) : store.entries.length ≤ 1 := by
  have same : store.byUse ⊆ [keep] := by
    intro path member
    obtain ⟨pair, listed, rfl⟩ := List.mem_map.mp member
    exact List.mem_singleton.mpr (single pair listed)
  rw [← indexed.length_byUse]
  exact (indexed.nodup_byUse.subperm same).length_le

/-- What an eviction leaves is indexed by the stamps that it leaves, and within the bound, where one
entry is always kept. -/
theorem IsIndexed.evict {keep : Path} {stamps spared : List (Stamp × Path)}
    {entries : Table Path Entry}
    (indexed : ({ store with entries, recency := spared ++ stamps } : Store).IsIndexed)
    (kept : ∀ pair ∈ spared, pair.2 = keep) :
    let left := Store.evict bound keep stamps entries spared
    ({ store with entries := left.1, recency := left.2 } : Store).IsIndexed ∧
      left.1.length ≤ max bound 1 := by
  induction stamps generalizing entries spared with
  | nil =>
      rw [List.append_nil] at indexed
      exact ⟨indexed, Nat.le_trans (indexed.length_le_one kept) (Nat.le_max_right bound 1)⟩
  | cons pair others inductionHypothesis =>
      obtain ⟨stamp, victim⟩ := pair
      rw [Store.evict]
      by_cases fits : entries.length ≤ bound
      · rw [if_pos fits]
        exact ⟨indexed, Nat.le_trans fits (Nat.le_max_left bound 1)⟩
      · rw [if_neg fits]
        by_cases isKept : victim = keep
        · rw [if_pos isKept]
          apply inductionHypothesis
          · rw [List.append_assoc]
            exact indexed
          · intro pair member
            rcases List.mem_append.mp member with before | isVictim
            · exact kept pair before
            · rw [List.mem_singleton.mp isVictim]
              exact isKept
        · obtain ⟨⟨entry, found, rfl⟩, others_eq⟩ := indexed.amid rfl
          have found : entries.get? victim = some entry := found
          rw [if_neg isKept, found]
          simp only [if_true]
          exact inductionHypothesis (indexed.drop rfl others_eq rfl) kept

/-! ## Calls under a bound -/

/-- A store within the bound on its entries, of which one is always kept, with the list of stamps
that the bound needs. -/
structure IsCapped (store : Store) (bound : Nat) : Prop where
  bounded : store.policy.maxEntries = some bound
  indexed : store.IsIndexed
  fits : store.entries.length ≤ max bound 1

theorem IsIndexed.enforceCapacity (indexed : store.IsIndexed)
    (bounded : store.policy.maxEntries = some bound) (keep : Path) :
    (store.enforceCapacity keep).IsCapped bound := by
  rw [Store.enforceCapacity, bounded]
  have nothing : ∀ pair ∈ ([] : List (Stamp × Path)), pair.2 = keep := by simp
  have left := @IsIndexed.evict store bound keep store.recency [] store.entries indexed nothing
  exact ⟨bounded, left.1, left.2⟩

namespace IsCapped

theorem of_same {after : Store} (capped : store.IsCapped bound) (same : after.HoldsSame store) :
    after.IsCapped bound where
  bounded := same.policy ▸ capped.bounded
  indexed := capped.indexed.of_same same.entries same.recency same.clock
  fits := same.entries ▸ capped.fits

/-- The bound is kept by what holds no other paths. -/
theorem fewer {after : Store} (capped : store.IsCapped bound)
    (samePolicy : after.policy = store.policy) (indexed : after.IsIndexed)
    (held : ∀ path entry, after.entries.get? path = some entry →
      ∃ old, store.entries.get? path = some old) : after.IsCapped bound where
  bounded := samePolicy ▸ capped.bounded
  indexed := indexed
  fits := by
    have known : after.byUse ⊆ store.byUse := by
      intro path member
      obtain ⟨entry, found⟩ := indexed.mem_byUse_iff.mp member
      exact capped.indexed.mem_byUse_iff.mpr (held path entry found)
    have fewer := (indexed.nodup_byUse.subperm known).length_le
    rw [indexed.length_byUse, capped.indexed.length_byUse] at fewer
    exact Nat.le_trans fewer capped.fits

theorem get (capped : store.IsCapped bound) (now : Moment) (path : Path) :
    (store.get now path).2.IsCapped bound := by
  have samePolicy := congrArg Fence.policy (fence_get store now path)
  have within := within_get store now path
  refine capped.fewer samePolicy ?_ fun key entry found => ?_
  · have restamped := capped.indexed.restamp capped.bounded path
    unfold Store.get
    cases found : store.entries.get? path with
    | none => exact capped.indexed
    | some entry =>
        rw [found, Option.map_some] at restamped
        by_cases expired : store.isExpired now entry = true
        · simp only [if_pos expired]
          exact capped.indexed.drop rfl (capped.indexed.filter_stamp found) rfl
        · simp only [if_neg expired, restamped]
          let used : Entry := { entry with accessed := now, stamp := store.clock }
          exact capped.indexed.use (rfl : used.stamp = store.clock) rfl rfl rfl
  · obtain ⟨old, present, _⟩ := within.nodes key entry found
    exact ⟨old, present⟩

theorem upsert (capped : store.IsCapped bound) (now : Moment) (node : Node) (epoch : Epoch) :
    (store.upsert now node epoch).2.IsCapped bound := by
  rw [capped.indexed.upsert_eq capped.bounded]
  split
  · exact (capped.indexed.enter now node).enforceCapacity capped.bounded node.path
  · exact capped

theorem update (capped : store.IsCapped bound) (now : Moment) (path : Path)
    (change : Node → Option Node) : (store.update now path change).2.IsCapped bound := by
  unfold Store.update
  cases live : store.live? now path with
  | none => exact capped
  | some entry =>
      obtain ⟨found, _⟩ := live?_eq_some_iff.mp live
      simp only
      cases change entry.node with
      | none => exact capped
      | some node =>
          refine capped.fewer rfl (capped.indexed.revise found node rfl rfl rfl) ?_
          intro key other held
          simp only [Table.get?_put] at held
          by_cases same : key = path
          · exact ⟨entry, same ▸ found⟩
          · rw [if_neg same] at held
            exact ⟨other, held⟩

theorem remove (capped : store.IsCapped bound) (now : Moment) (path : Path) :
    (store.remove now path).2.IsCapped bound := by
  unfold Store.remove
  cases found : store.entries.get? path with
  | none => exact capped
  | some entry =>
      refine capped.fewer rfl
        (capped.indexed.drop rfl (capped.indexed.filter_stamp found) rfl) fun key other held => ?_
      simp only [Table.get?_erase] at held
      split at held
      · cases held
      · exact ⟨other, held⟩

theorem removeEach (capped : store.IsCapped bound) (now : Moment) (paths : List Path) :
    (removeEach now paths store).2.IsCapped bound := by
  induction paths generalizing store with
  | nil => exact capped
  | cons path others inductionHypothesis => exact inductionHypothesis (capped.remove now path)

theorem removeSubtree (capped : store.IsCapped bound) (now : Moment) (path : Path) :
    (store.removeSubtree now path).2.IsCapped bound := by
  have buried : ({ store with
      epoch := store.epoch + 1
      tombstones := store.tombstones.put path (store.epoch + 1) } : Store).IsCapped bound :=
    capped.of_same ⟨rfl, rfl, rfl, rfl⟩
  exact buried.removeEach now (store.doomed path)

theorem of_empty (bounded : store.policy.maxEntries = some bound) (entries : store.entries = [])
    (recency : store.recency = []) : store.IsCapped bound where
  bounded := bounded
  indexed :=
    { distinct := entries ▸ Table.distinct_nil
      increasing := recency ▸ List.Pairwise.nil
      past := by simp [recency]
      mem_iff := by simp [recency, entries] }
  fits := by simp [entries]

end IsCapped

/-! ## Calls without a bound -/

/-- Nothing is listed in a store without a bound on its entries. -/
structure IsUnlisted (store : Store) : Prop where
  noBound : store.policy.maxEntries = none
  empty : store.recency = []

namespace IsUnlisted

theorem of_same {after : Store} (unlisted : store.IsUnlisted) (same : after.HoldsSame store) :
    after.IsUnlisted where
  noBound := same.policy ▸ unlisted.noBound
  empty := same.recency ▸ unlisted.empty

theorem unstamp (unlisted : store.IsUnlisted) (stamp : Stamp) :
    (store.unstamp stamp).IsUnlisted where
  noBound := unlisted.noBound
  empty := by rw [Store.unstamp, unlisted.empty, List.filter_nil]

theorem restamp (unlisted : store.IsUnlisted) (previous : Option Stamp) (path : Path) :
    (store.restamp previous path).2.IsUnlisted where
  noBound := unlisted.noBound
  empty := by
    unfold Store.restamp
    simp only [unlisted.noBound]
    exact unlisted.empty

theorem get (unlisted : store.IsUnlisted) (now : Moment) (path : Path) :
    (store.get now path).2.IsUnlisted := by
  unfold Store.get
  cases store.entries.get? path with
  | none => exact unlisted
  | some entry =>
      simp only
      split
      · exact ⟨unlisted.noBound, (unlisted.unstamp entry.stamp).empty⟩
      · exact ⟨unlisted.noBound, (unlisted.restamp (some entry.stamp) path).empty⟩

theorem write (unlisted : store.IsUnlisted) (now : Moment) (node : Node)
    (previous : Option Stamp) : (store.write now node previous).IsUnlisted := by
  have restamped := unlisted.restamp previous node.path
  unfold Store.write enforceCapacity
  simp only [restamped.noBound]
  exact ⟨restamped.noBound, restamped.empty⟩

theorem upsert (unlisted : store.IsUnlisted) (now : Moment) (node : Node) (epoch : Epoch) :
    (store.upsert now node epoch).2.IsUnlisted := by
  rw [upsert_snd]
  split
  · exact unlisted.write now node _
  · exact unlisted

theorem update (unlisted : store.IsUnlisted) (now : Moment) (path : Path)
    (change : Node → Option Node) : (store.update now path change).2.IsUnlisted := by
  unfold Store.update
  split
  · exact unlisted
  · split
    · exact unlisted
    · exact ⟨unlisted.noBound, unlisted.empty⟩

theorem remove (unlisted : store.IsUnlisted) (now : Moment) (path : Path) :
    (store.remove now path).2.IsUnlisted := by
  unfold Store.remove
  split
  · exact unlisted
  next entry _ => exact ⟨unlisted.noBound, (unlisted.unstamp entry.stamp).empty⟩

theorem removeEach (unlisted : store.IsUnlisted) (now : Moment) (paths : List Path) :
    (removeEach now paths store).2.IsUnlisted := by
  induction paths generalizing store with
  | nil => exact unlisted
  | cons path others inductionHypothesis => exact inductionHypothesis (unlisted.remove now path)

theorem removeSubtree (unlisted : store.IsUnlisted) (now : Moment) (path : Path) :
    (store.removeSubtree now path).2.IsUnlisted := by
  have buried : ({ store with
      epoch := store.epoch + 1
      tombstones := store.tombstones.put path (store.epoch + 1) } : Store).IsUnlisted :=
    unlisted.of_same ⟨rfl, rfl, rfl, rfl⟩
  exact buried.removeEach now (store.doomed path)

end IsUnlisted

end Store

namespace GuardedStore

variable {guarded : GuardedStore} {bound : Nat}

/-- A property that every call keeps holds after every run in which it holds at first. -/
theorem keeps_run (property : Store → Prop)
    (kept : ∀ guarded : GuardedStore, ∀ call, property guarded.store →
      property (guarded.obey call).store)
    (holds : property guarded.store) (calls : List StoreCall) :
    property (guarded.run calls).store := by
  induction calls generalizing guarded with
  | nil => exact holds
  | cons call others inductionHypothesis => exact inductionHypothesis (kept guarded call holds)

theorem isCapped_obey (capped : guarded.store.IsCapped bound) (call : StoreCall) :
    (guarded.obey call).store.IsCapped bound := by
  cases call with
  | begin name => exact capped.of_same (begin_holdsSame guarded name)
  | finish name => exact capped.of_same (finish_holdsSame guarded name)
  | upsert node choice => exact capped.upsert guarded.now node (guarded.epochOf choice)
  | get path => exact capped.get guarded.now path
  | update path change => exact capped.update guarded.now path change
  | remove path => exact capped.remove guarded.now path
  | removeSubtree path => exact capped.removeSubtree guarded.now path
  | clear => exact Store.IsCapped.of_empty capped.bounded rfl rfl
  | advance span => exact capped

theorem isUnlisted_obey (unlisted : guarded.store.IsUnlisted) (call : StoreCall) :
    (guarded.obey call).store.IsUnlisted := by
  cases call with
  | begin name => exact unlisted.of_same (begin_holdsSame guarded name)
  | finish name => exact unlisted.of_same (finish_holdsSame guarded name)
  | upsert node choice => exact unlisted.upsert guarded.now node (guarded.epochOf choice)
  | get path => exact unlisted.get guarded.now path
  | update path change => exact unlisted.update guarded.now path change
  | remove path => exact unlisted.remove guarded.now path
  | removeSubtree path => exact unlisted.removeSubtree guarded.now path
  | clear => exact ⟨unlisted.noBound, rfl⟩
  | advance span => exact unlisted

theorem policy_run (policy : EvictionPolicy) (calls : List StoreCall) :
    ((ofPolicy policy).run calls).store.policy = policy :=
  keeps_run (·.policy = policy) (fun guarded call same => (policy_obey guarded call).trans same) rfl
    calls

/-- Under a bound, every run stays within it and keeps the list of stamps. -/
theorem isCapped_run {policy : EvictionPolicy} (bounded : policy.maxEntries = some bound)
    (calls : List StoreCall) : ((ofPolicy policy).run calls).store.IsCapped bound :=
  keeps_run (·.IsCapped bound) (fun _ call capped => isCapped_obey capped call)
    (Store.IsCapped.of_empty bounded rfl rfl) calls

theorem isUnlisted_run {policy : EvictionPolicy} (noBound : policy.maxEntries = none)
    (calls : List StoreCall) : ((ofPolicy policy).run calls).store.IsUnlisted :=
  keeps_run (·.IsUnlisted) (fun _ call unlisted => isUnlisted_obey unlisted call) ⟨noBound, rfl⟩
    calls

end GuardedStore

end WatchedTree
