import Mathlib.Order.Bounds.Defs
import WatchedTree.Proofs.History
import WatchedTree.Proofs.Store.Fence

/-!
# The collection of tombstones

A tombstone carries the epoch of the latest removal at its path, and stays while a guard that is
still open began before that removal. Each guard that ends takes the others away, so a tombstone
that no open guard can run into was stamped after the last guard ended.
-/
namespace WatchedTree

/-! ## What a collection leaves -/

namespace Store

variable {store : Store} {openAt : Epoch → Nat} {ended : Epoch}

theorem Counts.mem_keys_iff (counts : store.Counts openAt) {epoch : Epoch} :
    epoch ∈ store.inFlight.keys ↔ 0 < openAt epoch := by
  rw [Table.mem_keys_iff, counts epoch]
  by_cases zero : openAt epoch = 0 <;> simp [zero, Nat.pos_iff_ne_zero]

/-- The oldest open fetch is of the smallest epoch that is counted. -/
theorem Counts.oldestOpen?_eq_some_iff (counts : store.Counts openAt) {oldest : Epoch} :
    store.oldestOpen? = some oldest ↔ IsLeast {epoch | 0 < openAt epoch} oldest := by
  rw [oldestOpen?, List.min?_eq_some_iff, IsLeast, counts.mem_keys_iff]
  refine and_congr_right fun _ => forall_congr' fun epoch => ?_
  rw [counts.mem_keys_iff]
  rfl

theorem get?_tombstones_endFetch (distinct : store.tombstones.Distinct)
    (counts : (store.endFetch ended).Counts openAt) (path : Path) (epoch : Epoch) :
    (store.endFetch ended).tombstones.get? path = some epoch ↔
      store.tombstones.get? path = some epoch ∧
        ∃ oldest, IsLeast {begun | 0 < openAt begun} oldest ∧ oldest < epoch := by
  have oldestOpen : ∀ oldest, (store.discount ended).oldestOpen? = some oldest ↔
      IsLeast {begun | 0 < openAt begun} oldest := fun _ => counts.oldestOpen?_eq_some_iff
  simp only [← oldestOpen]
  rw [endFetch, collect]
  cases found : (store.discount ended).oldestOpen? with
  | none => simp
  | some oldest =>
      change Table.get? (List.filter _ store.tombstones) path = _ ↔ _
      rw [Table.get?_filter distinct, Option.filter_eq_some_iff]
      simp

end Store

namespace GuardedStore

variable {policy : EvictionPolicy} {calls : List StoreCall} {call : StoreCall} {path : Path}
  {epoch : Epoch} {guarded : GuardedStore} {name : Text}

/-! ## Guards that end -/

/-- Whether a call ends a guard. -/
def endsGuard (guarded : GuardedStore) : StoreCall → Bool
  | .begin name | .finish name => guarded.guards.contains name
  | _ => false

/-- Holds if no guard ends over some calls. -/
def keepsGuards (guarded : GuardedStore) : List StoreCall → Bool
  | [] => true
  | call :: calls => !guarded.endsGuard call && (guarded.obey call).keepsGuards calls

theorem run_concat (guarded : GuardedStore) (calls : List StoreCall) (call : StoreCall) :
    guarded.run (calls ++ [call]) = (guarded.run calls).obey call := by
  rw [run, List.foldl_append]
  rfl

theorem keepsGuards_concat (guarded : GuardedStore) (calls : List StoreCall) (call : StoreCall) :
    guarded.keepsGuards (calls ++ [call]) =
      (guarded.keepsGuards calls && !(guarded.run calls).endsGuard call) := by
  induction calls generalizing guarded with
  | nil => simp [keepsGuards]
  | cons first others inductionHypothesis =>
      rw [List.cons_append, keepsGuards, inductionHypothesis, keepsGuards, Bool.and_assoc]
      rfl

/-- The epochs in which the guards still open began. -/
def openEpochs (guarded : GuardedStore) : Set Epoch :=
  {epoch | ∃ name, guarded.guards.get? name = some epoch}

/-! ## Removals of a run -/

/-- The epoch of the latest removal at a path. -/
def LastRemoved (policy : EvictionPolicy) (calls : List StoreCall) (path : Path)
    (epoch : Epoch) : Prop :=
  ∃ before after, calls = before ++ .removeSubtree path :: after ∧
    .removeSubtree path ∉ after ∧
    ((ofPolicy policy).run (before ++ [.removeSubtree path])).store.epoch = epoch

/-- A path was removed, and no guard has ended since. -/
def FreshlyRemoved (policy : EvictionPolicy) (calls : List StoreCall) (path : Path) : Prop :=
  ∃ before after, calls = before ++ .removeSubtree path :: after ∧
    ((ofPolicy policy).run (before ++ [.removeSubtree path])).keepsGuards after = true

theorem lastRemoved_concat_self :
    LastRemoved policy (calls ++ [.removeSubtree path]) path epoch ↔
      ((ofPolicy policy).run (calls ++ [.removeSubtree path])).store.epoch = epoch := by
  constructor
  · rintro ⟨before, after, split, last, rfl⟩
    rcases split_concat split with ⟨rfl, _, _⟩ | ⟨rest, rfl, _⟩
    · rfl
    · exact absurd (by simp) last
  · intro isEpoch
    exact ⟨calls, [], rfl, List.not_mem_nil, isEpoch⟩

theorem lastRemoved_concat_of_ne (other : call ≠ .removeSubtree path) :
    LastRemoved policy (calls ++ [call]) path epoch ↔ LastRemoved policy calls path epoch := by
  constructor
  · rintro ⟨before, after, split, last, isEpoch⟩
    rcases split_concat split with ⟨_, same, _⟩ | ⟨rest, rfl, earlier⟩
    · exact absurd same other
    · exact ⟨before, rest, earlier, fun member => last (by simp [member]), isEpoch⟩
  · rintro ⟨before, after, rfl, last, isEpoch⟩
    refine ⟨before, after ++ [call], by simp, ?_, isEpoch⟩
    simp [last, Ne.symm other]

theorem FreshlyRemoved.concat (fresh : FreshlyRemoved policy calls path)
    (keeps : ((ofPolicy policy).run calls).endsGuard call = false) :
    FreshlyRemoved policy (calls ++ [call]) path := by
  obtain ⟨before, after, rfl, kept⟩ := fresh
  refine ⟨before, after ++ [call], by simp, ?_⟩
  rw [keepsGuards_concat, kept, Bool.true_and, Bool.not_eq_true', ← keeps]
  simp [run, List.foldl_append]

theorem freshlyRemoved_last : FreshlyRemoved policy (calls ++ [.removeSubtree path]) path :=
  ⟨calls, [], rfl, rfl⟩

/-! ## What a call changes -/

theorem mem_openEpochs_iff (distinct : guarded.guards.Distinct) :
    epoch ∈ guarded.openEpochs ↔ 0 < guarded.guards.countOf epoch := by
  constructor
  · rintro ⟨name, found⟩
    exact Table.countOf_pos_of_get? found
  · intro counted
    obtain ⟨⟨name, begun⟩, member, same⟩ := List.countP_pos_iff.mp counted
    obtain rfl := of_decide_eq_true same
    exact ⟨name, Table.get?_of_mem distinct member⟩

/-- A guard begins under the present epoch. -/
theorem mem_openEpochs_obey (opened : epoch ∈ (guarded.obey call).openEpochs) :
    epoch ∈ guarded.openEpochs ∨ epoch = guarded.store.epoch := by
  obtain ⟨name, found⟩ := opened
  cases call with
  | begin other =>
      change (guarded.guards.put other guarded.store.epoch).get? name = _ at found
      rw [Table.get?_put] at found
      split at found
      · cases found
        exact Or.inr rfl
      · exact Or.inl ⟨name, found⟩
  | finish other =>
      left
      change (guarded.finish other).2.guards.get? name = _ at found
      unfold finish at found
      split at found
      · exact ⟨name, found⟩
      · rw [Table.get?_erase] at found
        split at found
        · cases found
        · exact ⟨name, found⟩
  | removeSubtree | upsert | get | update | remove | clear | advance => exact Or.inl ⟨name, found⟩

theorem openEpochs_subset_obey (keeps : guarded.endsGuard call = false) :
    guarded.openEpochs ⊆ (guarded.obey call).openEpochs := by
  rintro epoch ⟨name, found⟩
  cases call with
  | begin other =>
      have vacant : guarded.guards.get? other = none := Table.contains_eq_false_iff.mp keeps
      refine ⟨name, (Table.get?_put_of_ne _ _ ?_).trans found⟩
      rintro rfl
      rw [vacant] at found
      cases found
  | finish other =>
      have vacant : guarded.guards.get? other = none := Table.contains_eq_false_iff.mp keeps
      refine ⟨name, ?_⟩
      change (guarded.finish other).2.guards.get? name = _
      rw [finish, vacant]
      exact found
  | removeSubtree | upsert | get | update | remove | clear | advance => exact ⟨name, found⟩

theorem tombstones_obey_of_keeps (keeps : guarded.endsGuard call = false)
    (other : ∀ path, call ≠ .removeSubtree path) :
    (guarded.obey call).store.tombstones = guarded.store.tombstones := by
  by_cases plain : call.isPlain = true
  · exact congrArg Fence.tombstones (fence_obey_of_isPlain guarded plain).1
  cases call with
  | begin name =>
      have vacant : guarded.guards.get? name = none := Table.contains_eq_false_iff.mp keeps
      change (guarded.begin name).2.store.tombstones = _
      rw [begin, vacant]
      rfl
  | finish name =>
      have vacant : guarded.guards.get? name = none := Table.contains_eq_false_iff.mp keeps
      change (guarded.finish name).2.store.tombstones = _
      rw [finish, vacant]
  | removeSubtree path => exact absurd rfl (other path)
  | upsert | get | update | remove | clear | advance => exact absurd rfl plain

theorem epoch_obey (other : ∀ path, call ≠ .removeSubtree path) :
    (guarded.obey call).store.epoch = guarded.store.epoch := by
  by_cases plain : call.isPlain = true
  · exact congrArg Fence.epoch (fence_obey_of_isPlain guarded plain).1
  cases call with
  | begin name =>
      change (guarded.begin name).2.store.epoch = _
      unfold begin
      cases guarded.guards.get? name <;> rfl
  | finish name =>
      change (guarded.finish name).2.store.epoch = _
      unfold finish
      cases guarded.guards.get? name <;> rfl
  | removeSubtree path => exact absurd rfl (other path)
  | upsert | get | update | remove | clear | advance => exact absurd rfl plain

theorem Consistent.openEpochs_eq (consistent : guarded.Consistent) :
    guarded.openEpochs = {begun | 0 < guarded.guards.countOf begun} :=
  Set.ext fun _ => mem_openEpochs_iff consistent.guardsDistinct

theorem Consistent.exists_oldest (consistent : guarded.Consistent)
    (opened : epoch ∈ guarded.openEpochs) :
    ∃ oldest, IsLeast guarded.openEpochs oldest ∧ oldest ≤ epoch := by
  rw [consistent.openEpochs_eq] at opened ⊢
  obtain ⟨oldest, found, isLeast⟩ := Store.oldestOpen?_le consistent.counts opened
  exact ⟨oldest, consistent.counts.oldestOpen?_eq_some_iff.mp found, isLeast⟩

/-- A guard that ends leaves the tombstones younger than some guard still open. -/
theorem Consistent.get?_tombstones_obey (consistent : guarded.Consistent)
    (ends : guarded.endsGuard call = true) (path : Path) (epoch : Epoch) :
    (guarded.obey call).store.tombstones.get? path = some epoch ↔
      guarded.store.tombstones.get? path = some epoch ∧
        ∃ oldest, IsLeast (guarded.obey call).openEpochs oldest ∧ oldest < epoch := by
  have counts := (consistent.obey call).counts
  rw [(consistent.obey call).openEpochs_eq]
  revert counts
  cases call with
  | begin name =>
      obtain ⟨ended, found⟩ := Option.isSome_iff_exists.mp ends
      have store : (guarded.obey (.begin name)).store =
          guarded.store.beginFetch.2.endFetch ended := by
        change (guarded.begin name).2.store = _
        rw [GuardedStore.begin, found]
      have distinct := consistent.remembers.beginFetch.distinct
      rw [store]
      exact fun counts => Store.get?_tombstones_endFetch distinct counts path epoch
  | finish name =>
      obtain ⟨ended, found⟩ := Option.isSome_iff_exists.mp ends
      have store : (guarded.obey (.finish name)).store = guarded.store.endFetch ended := by
        change (guarded.finish name).2.store = _
        rw [GuardedStore.finish, found]
      have distinct := consistent.remembers.distinct
      rw [store]
      exact fun counts => Store.get?_tombstones_endFetch distinct counts path epoch
  | removeSubtree | upsert | get | update | remove | clear | advance => cases ends

theorem obey_removeSubtree (guarded : GuardedStore) (removed : Path) :
    (guarded.obey (.removeSubtree removed)).store.epoch = guarded.store.epoch + 1 ∧
      ∀ path, (guarded.obey (.removeSubtree removed)).store.tombstones.get? path =
        if path = removed then some (guarded.store.epoch + 1)
        else guarded.store.tombstones.get? path := by
  have fence := Store.fence_removeSubtree guarded.store guarded.now removed
  refine ⟨congrArg Fence.epoch fence, fun path => ?_⟩
  rw [← Table.get?_put]
  exact congrArg (fun fence => fence.tombstones.get? path) fence

theorem lastRemoved_removeSubtree {removed : Path} :
    LastRemoved policy (calls ++ [.removeSubtree removed]) path epoch ↔
      if path = removed then epoch = ((ofPolicy policy).run calls).store.epoch + 1
      else LastRemoved policy calls path epoch := by
  split
  next same =>
    rw [same, lastRemoved_concat_self, run_concat, (obey_removeSubtree _ _).1, eq_comm]
  next other => exact lastRemoved_concat_of_ne (by simpa [eq_comm] using other)

/-! ## Tombstones of a run -/

/-- What the tombstones of a store keep of the removals in the calls before. -/
structure Recalls (policy : EvictionPolicy) (calls : List StoreCall) (guarded : GuardedStore) :
    Prop where
  past : ∀ path epoch, LastRemoved policy calls path epoch → epoch ≤ guarded.store.epoch
  latest : ∀ path epoch, guarded.store.tombstones.get? path = some epoch →
    LastRemoved policy calls path epoch
  /-- No tombstone goes that an open guard can still run into. -/
  kept : ∀ path epoch, LastRemoved policy calls path epoch →
    ∀ begun ∈ guarded.openEpochs, begun < epoch →
      guarded.store.tombstones.get? path = some epoch
  fresh : ∀ path epoch, guarded.store.tombstones.get? path = some epoch →
    (∃ begun ∈ guarded.openEpochs, begun < epoch) ∨ FreshlyRemoved policy calls path

theorem recalls_nil (policy : EvictionPolicy) : Recalls policy [] (ofPolicy policy) := by
  have nothing : ∀ path epoch, ¬LastRemoved policy [] path epoch := by
    rintro path epoch ⟨before, after, split, _⟩
    simp at split
  constructor
  · exact fun path epoch removed => absurd removed (nothing path epoch)
  · exact fun path epoch found => nomatch found
  · exact fun path epoch removed => absurd removed (nothing path epoch)
  · exact fun path epoch found => nomatch found

section Step

variable (consistent : ((ofPolicy policy).run calls).Consistent)
  (recalls : Recalls policy calls ((ofPolicy policy).run calls))

include recalls

theorem Recalls.removeSubtree (removed : Path) :
    Recalls policy (calls ++ [.removeSubtree removed])
      (((ofPolicy policy).run calls).obey (.removeSubtree removed)) := by
  obtain ⟨present, tombstones⟩ := obey_removeSubtree ((ofPolicy policy).run calls) removed
  constructor
  · intro path epoch isLast
    rw [lastRemoved_removeSubtree] at isLast
    rw [present]
    split at isLast
    · exact Nat.le_of_eq isLast
    · exact Nat.le_succ_of_le (recalls.past path epoch isLast)
  · intro path epoch found
    rw [tombstones] at found
    rw [lastRemoved_removeSubtree]
    split at found
    next same => simpa [same, eq_comm] using found
    next other => simpa [other] using recalls.latest path epoch found
  · intro path epoch isLast begun opened later
    rw [lastRemoved_removeSubtree] at isLast
    rw [tombstones]
    split at isLast
    next same => rw [if_pos same, isLast]
    next other => rw [if_neg other, recalls.kept path epoch isLast begun opened later]
  · intro path epoch found
    rw [tombstones] at found
    split at found
    next same => exact Or.inr (same ▸ freshlyRemoved_last)
    next other => exact (recalls.fresh path epoch found).imp id fun fresh => fresh.concat rfl

theorem Recalls.obey_of_keeps (keeps : ((ofPolicy policy).run calls).endsGuard call = false)
    (other : ∀ path, call ≠ .removeSubtree path) :
    Recalls policy (calls ++ [call]) (((ofPolicy policy).run calls).obey call) := by
  have tombstones := tombstones_obey_of_keeps keeps other
  have present : (((ofPolicy policy).run calls).obey call).store.epoch =
      ((ofPolicy policy).run calls).store.epoch := epoch_obey other
  constructor
  · intro path epoch removed
    rw [lastRemoved_concat_of_ne (other path)] at removed
    rw [present]
    exact recalls.past path epoch removed
  · intro path epoch found
    rw [tombstones] at found
    exact (lastRemoved_concat_of_ne (other path)).mpr (recalls.latest path epoch found)
  · intro path epoch removed begun opened later
    rw [lastRemoved_concat_of_ne (other path)] at removed
    rw [tombstones]
    rcases mem_openEpochs_obey opened with earlier | rfl
    · exact recalls.kept path epoch removed begun earlier later
    · exact absurd later (Nat.not_lt_of_le (recalls.past path epoch removed))
  · intro path epoch found
    rw [tombstones] at found
    rcases recalls.fresh path epoch found with ⟨begun, opened, later⟩ | fresh
    · exact Or.inl ⟨begun, openEpochs_subset_obey keeps opened, later⟩
    · exact Or.inr (fresh.concat keeps)

include consistent

/-- The tombstones after a guard ended. -/
theorem Recalls.get?_tombstones (ends : ((ofPolicy policy).run calls).endsGuard call = true)
    (path : Path) (epoch : Epoch) :
    (((ofPolicy policy).run calls).obey call).store.tombstones.get? path = some epoch ↔
      LastRemoved policy (calls ++ [call]) path epoch ∧
        ∃ oldest, IsLeast (((ofPolicy policy).run calls).obey call).openEpochs oldest ∧
          oldest < epoch := by
  have other : call ≠ .removeSubtree path := by
    rintro rfl
    cases ends
  rw [consistent.get?_tombstones_obey ends, lastRemoved_concat_of_ne other]
  constructor
  · rintro ⟨found, older⟩
    exact ⟨recalls.latest path epoch found, older⟩
  · rintro ⟨removed, oldest, isLeast, older⟩
    refine ⟨?_, oldest, isLeast, older⟩
    rcases mem_openEpochs_obey isLeast.1 with earlier | rfl
    · exact recalls.kept path epoch removed oldest earlier older
    · exact absurd older (Nat.not_lt_of_le (recalls.past path epoch removed))

theorem Recalls.obey_of_ends (ends : ((ofPolicy policy).run calls).endsGuard call = true) :
    Recalls policy (calls ++ [call]) (((ofPolicy policy).run calls).obey call) := by
  have other : ∀ path, call ≠ .removeSubtree path := by
    rintro path rfl
    cases ends
  have collected := recalls.get?_tombstones consistent ends
  constructor
  · intro path epoch removed
    rw [lastRemoved_concat_of_ne (other path)] at removed
    rw [epoch_obey other]
    exact recalls.past path epoch removed
  · exact fun path epoch found => ((collected path epoch).mp found).1
  · intro path epoch removed begun opened later
    obtain ⟨oldest, isLeast, older⟩ := (consistent.obey call).exists_oldest opened
    exact (collected path epoch).mpr ⟨removed, oldest, isLeast, Nat.lt_of_le_of_lt older later⟩
  · intro path epoch found
    obtain ⟨_, oldest, isLeast, older⟩ := (collected path epoch).mp found
    exact Or.inl ⟨oldest, isLeast.1, older⟩

end Step

theorem recalls_run (policy : EvictionPolicy) (calls : List StoreCall) :
    Recalls policy calls ((ofPolicy policy).run calls) := by
  induction calls using List.reverseRecOn with
  | nil => exact recalls_nil policy
  | append_singleton calls call inductionHypothesis =>
      rw [run_concat]
      by_cases ends : ((ofPolicy policy).run calls).endsGuard call = true
      · exact inductionHypothesis.obey_of_ends ((consistent_ofPolicy policy).run calls) ends
      · by_cases isRemoval : ∃ path, call = .removeSubtree path
        · obtain ⟨path, rfl⟩ := isRemoval
          exact inductionHypothesis.removeSubtree path
        · rw [not_exists] at isRemoval
          exact inductionHypothesis.obey_of_keeps (eq_false_of_ne_true ends) isRemoval

/-- The last of some calls ended a guard. -/
def JustEnded (policy : EvictionPolicy) (calls : List StoreCall) : Prop :=
  ∃ before call, calls = before ++ [call] ∧
    ((ofPolicy policy).run before).endsGuard call = true

/-- The tombstones of a store after some calls. -/
structure Collected (policy : EvictionPolicy) (calls : List StoreCall) : Prop where
  distinct : ((ofPolicy policy).run calls).store.tombstones.Distinct
  /-- Right after a guard ended, they are those of the latest removals that are younger than the
  oldest guard still open. -/
  exact : JustEnded policy calls →
    ∀ path epoch, (path, epoch) ∈ ((ofPolicy policy).run calls).store.tombstones ↔
      LastRemoved policy calls path epoch ∧
        ∃ oldest, IsLeast ((ofPolicy policy).run calls).openEpochs oldest ∧ oldest < epoch
  none : JustEnded policy calls → ((ofPolicy policy).run calls).guards = [] →
    ((ofPolicy policy).run calls).store.tombstones = []
  /-- At any time, a tombstone is that of the latest removal at its path, and either an open guard
  can still run into it or no guard has ended since. -/
  fresh : ∀ path epoch, (path, epoch) ∈ ((ofPolicy policy).run calls).store.tombstones →
    LastRemoved policy calls path epoch ∧
      ((∃ begun ∈ ((ofPolicy policy).run calls).openEpochs, begun < epoch) ∨
        FreshlyRemoved policy calls path)

theorem tombstones_collected (policy : EvictionPolicy) (calls : List StoreCall) :
    Collected policy calls := by
  have consistent := (consistent_ofPolicy policy).run calls
  have recalls := recalls_run policy calls
  have distinct := consistent.remembers.distinct
  have exact : JustEnded policy calls → ∀ path epoch,
      (path, epoch) ∈ ((ofPolicy policy).run calls).store.tombstones ↔
        LastRemoved policy calls path epoch ∧
          ∃ oldest, IsLeast ((ofPolicy policy).run calls).openEpochs oldest ∧ oldest < epoch := by
    rintro ⟨before, call, rfl, ends⟩ path epoch
    rw [Table.mem_iff_get? distinct, run_concat]
    exact (recalls_run policy before).get?_tombstones ((consistent_ofPolicy policy).run before)
      ends path epoch
  refine ⟨distinct, exact, fun ended noGuards => ?_, fun path epoch member => ?_⟩
  · refine List.eq_nil_iff_forall_not_mem.mpr fun (path, epoch) member => ?_
    obtain ⟨_, oldest, isLeast, _⟩ := (exact ended path epoch).mp member
    obtain ⟨name, found⟩ := isLeast.1
    rw [noGuards] at found
    cases found
  · have found := Table.get?_of_mem distinct member
    exact ⟨recalls.latest path epoch found, recalls.fresh path epoch found⟩

/-- Two guards of one epoch hold every tombstone until both have ended; the third guard then holds
those younger than itself. -/
theorem tombstones_collected_of_shared_epoch :
    let calls := [StoreCall.begin "one".toList, .begin "two".toList,
      .removeSubtree "/a".toList, .begin "three".toList, .removeSubtree "/b".toList,
      .removeSubtree "/c".toList, .removeSubtree "/b".toList, .finish "one".toList]
    ((ofPolicy {}).run calls).store.tombstones =
        [("/a".toList, 1), ("/b".toList, 4), ("/c".toList, 3)] ∧
      ((ofPolicy {}).run (calls ++ [.finish "two".toList])).store.tombstones =
        [("/b".toList, 4), ("/c".toList, 3)] ∧
      LastRemoved {} (calls ++ [.finish "two".toList]) "/b".toList 4 := by
  intro calls
  refine ⟨by decide, by decide, ?_⟩
  have collected := tombstones_collected {} (calls ++ [.finish "two".toList])
  exact (collected.fresh "/b".toList 4 (by decide)).1

end GuardedStore

end WatchedTree
