import WatchedTree.Proofs.Path.Descent
import WatchedTree.Proofs.Store.Calls
import WatchedTree.Proofs.Table.Keys

/-!
# The fence against removed nodes

A fetch that is still open is refused exactly at the paths that were removed, alone or with an
ancestor, after it began. The counts of open fetches agree with the guards that are kept, so a
collection never drops a tombstone that an open fetch can still run into.
-/
namespace WatchedTree

/-- The part of a store that is not about its entries: its bounds, and what decides which fetches
are refused. -/
structure Fence where
  policy : EvictionPolicy
  epoch : Epoch
  tombstones : Table Path Epoch
  inFlight : Table Epoch Nat
deriving DecidableEq

namespace Store

def fence (store : Store) : Fence :=
  ⟨store.policy, store.epoch, store.tombstones, store.inFlight⟩

/-! ## Calls that leave the fence as it is -/

@[simp] theorem fence_enforceCapacity (store : Store) (keep : Path) :
    (store.enforceCapacity keep).fence = store.fence := by
  unfold enforceCapacity
  split <;> rfl

@[simp] theorem fence_get (store : Store) (now : Moment) (path : Path) :
    (store.get now path).2.fence = store.fence := by
  unfold get
  split
  · rfl
  · split <;> rfl

@[simp] theorem fence_write (store : Store) (now : Moment) (node : Node)
    (previous : Option Stamp) : (store.write now node previous).fence = store.fence :=
  fence_enforceCapacity _ _

@[simp] theorem fence_upsert (store : Store) (now : Moment) (node : Node) (epoch : Epoch) :
    (store.upsert now node epoch).2.fence = store.fence := by
  unfold upsert
  split
  · rfl
  · split
    · exact fence_write store now node none
    · split
      · exact fence_write _ _ _ _
      · split
        · rfl
        · exact fence_write _ _ _ _

@[simp] theorem fence_update (store : Store) (now : Moment) (path : Path)
    (change : Node → Option Node) : (store.update now path change).2.fence = store.fence := by
  unfold update
  split
  · rfl
  · split <;> rfl

@[simp] theorem fence_remove (store : Store) (now : Moment) (path : Path) :
    (store.remove now path).2.fence = store.fence := by
  unfold remove
  split <;> rfl

@[simp] theorem fence_removeEach (now : Moment) (paths : List Path) (store : Store) :
    (removeEach now paths store).2.fence = store.fence := by
  induction paths generalizing store with
  | nil => rfl
  | cons path others inductionHypothesis =>
      rw [removeEach]
      exact (inductionHypothesis _).trans (fence_remove store now path)

@[simp] theorem fence_clear (store : Store) : store.clear.fence = store.fence := rfl

/-- A removal leaves its tombstone under the next epoch. -/
theorem fence_removeSubtree (store : Store) (now : Moment) (path : Path) :
    (store.removeSubtree now path).2.fence =
      { store.fence with
        epoch := store.epoch + 1
        tombstones := store.tombstones.put path (store.epoch + 1) } := by
  rw [removeSubtree, fence_removeEach]
  rfl

/-! ## Tombstones that refuse an epoch -/

/-- A tombstone at this very path is younger than an epoch. -/
def BuriedAfter (store : Store) (path : Path) (epoch : Epoch) : Prop :=
  ∃ removed, store.tombstones.get? path = some removed ∧ epoch < removed

theorem deletedSince_iff (store : Store) (path : Path) (epoch : Epoch) :
    store.deletedSince path epoch = true ↔
      ∃ ancestor ∈ path.ancestry, store.BuriedAfter ancestor epoch := by
  rw [deletedSince, List.any_eq_true]
  constructor
  · rintro ⟨ancestor, member, buried⟩
    cases found : store.tombstones.get? ancestor with
    | none => simp [found] at buried
    | some removed => exact ⟨ancestor, member, removed, found, by simpa [found] using buried⟩
  · rintro ⟨ancestor, member, removed, found, later⟩
    exact ⟨ancestor, member, by simpa [found] using later⟩

theorem upsert_of_deletedSince {store : Store} {node : Node} {epoch : Epoch} (now : Moment)
    (refused : store.deletedSince node.path epoch = true) :
    store.upsert now node epoch = (.deleted, store) := by
  rw [upsert, if_pos refused]

theorem upsert_eq_deleted_iff (store : Store) (now : Moment) (node : Node) (epoch : Epoch) :
    (store.upsert now node epoch).1 = .deleted ↔ store.deletedSince node.path epoch = true := by
  constructor
  · intro answered
    by_contra notRefused
    rw [upsert, if_neg notRefused] at answered
    split at answered
    · cases answered
    · split at answered
      · cases answered
      · split at answered <;> cases answered
  · intro refused
    rw [upsert_of_deletedSince now refused]

theorem buriedAfter_congr {store other : Store} (same : store.fence = other.fence) (path : Path)
    (epoch : Epoch) : store.BuriedAfter path epoch ↔ other.BuriedAfter path epoch := by
  have tombstones : store.tombstones = other.tombstones := congrArg Fence.tombstones same
  rw [BuriedAfter, BuriedAfter, tombstones]

theorem buriedAfter_removeSubtree {store : Store} {epoch : Epoch} (begun : epoch ≤ store.epoch)
    (now : Moment) (removed path : Path) :
    (store.removeSubtree now removed).2.BuriedAfter path epoch ↔
      path = removed ∨ store.BuriedAfter path epoch := by
  have tombstones := congrArg Fence.tombstones (fence_removeSubtree store now removed)
  simp only [fence] at tombstones
  rw [BuriedAfter, BuriedAfter, tombstones, Table.get?_put]
  by_cases same : path = removed
  · simp [same, Nat.lt_succ_of_le begun]
  · simp [same]

/-! ## Counts of open fetches -/

/-- The table of open fetches counts each epoch as often as it is open, and holds no zero. -/
def Counts (store : Store) (openAt : Epoch → Nat) : Prop :=
  ∀ epoch, store.inFlight.get? epoch = if openAt epoch = 0 then none else some (openAt epoch)

theorem Counts.beginFetch {store : Store} {openAt : Epoch → Nat} (counts : store.Counts openAt) :
    store.beginFetch.2.Counts fun epoch =>
      openAt epoch + if store.epoch = epoch then 1 else 0 := by
  intro epoch
  have present := counts store.epoch
  rw [Store.beginFetch, Table.get?_put]
  by_cases same : epoch = store.epoch
  · subst same
    by_cases zero : openAt store.epoch = 0
    · simp [present, zero]
    · simp [present, zero]
  · simp [same, Ne.symm same, counts epoch]

theorem oldestOpen?_le {store : Store} {openAt : Epoch → Nat} (counts : store.Counts openAt)
    {epoch : Epoch} (isOpen : 0 < openAt epoch) :
    ∃ oldest, store.oldestOpen? = some oldest ∧ oldest ≤ epoch := by
  have member : epoch ∈ store.inFlight.keys := by
    rw [Table.mem_keys_iff, counts epoch, if_neg (Nat.ne_of_gt isOpen)]
    exact ⟨_, rfl⟩
  cases found : store.oldestOpen? with
  | none =>
      rw [oldestOpen?, List.min?_eq_none_iff] at found
      rw [found] at member
      cases member
  | some oldest => exact ⟨oldest, rfl, (List.min?_eq_some_iff.mp found).2 epoch member⟩

theorem Counts.endFetch {store : Store} {openAt remaining : Epoch → Nat} {ended : Epoch}
    (counts : store.Counts openAt)
    (split : ∀ epoch, openAt epoch = remaining epoch + if ended = epoch then 1 else 0) :
    (store.endFetch ended).Counts remaining := by
  intro epoch
  have atEnded := split ended
  have found := counts ended
  rw [if_pos rfl] at atEnded
  rw [if_neg (by omega)] at found
  change (store.discount ended).inFlight.get? epoch = _
  rw [discount, found]
  by_cases last : openAt ended ≤ 1
  · simp only [if_pos last, Table.get?_erase]
    by_cases same : epoch = ended
    · rw [if_pos same, same, if_pos (by omega)]
    · rw [if_neg same, counts epoch, split epoch, if_neg (Ne.symm same), Nat.add_zero]
  · simp only [if_neg last, Table.get?_put]
    by_cases same : epoch = ended
    · rw [if_pos same, same, if_neg (by omega), atEnded, Nat.add_sub_cancel]
    · rw [if_neg same, counts epoch, split epoch, if_neg (Ne.symm same), Nat.add_zero]

/-- No collection drops a tombstone that a fetch still open can run into. -/
theorem buriedAfter_endFetch {store : Store} {remaining : Epoch → Nat} {ended epoch : Epoch}
    (distinct : store.tombstones.Distinct)
    (counts : (store.endFetch ended).Counts remaining)
    (isOpen : 0 < remaining epoch) (path : Path) :
    (store.endFetch ended).BuriedAfter path epoch ↔ store.BuriedAfter path epoch := by
  obtain ⟨oldest, found, isLeast⟩ := oldestOpen?_le counts isOpen
  change (store.discount ended).oldestOpen? = some oldest at found
  have collected : (store.endFetch ended).tombstones =
      store.tombstones.filter fun pair => oldest < pair.2 := by
    rw [endFetch, collect, found]
    rfl
  rw [BuriedAfter, BuriedAfter, collected, Table.get?_filter distinct]
  constructor
  · rintro ⟨removed, kept, later⟩
    obtain ⟨present, _⟩ := Option.filter_eq_some_iff.mp kept
    exact ⟨removed, present, later⟩
  · rintro ⟨removed, present, later⟩
    refine ⟨removed, Option.filter_eq_some_iff.mpr ⟨present, ?_⟩, later⟩
    exact decide_eq_true (Nat.lt_of_le_of_lt isLeast later)

/-! ## Tombstones of the past -/

/-- No path has two tombstones, and none of them is ahead of the epochs. -/
structure Remembers (store : Store) : Prop where
  distinct : store.tombstones.Distinct
  past : ∀ path removed, store.tombstones.get? path = some removed → removed ≤ store.epoch

theorem remembers_of_no_tombstones {store : Store} (none : store.tombstones = []) :
    store.Remembers := by
  constructor
  · rw [none]
    exact Table.distinct_nil
  · rw [none]
    intro path removed found
    cases found

theorem Remembers.of_fence {store after : Store} (remembers : store.Remembers)
    (same : after.fence = store.fence) : after.Remembers := by
  have epoch : after.epoch = store.epoch := congrArg Fence.epoch same
  have tombstones : after.tombstones = store.tombstones := congrArg Fence.tombstones same
  constructor
  · rw [tombstones]
    exact remembers.distinct
  · rw [tombstones, epoch]
    exact remembers.past

theorem Remembers.removeSubtree {store : Store} (remembers : store.Remembers) (now : Moment)
    (path : Path) : (store.removeSubtree now path).2.Remembers := by
  have fence := fence_removeSubtree store now path
  have epoch := congrArg Fence.epoch fence
  have tombstones := congrArg Fence.tombstones fence
  simp only [Store.fence] at epoch tombstones
  constructor
  · rw [tombstones]
    exact remembers.distinct.put path _
  · intro buried removed found
    rw [tombstones, Table.get?_put] at found
    rw [epoch]
    by_cases same : buried = path
    · rw [if_pos same] at found
      cases found
      exact Nat.le_refl _
    · rw [if_neg same] at found
      exact Nat.le_succ_of_le (remembers.past buried removed found)

theorem Remembers.beginFetch {store : Store} (remembers : store.Remembers) :
    store.beginFetch.2.Remembers :=
  ⟨remembers.distinct, remembers.past⟩

theorem Remembers.endFetch {store : Store} (remembers : store.Remembers) (ended : Epoch) :
    (store.endFetch ended).Remembers := by
  have collected : ∃ keep, (store.endFetch ended).tombstones = store.tombstones.filter keep := by
    rw [Store.endFetch, collect]
    cases (store.discount ended).oldestOpen? with
    | none => exact ⟨fun _ => false, by simp⟩
    | some oldest => exact ⟨fun pair => oldest < pair.2, rfl⟩
  obtain ⟨keep, kept⟩ := collected
  constructor
  · rw [kept]
    exact remembers.distinct.filter keep
  · intro path removed found
    rw [kept, Table.get?_filter remembers.distinct] at found
    exact remembers.past path removed (Option.filter_eq_some_iff.mp found).1

/-- A fetch is refused nowhere as long as nothing is removed after it began. -/
theorem Remembers.deletedSince {store : Store} (remembers : store.Remembers) (path : Path) :
    store.deletedSince path store.epoch = false := by
  by_contra refused
  obtain ⟨ancestor, _, removed, found, later⟩ :=
    (deletedSince_iff _ _ _).mp (eq_true_of_ne_false refused)
  exact absurd later (Nat.not_lt_of_le (remembers.past ancestor removed found))

end Store

namespace GuardedStore

/-! ## Guards and the counts that the store keeps of them -/

/-- The counts of the store are those of the guards, and nothing is younger than its epoch. -/
structure Consistent (guarded : GuardedStore) : Prop where
  guardsDistinct : guarded.guards.Distinct
  remembers : guarded.store.Remembers
  counts : guarded.store.Counts guarded.guards.countOf
  guardsBegun : ∀ name epoch, guarded.guards.get? name = some epoch → epoch ≤ guarded.store.epoch

theorem consistent_ofPolicy (policy : EvictionPolicy) : (ofPolicy policy).Consistent where
  guardsDistinct := Table.distinct_nil
  remembers := Store.remembers_of_no_tombstones rfl
  counts := fun _ => rfl
  guardsBegun := by simp [ofPolicy]

theorem Consistent.of_fence {guarded after : GuardedStore} (consistent : guarded.Consistent)
    (sameFence : after.store.fence = guarded.store.fence)
    (sameGuards : after.guards = guarded.guards) : after.Consistent := by
  have epoch : after.store.epoch = guarded.store.epoch := congrArg Fence.epoch sameFence
  have inFlight : after.store.inFlight = guarded.store.inFlight := congrArg Fence.inFlight sameFence
  constructor
  · rw [sameGuards]
    exact consistent.guardsDistinct
  · exact consistent.remembers.of_fence sameFence
  · intro other
    rw [inFlight, sameGuards]
    exact consistent.counts other
  · rw [epoch, sameGuards]
    exact consistent.guardsBegun

theorem Consistent.removeSubtree {guarded : GuardedStore} (consistent : guarded.Consistent)
    (path : Path) : (guarded.obey (.removeSubtree path)).Consistent := by
  have fence := Store.fence_removeSubtree guarded.store guarded.now path
  have epoch := congrArg Fence.epoch fence
  have inFlight := congrArg Fence.inFlight fence
  simp only [Store.fence] at epoch inFlight
  constructor
  · exact consistent.guardsDistinct
  · exact consistent.remembers.removeSubtree guarded.now path
  · intro other
    change (guarded.store.removeSubtree guarded.now path).2.inFlight.get? other = _
    rw [inFlight]
    exact consistent.counts other
  · intro name other found
    change other ≤ (guarded.store.removeSubtree guarded.now path).2.epoch
    rw [epoch]
    exact Nat.le_succ_of_le (consistent.guardsBegun name other found)

/-- The counts after a guard was ended and the other guards stayed. -/
theorem Consistent.counts_finish {guarded : GuardedStore} (consistent : guarded.Consistent)
    {name : Text} {ended : Epoch} (found : guarded.guards.get? name = some ended) :
    (guarded.store.endFetch ended).Counts (guarded.guards.erase name).countOf := by
  apply consistent.counts.endFetch
  intro epoch
  exact (Table.countOf_erase_of_some consistent.guardsDistinct epoch found).symm

/-- The counts after a guard began in the place of another one. -/
theorem Consistent.counts_restart {guarded : GuardedStore} (consistent : guarded.Consistent)
    {name : Text} {ended : Epoch} (found : guarded.guards.get? name = some ended) :
    (guarded.store.beginFetch.2.endFetch ended).Counts
      (guarded.guards.put name guarded.store.epoch).countOf := by
  apply consistent.counts.beginFetch.endFetch
  intro epoch
  exact (Table.countOf_put_of_some guarded.store.epoch epoch found).symm

theorem Consistent.counts_begin {guarded : GuardedStore} (consistent : guarded.Consistent)
    {name : Text} (fresh : guarded.guards.get? name = none) :
    guarded.store.beginFetch.2.Counts
      (guarded.guards.put name guarded.store.epoch).countOf := by
  intro epoch
  rw [Table.countOf_put_of_none guarded.store.epoch epoch fresh]
  exact consistent.counts.beginFetch epoch

theorem Consistent.begin {guarded : GuardedStore} (consistent : guarded.Consistent)
    (name : Text) : (guarded.begin name).2.Consistent := by
  have begun : ∀ other epoch,
      (guarded.guards.put name guarded.store.epoch).get? other = some epoch →
        epoch ≤ guarded.store.epoch := by
    intro other epoch found
    rw [Table.get?_put] at found
    by_cases same : other = name
    · rw [if_pos same] at found
      cases found
      exact Nat.le_refl _
    · rw [if_neg same] at found
      exact consistent.guardsBegun other epoch found
  unfold GuardedStore.begin
  cases found : guarded.guards.get? name with
  | none =>
      exact
        { guardsDistinct := consistent.guardsDistinct.put name _
          remembers := consistent.remembers.beginFetch
          counts := consistent.counts_begin found
          guardsBegun := begun }
  | some ended =>
      exact
        { guardsDistinct := consistent.guardsDistinct.put name _
          remembers := consistent.remembers.beginFetch.endFetch ended
          counts := consistent.counts_restart found
          guardsBegun := begun }

theorem Consistent.finish {guarded : GuardedStore} (consistent : guarded.Consistent)
    (name : Text) : (guarded.finish name).2.Consistent := by
  unfold GuardedStore.finish
  cases found : guarded.guards.get? name with
  | none => exact consistent
  | some ended =>
      refine
        { guardsDistinct := consistent.guardsDistinct.erase name
          remembers := consistent.remembers.endFetch ended
          counts := consistent.counts_finish found
          guardsBegun := ?_ }
      intro other epoch kept
      rw [Table.get?_erase] at kept
      by_cases same : other = name
      · rw [if_pos same] at kept
        cases kept
      · rw [if_neg same] at kept
        exact consistent.guardsBegun other epoch kept

/-- A call that is about neither guards nor removals leaves both as they are. -/
theorem fence_obey_of_isPlain (guarded : GuardedStore) {call : StoreCall}
    (plain : call.isPlain = true) :
    (guarded.obey call).store.fence = guarded.store.fence ∧
      (guarded.obey call).guards = guarded.guards := by
  cases call with
  | begin | finish | removeSubtree => cases plain
  | upsert node choice => exact ⟨Store.fence_upsert _ _ _ _, rfl⟩
  | get path => exact ⟨Store.fence_get _ _ _, rfl⟩
  | update path change => exact ⟨Store.fence_update _ _ _ _, rfl⟩
  | remove path => exact ⟨Store.fence_remove _ _ _, rfl⟩
  | clear => exact ⟨Store.fence_clear _, rfl⟩
  | advance span => exact ⟨rfl, rfl⟩

theorem Consistent.plain {guarded : GuardedStore} (consistent : guarded.Consistent)
    {call : StoreCall} (plain : call.isPlain = true) : (guarded.obey call).Consistent := by
  obtain ⟨sameFence, sameGuards⟩ := fence_obey_of_isPlain guarded plain
  exact consistent.of_fence sameFence sameGuards

theorem Consistent.obey {guarded : GuardedStore} (consistent : guarded.Consistent)
    (call : StoreCall) : (guarded.obey call).Consistent := by
  cases call with
  | begin name => exact consistent.begin name
  | finish name => exact consistent.finish name
  | removeSubtree path => exact consistent.removeSubtree path
  | upsert | get | update | remove | clear | advance => exact consistent.plain rfl

theorem Consistent.run {guarded : GuardedStore} (consistent : guarded.Consistent)
    (calls : List StoreCall) : (guarded.run calls).Consistent := by
  induction calls generalizing guarded with
  | nil => exact consistent
  | cons call others inductionHypothesis => exact inductionHypothesis (consistent.obey call)

/-! ## One guard, from its beginning on -/

/-- A guard is open, and the tombstones it can run into are at the paths removed so far. -/
structure Watches (guarded : GuardedStore) (name : Text) (epoch : Epoch) (removed : List Path) :
    Prop where
  consistent : guarded.Consistent
  isOpen : guarded.guards.get? name = some epoch
  buried : ∀ path, guarded.store.BuriedAfter path epoch ↔ path ∈ removed

theorem store_epoch_begin (guarded : GuardedStore) (name : Text) :
    (guarded.begin name).2.store.epoch = (guarded.begin name).1 := by
  unfold GuardedStore.begin
  cases guarded.guards.get? name <;> rfl

theorem Consistent.watches_begin {guarded : GuardedStore} (consistent : guarded.Consistent)
    (name : Text) : (guarded.begin name).2.Watches name (guarded.begin name).1 [] where
  consistent := consistent.begin name
  isOpen := by simp [GuardedStore.begin, Store.beginFetch]
  buried := by
    intro path
    constructor
    · rintro ⟨removed, found, later⟩
      have past := (consistent.begin name).remembers.past path removed found
      rw [store_epoch_begin] at past
      exact absurd later (Nat.not_lt_of_le past)
    · intro member
      cases member

theorem Watches.of_fence {guarded after : GuardedStore} {name : Text} {epoch : Epoch}
    {removed : List Path} (watches : guarded.Watches name epoch removed)
    (sameFence : after.store.fence = guarded.store.fence)
    (sameGuards : after.guards = guarded.guards) : after.Watches name epoch removed where
  consistent := watches.consistent.of_fence sameFence sameGuards
  isOpen := sameGuards ▸ watches.isOpen
  buried := fun path => (Store.buriedAfter_congr sameFence path epoch).trans (watches.buried path)

theorem Watches.removeSubtree {guarded : GuardedStore} {name : Text} {epoch : Epoch}
    {removed : List Path} (watches : guarded.Watches name epoch removed) (path : Path) :
    (guarded.obey (.removeSubtree path)).Watches name epoch (removed ++ [path]) where
  consistent := watches.consistent.removeSubtree path
  isOpen := watches.isOpen
  buried := by
    intro buried
    have begun := watches.consistent.guardsBegun name epoch watches.isOpen
    have grown := Store.buriedAfter_removeSubtree begun guarded.now path buried
    rw [List.mem_append, List.mem_singleton, ← watches.buried buried, or_comm]
    exact grown

/-- Another guard begins, and with it the one that had its name ends. -/
theorem Watches.begin {guarded : GuardedStore} {name other : Text} {epoch : Epoch}
    {removed : List Path} (watches : guarded.Watches name epoch removed)
    (different : other ≠ name) : (guarded.begin other).2.Watches name epoch removed := by
  have consistent := watches.consistent
  have isOpen : (guarded.guards.put other guarded.store.epoch).get? name = some epoch := by
    rw [Table.get?_put_of_ne _ _ (Ne.symm different)]
    exact watches.isOpen
  refine ⟨consistent.begin other, isOpen, ?_⟩
  intro path
  rw [← watches.buried path]
  unfold GuardedStore.begin
  cases found : guarded.guards.get? other with
  | none => rfl
  | some ended =>
      have distinct := consistent.remembers.beginFetch.distinct
      have counted := Table.countOf_pos_of_get? isOpen
      exact Store.buriedAfter_endFetch distinct (consistent.counts_restart found) counted path

theorem Watches.finish {guarded : GuardedStore} {name other : Text} {epoch : Epoch}
    {removed : List Path} (watches : guarded.Watches name epoch removed)
    (different : other ≠ name) : (guarded.finish other).2.Watches name epoch removed := by
  have consistent := watches.consistent
  unfold GuardedStore.finish
  cases found : guarded.guards.get? other with
  | none => exact watches
  | some ended =>
      have isOpen : (guarded.guards.erase other).get? name = some epoch := by
        rw [Table.get?_erase, if_neg (Ne.symm different)]
        exact watches.isOpen
      have finished := consistent.finish other
      rw [GuardedStore.finish, found] at finished
      refine ⟨finished, isOpen, ?_⟩
      intro path
      rw [← watches.buried path]
      have counted := Table.countOf_pos_of_get? isOpen
      exact Store.buriedAfter_endFetch consistent.remembers.distinct
        (consistent.counts_finish found) counted path

theorem Watches.plain {guarded : GuardedStore} {name : Text} {epoch : Epoch}
    {removed : List Path} (watches : guarded.Watches name epoch removed) {call : StoreCall}
    (plain : call.isPlain = true) : (guarded.obey call).Watches name epoch removed := by
  obtain ⟨sameFence, sameGuards⟩ := fence_obey_of_isPlain guarded plain
  exact watches.of_fence sameFence sameGuards

theorem Watches.obey {guarded : GuardedStore} {name : Text} {epoch : Epoch}
    {removed : List Path} (watches : guarded.Watches name epoch removed) {call : StoreCall}
    (spared : call.spares name) :
    (guarded.obey call).Watches name epoch (removed ++ call.removals) := by
  by_cases isRemoval : ∃ path, call = .removeSubtree path
  · obtain ⟨path, rfl⟩ := isRemoval
    exact watches.removeSubtree path
  · have nothing : call.removals = [] := by
      rw [List.eq_nil_iff_forall_not_mem]
      intro path member
      exact isRemoval ⟨path, StoreCall.mem_removals_iff.mp member⟩
    rw [nothing, List.append_nil]
    cases call with
    | begin other => exact watches.begin spared
    | finish other => exact watches.finish spared
    | removeSubtree path => exact absurd ⟨path, rfl⟩ isRemoval
    | upsert | get | update | remove | clear | advance => exact watches.plain rfl

theorem Watches.run {guarded : GuardedStore} {name : Text} {epoch : Epoch} {removed : List Path}
    (watches : guarded.Watches name epoch removed) {calls : List StoreCall}
    (spared : ∀ call ∈ calls, call.spares name) :
    (guarded.run calls).Watches name epoch (removed ++ calls.flatMap StoreCall.removals) := by
  induction calls generalizing guarded removed with
  | nil => simpa using watches
  | cons call others inductionHypothesis =>
      have first := watches.obey (spared call (by simp))
      have rest := inductionHypothesis first fun other member => spared other (by simp [member])
      simpa [List.append_assoc] using rest

/-! ## What an open guard is refused -/

/-- Some call removed a path, or one that it lies below. -/
def RemovedIn (calls : List StoreCall) (path : Path) : Prop :=
  ∃ removed, .removeSubtree removed ∈ calls ∧
    (removed = path ∨ Path.isBelow removed path = true)

theorem Watches.deletedSince_iff {guarded : GuardedStore} {name : Text} {epoch : Epoch}
    {calls : List StoreCall} {path : Path}
    (watches : guarded.Watches name epoch (calls.flatMap StoreCall.removals))
    (pathValid : path.IsValid)
    (removalsValid : ∀ removed, StoreCall.removeSubtree removed ∈ calls → removed.IsValid) :
    guarded.store.deletedSince path epoch = true ↔ RemovedIn calls path := by
  have isRemoved : ∀ removed,
      guarded.store.BuriedAfter removed epoch ↔ .removeSubtree removed ∈ calls := by
    intro removed
    rw [watches.buried removed, List.mem_flatMap]
    constructor
    · rintro ⟨call, member, isRemoval⟩
      rw [← StoreCall.mem_removals_iff.mp isRemoval]
      exact member
    · intro member
      exact ⟨_, member, StoreCall.mem_removals_iff.mpr rfl⟩
  rw [Store.deletedSince_iff, RemovedIn]
  constructor
  · rintro ⟨ancestor, member, buried⟩
    have called := (isRemoved ancestor).mp buried
    have ancestorValid := removalsValid ancestor called
    exact ⟨ancestor, called, (Path.mem_ancestry_iff pathValid ancestorValid).mp member⟩
  · rintro ⟨removed, called, reaches⟩
    have removedValid := removalsValid removed called
    exact ⟨removed, (Path.mem_ancestry_iff pathValid removedValid).mpr reaches,
      (isRemoved removed).mpr called⟩

/-- In every run, a fetch that is still open is refused at a path exactly when the path or an
ancestor of it was removed after the fetch began. A refused node is answered as deleted, changes
nothing and is told to nobody. -/
theorem refused_iff_removed_since_begin (policy : EvictionPolicy) (before after : List StoreCall)
    (name : Text) (path : Path)
    (pathValid : path.IsValid)
    (removalsValid : ∀ removed, StoreCall.removeSubtree removed ∈ after → removed.IsValid)
    (stillOpen : ∀ call ∈ after, call.spares name) :
    let begun := ((ofPolicy policy).run before).begin name
    let guarded := begun.2.run after
    guarded.guards.get? name = some begun.1 ∧
      (guarded.store.deletedSince path begun.1 = true ↔ RemovedIn after path) ∧
      ∀ node : Node, node.path = path →
        let answer := guarded.store.upsert guarded.now node begun.1
        (answer.1 = .deleted ↔ RemovedIn after path) ∧
          (RemovedIn after path →
            answer.2 = guarded.store ∧ answer.1.notice node = none) := by
  intro begun guarded
  have started : begun.2.Watches name begun.1 [] :=
    ((consistent_ofPolicy policy).run before).watches_begin name
  have watches := started.run stillOpen
  rw [List.nil_append] at watches
  have refused := watches.deletedSince_iff pathValid removalsValid
  refine ⟨watches.isOpen, refused, ?_⟩
  rintro node rfl
  refine ⟨(Store.upsert_eq_deleted_iff _ _ _ _).trans refused, ?_⟩
  intro removed
  have unchanged := Store.upsert_of_deletedSince guarded.now (refused.mpr removed)
  rw [unchanged]
  exact ⟨rfl, rfl⟩

/-- Between two other fetches that begin and end, and through a removal of an ancestor that is made
twice, the fence of a fetch holds. -/
theorem refused_below_removed_twice :
    let before := [StoreCall.begin "old".toList]
    let after := [.removeSubtree "/a".toList, .begin "young".toList, .finish "old".toList,
      .removeSubtree "/a".toList, .finish "young".toList]
    let begun := ((ofPolicy {}).run before).begin "fetch".toList
    (begun.2.run after).store.deletedSince "/a/b".toList begun.1 = true := by
  have fenced := refused_iff_removed_since_begin {} [.begin "old".toList]
    [.removeSubtree "/a".toList, .begin "young".toList, .finish "old".toList,
      .removeSubtree "/a".toList, .finish "young".toList]
    "fetch".toList "/a/b".toList (by decide)
    (by
      intro removed member
      have isAncestor : removed = "/a".toList := by simpa using member
      rw [isAncestor]
      decide)
    (by simp [StoreCall.spares])
  exact fenced.2.1.mpr ⟨"/a".toList, by simp, Or.inr (by decide)⟩

end GuardedStore

end WatchedTree
