import WatchedTree.Proofs.Store.Expiry
import WatchedTree.Proofs.Store.Indexing

/-!
# The bound on entries and expiry

The bound counts what is stored, and expired entries are stored until they are touched. What it
takes is the least recently used entry, so that an entry which has expired by its last use goes
before every live one. One that was read after it was written may expire by its last write and yet
be the more recently used; it is the only kind that costs a live entry its place.
-/
namespace WatchedTree

/-- The entry was read since its last write, and has expired by that write and not by its last
use. -/
structure EvictionPolicy.IsOutdated (policy : EvictionPolicy) (now : Moment) (entry : Entry) :
    Prop where
  read : entry.written < entry.accessed
  byWrite : Store.isOverAge policy.expireAfterWrite entry.written now = true
  notByUse : Store.isOverAge policy.expireAfterAccess entry.accessed now = false

namespace Store

variable {store after before : Store} {now : Moment} {path key : Path} {entry : Entry}
  {bound : Nat}

/-! ## The order of use and the moments of use -/

/-- Stamps and moments lie in the past, no write is later than the last use, and what bears the
earlier stamp was not used later. -/
structure IsDated (store : Store) (now : Moment) : Prop where
  stamped : ∀ path entry, store.entries.get? path = some entry → entry.stamp < store.clock
  written : ∀ path entry, store.entries.get? path = some entry → entry.written ≤ entry.accessed
  used : ∀ path entry, store.entries.get? path = some entry → entry.accessed ≤ now
  ordered : ∀ path other first second, store.entries.get? path = some first →
    store.entries.get? other = some second → first.stamp < second.stamp →
      first.accessed ≤ second.accessed

/-- What a call does to stamps and moments: an entry has those that its path had, or the next stamp
and the present moment as that of its use. -/
structure Follows (after before : Store) (now : Moment) : Prop where
  clock : before.clock ≤ after.clock
  entries : ∀ path entry, after.entries.get? path = some entry →
    (∃ old, before.entries.get? path = some old ∧ entry.stamp = old.stamp ∧
      entry.written = old.written ∧ entry.accessed = old.accessed) ∨
    entry.stamp = before.clock ∧ entry.written ≤ now ∧ entry.accessed = now ∧
      before.clock < after.clock

theorem Follows.of_kept (clock : after.clock = before.clock)
    (kept : ∀ path entry, after.entries.get? path = some entry →
      before.entries.get? path = some entry) : after.Follows before now where
  clock := Nat.le_of_eq clock.symm
  entries := fun path entry found => Or.inl ⟨entry, kept path entry found, rfl, rfl, rfl⟩

theorem Follows.of_same (same : after.HoldsSame before) : after.Follows before now :=
  .of_kept same.clock fun _ _ found => same.entries ▸ found

theorem Follows.of_put {fresh : Entry} (stamped : fresh.stamp = before.clock)
    (written : fresh.written ≤ now) (used : fresh.accessed = now)
    (clock : after.clock = before.clock + 1)
    (kept : ∀ path entry, after.entries.get? path = some entry →
      (before.entries.put key fresh).get? path = some entry) : after.Follows before now where
  clock := clock ▸ Nat.le_succ _
  entries := by
    intro path entry found
    have present := kept path entry found
    rw [Table.get?_put] at present
    by_cases same : path = key
    · rw [if_pos same] at present
      cases present
      exact Or.inr ⟨stamped, written, used, clock ▸ Nat.lt_succ_self _⟩
    · rw [if_neg same] at present
      exact Or.inl ⟨entry, present, rfl, rfl, rfl⟩

theorem clock_enforceCapacity (store : Store) (keep : Path) :
    (store.enforceCapacity keep).clock = store.clock := by
  unfold enforceCapacity
  cases store.policy.maxEntries <;> rfl

/-- What was used earlier has reached its limit earlier. -/
theorem isOverAge_anti {limit : Option Span} {since earlier : Moment} (order : earlier ≤ since)
    (isOver : isOverAge limit since now = true) : isOverAge limit earlier now = true := by
  cases limit with
  | none => cases isOver
  | some span =>
      simp only [isOverAge, decide_eq_true_eq] at isOver ⊢
      exact Nat.le_trans isOver (Nat.sub_le_sub_left order now)

theorem get?_of_enforceCapacity {keep : Path}
    (found : (store.enforceCapacity keep).entries.get? path = some entry) :
    store.entries.get? path = some entry := by
  unfold enforceCapacity at found
  cases bounded : store.policy.maxEntries with
  | none =>
      rw [bounded] at found
      exact found
  | some bound =>
      rw [bounded] at found
      exact (evict_within bound keep store.recency store.entries []).2 path entry found

theorem follows_write (store : Store) (now : Moment) (node : Node) (previous : Option Stamp) :
    (store.write now node previous).Follows store now := by
  let written : Entry := { node, written := now, accessed := now, stamp := store.clock }
  exact Follows.of_put (rfl : written.stamp = store.clock) (Nat.le_refl now) rfl
    (clock_enforceCapacity _ _) fun path entry found => get?_of_enforceCapacity found

theorem follows_upsert (store : Store) (now : Moment) (node : Node) (epoch : Epoch) :
    (store.upsert now node epoch).2.Follows store now := by
  rw [upsert_snd]
  split
  · exact follows_write store now node _
  · exact .of_kept rfl fun _ _ found => found

theorem IsDated.follows_get (dated : store.IsDated now) (path : Path) :
    (store.get now path).2.Follows store now := by
  unfold Store.get
  cases found : store.entries.get? path with
  | none => exact .of_kept rfl fun _ _ held => held
  | some entry =>
      simp only
      split
      · refine .of_kept rfl fun key other held => ?_
        simp only [Table.get?_erase] at held
        split at held
        · cases held
        · exact held
      · let used : Entry := { entry with accessed := now, stamp := store.clock }
        have written : used.written ≤ now :=
          Nat.le_trans (dated.written path entry found) (dated.used path entry found)
        exact .of_put (rfl : used.stamp = store.clock) written rfl rfl fun _ _ held => held

theorem follows_update (store : Store) (now : Moment) (path : Path)
    (change : Node → Option Node) : (store.update now path change).2.Follows store now := by
  unfold Store.update
  cases live : store.live? now path with
  | none => exact .of_kept rfl fun _ _ held => held
  | some entry =>
      obtain ⟨found, _⟩ := live?_eq_some_iff.mp live
      simp only
      cases change entry.node with
      | none => exact .of_kept rfl fun _ _ held => held
      | some node =>
          refine ⟨Nat.le_refl _, fun key other held => Or.inl ?_⟩
          simp only [Table.get?_put] at held
          by_cases same : key = path
          · rw [if_pos same] at held
            cases held
            exact ⟨entry, same ▸ found, rfl, rfl, rfl⟩
          · rw [if_neg same] at held
            exact ⟨other, held, rfl, rfl, rfl⟩

theorem follows_remove (store : Store) (now : Moment) (path : Path) :
    (store.remove now path).2.Follows store now := by
  refine .of_kept ?_ fun key entry found => ?_
  · unfold Store.remove
    cases store.entries.get? path <;> rfl
  · rw [entries_remove, Table.get?_erase] at found
    split at found
    · cases found
    · exact found

theorem clock_removeEach (now : Moment) (paths : List Path) (store : Store) :
    (removeEach now paths store).2.clock = store.clock := by
  induction paths generalizing store with
  | nil => rfl
  | cons path others inductionHypothesis =>
      have first : (store.remove now path).2.clock = store.clock := by
        unfold Store.remove
        cases store.entries.get? path <;> rfl
      exact (inductionHypothesis _).trans first

theorem follows_removeSubtree (store : Store) (now : Moment) (path : Path) :
    (store.removeSubtree now path).2.Follows store now := by
  refine .of_kept (clock_removeEach now _ _) fun key entry found => ?_
  rw [get?_removeSubtree] at found
  split at found
  · cases found
  · exact found

namespace IsDated

theorem of_empty (empty : store.entries = []) : store.IsDated now where
  stamped := by simp [empty]
  written := by simp [empty]
  used := by simp [empty]
  ordered := by simp [empty]

theorem mono {later : Moment} (dated : store.IsDated now) (order : now ≤ later) :
    store.IsDated later where
  stamped := dated.stamped
  written := dated.written
  used := fun path entry found => Nat.le_trans (dated.used path entry found) order
  ordered := dated.ordered

theorem used_of_follows (dated : before.IsDated now) (follows : after.Follows before now)
    (found : after.entries.get? path = some entry) : entry.accessed ≤ now := by
  rcases follows.entries path entry found with ⟨old, held, _, _, same⟩ | ⟨_, _, isNow, _⟩
  · exact same ▸ dated.used path old held
  · exact Nat.le_of_eq isNow

theorem follow (dated : before.IsDated now) (follows : after.Follows before now) :
    after.IsDated now where
  stamped := by
    intro path entry found
    rcases follows.entries path entry found with ⟨old, held, stamp, _⟩ | ⟨stamp, _, _, ticked⟩
    · rw [stamp]
      exact Nat.lt_of_lt_of_le (dated.stamped path old held) follows.clock
    · exact stamp ▸ ticked
  written := by
    intro path entry found
    rcases follows.entries path entry found with
      ⟨old, held, _, written, accessed⟩ | ⟨_, written, isNow, _⟩
    · rw [written, accessed]
      exact dated.written path old held
    · exact isNow ▸ written
  used := fun path entry found => dated.used_of_follows follows found
  ordered := by
    intro path other first second inFirst inSecond earlier
    rcases follows.entries other second inSecond with
      ⟨next, heldNext, nextStamp, _, nextSame⟩ | ⟨_, _, nextNow, _⟩
    · rcases follows.entries path first inFirst with ⟨old, held, stamp, _, same⟩ | ⟨stamp, _⟩
      · rw [stamp, nextStamp] at earlier
        rw [same, nextSame]
        exact dated.ordered path other old next held heldNext earlier
      · -- The next stamp is above all that are in use.
        rw [stamp, nextStamp] at earlier
        exact absurd (dated.stamped other next heldNext) (Nat.lt_asymm earlier)
    · rw [nextNow]
      exact dated.used_of_follows follows inFirst

end IsDated

/-! ## What the bound takes -/

/-- The path that stands first in the list is the one with the lowest stamp. -/
theorem IsIndexed.first_iff (indexed : store.IsIndexed)
    (found : store.entries.get? path = some entry) {stamp : Stamp} {first : Path}
    {rest : List (Stamp × Path)} (stamps : store.recency = (stamp, first) :: rest) :
    first = path ↔ ∀ other held, other ≠ path → store.entries.get? other = some held →
      entry.stamp < held.stamp := by
  have increasing := indexed.increasing
  rw [stamps, List.pairwise_cons] at increasing
  -- Whatever else is held was used after the first.
  have behind : ∀ other held, other ≠ first → store.entries.get? other = some held →
      stamp < held.stamp := by
    intro other held apart inEntries
    have listed := (indexed.mem_iff held.stamp other).mpr ⟨held, inEntries, rfl⟩
    rw [stamps, List.mem_cons] at listed
    rcases listed with isFirst | inRest
    · exact absurd (congrArg Prod.snd isFirst) apart
    · exact increasing.1 _ inRest
  have listed : (stamp, first) ∈ store.recency := stamps ▸ List.mem_cons_self
  obtain ⟨oldest, present, rfl⟩ := (indexed.mem_iff stamp first).mp listed
  constructor
  · rintro rfl other held apart inEntries
    rw [found] at present
    cases present
    exact behind other held apart inEntries
  · intro lowest
    by_contra apart
    have after := lowest first oldest apart present
    exact Nat.lt_asymm after (behind path entry (Ne.symm apart) found)

/-- With one entry too many at most, the bound takes an entry exactly if it is exceeded and nothing
held was used before. -/
theorem IsIndexed.enforceCapacity_eq_none_iff {keep : Path} {older : List Path}
    (indexed : store.IsIndexed) (positive : 1 ≤ bound)
    (bounded : store.policy.maxEntries = some bound)
    (almost : store.entries.length ≤ bound + 1) (newest : store.byUse = older ++ [keep])
    (found : store.entries.get? path = some entry) :
    (store.enforceCapacity keep).entries.get? path = none ↔
      bound < store.entries.length ∧
        ∀ other held, other ≠ path → store.entries.get? other = some held →
          entry.stamp < held.stamp := by
  have retains := indexed.retains_enforceCapacity positive bounded almost newest
  have length := indexed.length_byUse
  have distinct := indexed.nodup_byUse
  have listed : path ∈ store.byUse := indexed.mem_byUse_iff.mpr ⟨entry, found⟩
  have gone : (store.enforceCapacity keep).entries.get? path = none ↔
      path ∉ store.byUse.drop (store.byUse.length - bound) := by
    rw [← retains.byUse, retains.indexed.mem_byUse_iff, ← Option.ne_none_iff_exists', ne_eq,
      not_not]
  rw [gone]
  by_cases fits : store.entries.length ≤ bound
  · rw [length, Nat.sub_eq_zero_of_le fits, List.drop_zero]
    exact ⟨fun missing => absurd listed missing,
      fun excess => absurd fits (Nat.not_le.mpr excess.1)⟩
  · have oneTooMany : store.byUse.length - bound = 1 := by omega
    cases stamps : store.recency with
    | nil =>
        rw [byUse, stamps] at listed
        cases listed
    | cons oldest rest =>
        obtain ⟨stamp, first⟩ := oldest
        have paths : store.byUse = first :: rest.map Prod.snd := by
          rw [byUse, stamps, List.map_cons]
        rw [oneTooMany, paths, List.drop_one, List.tail_cons, ← indexed.first_iff found stamps,
          and_iff_right (Nat.lt_of_not_le fits)]
        rw [paths] at listed distinct
        constructor
        · exact fun missing => ((List.mem_cons.mp listed).resolve_right missing).symm
        · rintro rfl
          exact (List.nodup_cons.mp distinct).1

/-! ## Offers without the bound -/

/-- The store with no bound on its entries. -/
def withoutBound (store : Store) : Store :=
  { store with policy := { store.policy with maxEntries := none } }

theorem upsert_withoutBound_fst (store : Store) (now : Moment) (node : Node) (epoch : Epoch) :
    (store.withoutBound.upsert now node epoch).1 = (store.upsert now node epoch).1 := by
  have expiry : ∀ entry, store.withoutBound.isExpired now entry = store.isExpired now entry :=
    fun _ => rfl
  have refusal : store.withoutBound.deletedSince node.path epoch =
      store.deletedSince node.path epoch := rfl
  have entries : store.withoutBound.entries = store.entries := rfl
  unfold Store.upsert
  rw [refusal, entries]
  split
  · rfl
  · split
    · rfl
    · rw [expiry]
      split
      · rfl
      · split <;> rfl

theorem entries_upsert_withoutBound (store : Store) (now : Moment) (node : Node) (epoch : Epoch) :
    (store.withoutBound.upsert now node epoch).2.entries =
      if (store.upsert now node epoch).1.isStored then (store.enter now node).entries
      else store.entries := by
  rw [entries_upsert rfl, upsert_withoutBound_fst]
  rfl

theorem liveNodes_of_none_expired (fresh : ∀ pair ∈ store.entries,
    store.isExpired now pair.2 = false) : (store.liveNodes now).length = store.entries.length := by
  have all : (store.entries.filter fun pair => !store.isExpired now pair.2) = store.entries := by
    rw [List.filter_eq_self]
    intro pair member
    rw [fresh pair member, Bool.not_false]
  rw [liveNodes, List.length_map, all]

theorem size_of_none_expired (fresh : ∀ pair ∈ store.entries,
    store.isExpired now pair.2 = false) : store.size now = store.entries.length := by
  unfold size
  split
  · exact liveNodes_of_none_expired fresh
  · rfl

end Store

namespace GuardedStore

variable {guarded : GuardedStore}

theorem follows_obey (dated : guarded.store.IsDated guarded.now) (call : StoreCall) :
    (guarded.obey call).store.Follows guarded.store guarded.now := by
  cases call with
  | begin name => exact .of_same (begin_holdsSame guarded name)
  | finish name => exact .of_same (finish_holdsSame guarded name)
  | upsert node choice => exact Store.follows_upsert _ guarded.now node (guarded.epochOf choice)
  | get path => exact dated.follows_get path
  | update path change => exact Store.follows_update _ guarded.now path change
  | remove path => exact Store.follows_remove _ guarded.now path
  | removeSubtree path => exact Store.follows_removeSubtree _ guarded.now path
  | clear => exact .of_kept rfl fun _ _ found => (by cases found)
  | advance span => exact .of_kept rfl fun _ _ found => found

theorem isDated_run (dated : guarded.store.IsDated guarded.now) (calls : List StoreCall) :
    (guarded.run calls).store.IsDated (guarded.run calls).now := by
  induction calls generalizing guarded with
  | nil => exact dated
  | cons call others inductionHypothesis =>
      exact inductionHypothesis
        ((dated.follow (follows_obey dated call)).mono (now_le_obey guarded call))

/-- The store that an offer would leave if there were no bound on entries. -/
def otherwise (guarded : GuardedStore) (node : Node) (choice : EpochChoice) : Store :=
  (guarded.store.withoutBound.upsert guarded.now node (guarded.epochOf choice)).2

theorem policy_otherwise (guarded : GuardedStore) (node : Node) (choice : EpochChoice) :
    (guarded.otherwise node choice).policy = { guarded.store.policy with maxEntries := none } :=
  congrArg Fence.policy (Store.fence_upsert _ _ node _)

theorem distinct_otherwise (distinct : guarded.store.entries.Distinct) (node : Node)
    (choice : EpochChoice) : (guarded.otherwise node choice).entries.Distinct := by
  have keeps : guarded.store.withoutBound.Keeps fun _ _ => True := ⟨distinct, fun _ _ _ => trivial⟩
  exact (keeps.upsert trivial guarded.now _).distinct

theorem isDated_otherwise (dated : guarded.store.IsDated guarded.now)
    (node : Node) (choice : EpochChoice) :
    (guarded.otherwise node choice).IsDated guarded.now := by
  have before : guarded.store.withoutBound.IsDated guarded.now :=
    ⟨dated.stamped, dated.written, dated.used, dated.ordered⟩
  exact before.follow (Store.follows_upsert _ _ node _)

/-- What an offer takes from the entries that there would be without the bound: the least recently
used one if there are too many, and nothing else. -/
theorem lost_iff {bound : Nat} (capped : guarded.store.IsCapped bound) (positive : 1 ≤ bound)
    (node : Node) (choice : EpochChoice) {path : Path} {entry : Entry}
    (found : (guarded.otherwise node choice).entries.get? path = some entry) :
    (guarded.obey (.upsert node choice)).store.entries.get? path = none ↔
      bound < (guarded.otherwise node choice).entries.length ∧
        ∀ other held, other ≠ path →
          (guarded.otherwise node choice).entries.get? other = some held →
            entry.stamp < held.stamp := by
  have entries := Store.entries_upsert_withoutBound guarded.store guarded.now node
    (guarded.epochOf choice)
  have left := capped.indexed.upsert_eq capped.bounded guarded.now node (guarded.epochOf choice)
  have within : guarded.store.entries.length ≤ bound :=
    Nat.le_trans capped.fits (Nat.max_le.mpr ⟨Nat.le_refl bound, positive⟩)
  rw [otherwise, entries] at found
  rw [obey, left, otherwise, entries]
  split at found
  next stored =>
    have almost := Nat.le_trans (capped.indexed.length_enter guarded.now node)
      (Nat.succ_le_succ within)
    rw [if_pos stored, if_pos stored]
    exact (capped.indexed.enter guarded.now node).enforceCapacity_eq_none_iff positive
      capped.bounded almost (Store.byUse_enter _ _ _) found
  next refused =>
    rw [if_neg refused, if_neg refused, found]
    simp only [reduceCtorEq, false_iff, not_and]
    exact fun excess => absurd within (Nat.not_le.mpr excess)

/-- If the least recently used entry is live, only what was read since its last write is expired. -/
theorem isOutdated_of_oldest {store : Store} {now : Moment} {path : Path} {entry : Entry}
    (dated : store.IsDated now) (live : store.live? now path = some entry)
    (oldest : ∀ other held, other ≠ path → store.entries.get? other = some held →
      entry.stamp < held.stamp)
    {other : Path} {held : Entry} (found : store.entries.get? other = some held)
    (expired : store.isExpired now held = true) : store.policy.IsOutdated now held := by
  obtain ⟨inEntries, fresh⟩ := Store.live?_eq_some_iff.mp live
  have apart : other ≠ path := by
    rintro rfl
    rw [inEntries] at found
    cases found
    rw [fresh] at expired
    cases expired
  have earlier : entry.accessed ≤ held.accessed :=
    dated.ordered path other entry held inEntries found (oldest other held apart found)
  rw [Store.isExpired, Bool.or_eq_false_iff] at fresh
  have notByUse : Store.isOverAge store.policy.expireAfterAccess held.accessed now = false := by
    rw [← Bool.not_eq_true]
    intro isOver
    rw [Store.isOverAge_anti earlier isOver] at fresh
    cases fresh.2
  have byWrite : Store.isOverAge store.policy.expireAfterWrite held.written now = true := by
    rw [Store.isExpired, notByUse, Bool.or_false] at expired
    exact expired
  refine ⟨Nat.lt_of_not_le fun unread => ?_, byWrite, notByUse⟩
  have writtenBefore : entry.written ≤ held.written :=
    Nat.le_trans (dated.written path entry inEntries) (Nat.le_trans earlier unread)
  rw [Store.isOverAge_anti writtenBefore byWrite] at fresh
  cases fresh.1

/-- Under a bound of one entry at least and with any limits on ages, an offer costs a live entry its
place exactly if more entries than the bound allows would be stored otherwise, expired ones among
them, and it is the least recently used. The expired ones are then such as were read since their
last write, and have expired by that write and not by their last use; if there are none, more live
entries than the bound allows would exist otherwise. -/
theorem loses_live_iff {policy : EvictionPolicy} {bound : Nat}
    (bounded : policy.maxEntries = some bound) (positive : 1 ≤ bound) (calls : List StoreCall)
    (node : Node) (choice : EpochChoice) (path : Path) (entry : Entry) :
    let guarded := (ofPolicy policy).run calls
    let otherwise := guarded.otherwise node choice
    let after := (guarded.obey (.upsert node choice)).store
    otherwise.live? guarded.now path = some entry →
      (after.entries.get? path = none ↔
        bound < otherwise.entries.length ∧
          ∀ other held, other ≠ path → otherwise.entries.get? other = some held →
            entry.stamp < held.stamp) ∧
      (after.entries.get? path = none →
        (∀ other held, otherwise.entries.get? other = some held →
          otherwise.isExpired guarded.now held = true → policy.IsOutdated guarded.now held) ∧
        (bound < otherwise.size guarded.now ∨
          ∃ other held, otherwise.entries.get? other = some held ∧
            policy.IsOutdated guarded.now held)) := by
  intro guarded otherwise after live
  have capped : guarded.store.IsCapped bound := isCapped_run bounded calls
  have dated : guarded.store.IsDated guarded.now := isDated_run (.of_empty rfl) calls
  have lost := lost_iff capped positive node choice (Store.live?_eq_some_iff.mp live).1
  refine ⟨lost, fun gone => ?_⟩
  obtain ⟨excess, oldest⟩ := lost.mp gone
  have outdated : ∀ other held, otherwise.entries.get? other = some held →
      otherwise.isExpired guarded.now held = true → policy.IsOutdated guarded.now held := by
    intro other held found expired
    have samePolicy : otherwise.policy = { policy with maxEntries := none } := by
      rw [policy_otherwise, policy_run]
    have isOutdated :=
      isOutdated_of_oldest (isDated_otherwise dated node choice) live oldest found expired
    rw [samePolicy] at isOutdated
    exact ⟨isOutdated.read, isOutdated.byWrite, isOutdated.notByUse⟩
  refine ⟨outdated, ?_⟩
  by_cases wasRead : ∃ other held, otherwise.entries.get? other = some held ∧
      policy.IsOutdated guarded.now held
  · exact Or.inr wasRead
  · have noneExpired : ∀ pair ∈ otherwise.entries,
        otherwise.isExpired guarded.now pair.2 = false := by
      rintro ⟨other, held⟩ member
      have distinct := distinct_otherwise capped.indexed.distinct node choice
      have found := Table.get?_of_mem distinct member
      rw [← Bool.not_eq_true]
      exact fun expired => wasRead ⟨other, held, found, outdated other held found expired⟩
    exact Or.inl (by rwa [Store.size_of_none_expired noneExpired])

/-- What was read shortly before it expired by its last write, and long before it would have by its
last use, outlasts a live entry. -/
theorem loses_live_of_read_since :
    let policy : EvictionPolicy :=
      { maxEntries := some 2, expireAfterWrite := some 10, expireAfterAccess := some 8 }
    let calls : List StoreCall :=
      [.upsert { path := "/a".toList } .present, .advance 5, .get "/a".toList,
        .upsert { path := "/b".toList } .present, .advance 4, .get "/a".toList, .advance 1]
    let guarded := (ofPolicy policy).run calls
    let node : Node := { path := "/c".toList }
    let entry : Entry :=
      { node := { path := "/b".toList }, written := 5, accessed := 5, stamp := 2 }
    let otherwise := guarded.otherwise node .present
    1 ≤ 2 ∧ otherwise.live? guarded.now "/b".toList = some entry ∧
      (guarded.obey (.upsert node .present)).store.entries.get? "/b".toList = none ∧
        ∃ other held, otherwise.entries.get? other = some held ∧
          policy.IsOutdated guarded.now held := by
  intro policy calls guarded node entry otherwise
  have live : otherwise.live? guarded.now "/b".toList = some entry := by decide +kernel
  have gone : (guarded.obey (.upsert node .present)).store.entries.get? "/b".toList = none := by
    decide +kernel
  have few : ¬2 < otherwise.size guarded.now := by decide +kernel
  have bounded : policy.maxEntries = some 2 := rfl
  have settled := loses_live_iff bounded (by decide : 1 ≤ 2) calls node .present "/b".toList entry
  refine ⟨by decide, live, gone, ?_⟩
  rcases ((settled live).2 (by decide +kernel)).2 with many | readSince
  · exact absurd many few
  · exact readSince

/-- With no limit on the age since the last use, an expired entry that was read takes the place of a
live one, though no more live entries than the bound allows would exist otherwise. -/
theorem loses_live_to_expired :
    let policy : EvictionPolicy := { maxEntries := some 2, expireAfterWrite := some 10 }
    let calls : List StoreCall :=
      [.upsert { path := "/a".toList } .present, .advance 5,
        .upsert { path := "/b".toList } .present, .advance 4, .get "/a".toList, .advance 1]
    let guarded := (ofPolicy policy).run calls
    let node : Node := { path := "/c".toList }
    let otherwise := guarded.otherwise node .present
    (otherwise.live? guarded.now "/b".toList).isSome = true ∧
      (guarded.obey (.upsert node .present)).store.entries.get? "/b".toList = none ∧
        otherwise.size guarded.now = 2 := by
  decide +kernel

end GuardedStore

end WatchedTree
