import WatchedTree.Proofs.Store.Entries

/-!
# The order of use

Under a bound on entries, the list of stamps is the inverse of the stamps that the entries bear:
each entry stands in it once, and nothing else does. It is therefore the paths of the entries in
the order of their last use, and the bound is kept by taking them from its front.
-/
namespace WatchedTree

namespace Store

variable {store : Store} {now : Moment} {path : Path} {node : Node}

/-- The paths in the list of stamps, the least recently used first. -/
def byUse (store : Store) : List Path := store.recency.map Prod.snd

theorem byUse_use {after : Store} {stamp : Stamp}
    (recency : after.recency =
      (store.recency.filter fun pair => pair.2 ≠ path) ++ [(stamp, path)]) :
    after.byUse = store.byUse.filter (· ≠ path) ++ [path] := by
  rw [byUse, recency, List.map_append, byUse, List.filter_map]
  rfl

theorem byUse_drop {after : Store}
    (recency : after.recency = store.recency.filter fun pair => pair.2 ≠ path) :
    after.byUse = store.byUse.filter (· ≠ path) := by
  rw [byUse, recency, byUse, List.filter_map]
  rfl

/-- The stamps in use are those of the entries, in increasing order, and lie in the past. -/
structure IsIndexed (store : Store) : Prop where
  distinct : store.entries.Distinct
  increasing : store.recency.Pairwise fun left right => left.1 < right.1
  past : ∀ pair ∈ store.recency, pair.1 < store.clock
  mem_iff : ∀ stamp path, (stamp, path) ∈ store.recency ↔
    ∃ entry, store.entries.get? path = some entry ∧ entry.stamp = stamp

namespace IsIndexed

theorem of_same {after : Store} (indexed : store.IsIndexed)
    (entries : after.entries = store.entries) (recency : after.recency = store.recency)
    (clock : after.clock = store.clock) : after.IsIndexed where
  distinct := entries ▸ indexed.distinct
  increasing := recency ▸ indexed.increasing
  past := by
    rw [recency, clock]
    exact indexed.past
  mem_iff := by
    rw [recency, entries]
    exact indexed.mem_iff

/-! ## Paths in the order of their use -/

theorem nodup_byUse (indexed : store.IsIndexed) : store.byUse.Nodup := by
  refine List.pairwise_map.mpr (indexed.increasing.imp_of_mem ?_)
  rintro ⟨first, path⟩ ⟨second, other⟩ inFirst inSecond earlier (rfl : path = other)
  obtain ⟨entry, found, rfl⟩ := (indexed.mem_iff first path).mp inFirst
  obtain ⟨same, again, rfl⟩ := (indexed.mem_iff second path).mp inSecond
  rw [found] at again
  cases again
  exact Nat.lt_irrefl _ earlier

theorem nodup_stamps (indexed : store.IsIndexed) : (store.recency.map Prod.fst).Nodup :=
  List.pairwise_map.mpr (indexed.increasing.imp Nat.ne_of_lt)

theorem mem_byUse_iff (indexed : store.IsIndexed) :
    path ∈ store.byUse ↔ ∃ entry, store.entries.get? path = some entry := by
  rw [byUse, List.mem_map]
  constructor
  · rintro ⟨⟨stamp, _⟩, member, rfl⟩
    obtain ⟨entry, found, _⟩ := (indexed.mem_iff _ _).mp member
    exact ⟨entry, found⟩
  · rintro ⟨entry, found⟩
    exact ⟨(entry.stamp, path), (indexed.mem_iff _ _).mpr ⟨entry, found, rfl⟩, rfl⟩

theorem get?_of_not_mem_byUse (indexed : store.IsIndexed) (missing : path ∉ store.byUse) :
    store.entries.get? path = none := by
  by_contra found
  obtain ⟨entry, present⟩ := Option.ne_none_iff_exists'.mp found
  exact missing (indexed.mem_byUse_iff.mpr ⟨entry, present⟩)

theorem length_byUse (indexed : store.IsIndexed) : store.byUse.length = store.entries.length := by
  have same : store.byUse.Perm store.entries.keys := by
    refine (List.perm_ext_iff_of_nodup indexed.nodup_byUse indexed.distinct).mpr fun path => ?_
    rw [indexed.mem_byUse_iff, Table.mem_keys_iff]
  rw [same.length_eq, Table.keys, List.length_map]

/-- Stamps are told apart as their paths are. -/
theorem filter_stamp (indexed : store.IsIndexed) {entry : Entry}
    (found : store.entries.get? path = some entry) :
    (store.recency.filter fun pair => pair.1 ≠ entry.stamp) =
      store.recency.filter fun pair => pair.2 ≠ path := by
  apply List.filter_congr
  rintro ⟨stamp, other⟩ member
  obtain ⟨present, inEntries, rfl⟩ := (indexed.mem_iff stamp other).mp member
  have own := (indexed.mem_iff entry.stamp path).mpr ⟨entry, found, rfl⟩
  rw [decide_eq_decide, not_iff_not]
  constructor
  · intro sameStamp
    exact congrArg Prod.snd (List.inj_on_of_nodup_map indexed.nodup_stamps member own sameStamp)
  · rintro (rfl : other = path)
    rw [found] at inEntries
    cases inEntries
    rfl

theorem filter_absent (indexed : store.IsIndexed) (absent : store.entries.get? path = none) :
    (store.recency.filter fun pair => pair.2 ≠ path) = store.recency := by
  rw [List.filter_eq_self]
  rintro ⟨stamp, other⟩ member
  obtain ⟨entry, found, _⟩ := (indexed.mem_iff stamp other).mp member
  rw [decide_eq_true_eq]
  rintro (rfl : other = path)
  rw [absent] at found
  cases found

/-- Under a bound, a path is stamped anew in the place of the stamp that it had. -/
theorem restamp (indexed : store.IsIndexed) {bound : Nat}
    (bounded : store.policy.maxEntries = some bound) (path : Path) :
    store.restamp ((store.entries.get? path).map (·.stamp)) path =
      (store.clock,
        { store with
          clock := store.clock + 1
          recency :=
            (store.recency.filter fun pair => pair.2 ≠ path) ++ [(store.clock, path)] }) := by
  unfold Store.restamp
  simp only [bounded]
  cases found : store.entries.get? path with
  | none =>
      rw [indexed.filter_absent found]
      rfl
  | some entry =>
      rw [← indexed.filter_stamp found]
      rfl

/-- A path that is used moves behind all others, with the clock as its stamp. -/
theorem use {after : Store} (indexed : store.IsIndexed) {entry : Entry}
    (stamped : entry.stamp = store.clock)
    (entries : after.entries = store.entries.put path entry)
    (recency : after.recency =
      (store.recency.filter fun pair => pair.2 ≠ path) ++ [(store.clock, path)])
    (clock : after.clock = store.clock + 1) : after.IsIndexed where
  distinct := entries ▸ indexed.distinct.put path entry
  increasing := by
    rw [recency]
    refine List.pairwise_append.mpr
      ⟨indexed.increasing.filter _, List.pairwise_singleton _ _, ?_⟩
    intro pair member newest isNewest
    rw [List.mem_singleton.mp isNewest]
    exact indexed.past pair (List.mem_filter.mp member).1
  past := by
    intro pair member
    rw [recency, List.mem_append, List.mem_singleton] at member
    rw [clock]
    rcases member with old | rfl
    · exact Nat.lt_succ_of_lt (indexed.past pair (List.mem_filter.mp old).1)
    · exact Nat.lt_succ_self _
  mem_iff := by
    intro stamp other
    rw [recency, entries, List.mem_append, List.mem_filter, List.mem_singleton,
      indexed.mem_iff, Table.get?_put, Prod.mk.injEq]
    by_cases same : other = path
    · simp [same, stamped, eq_comm]
    · simp [same]

/-- A path whose entry is dropped leaves the list. -/
theorem drop {after : Store} (indexed : store.IsIndexed)
    (entries : after.entries = store.entries.erase path)
    (recency : after.recency = store.recency.filter fun pair => pair.2 ≠ path)
    (clock : after.clock = store.clock) : after.IsIndexed where
  distinct := entries ▸ indexed.distinct.erase path
  increasing := recency ▸ indexed.increasing.filter _
  past := by
    intro pair member
    rw [recency] at member
    rw [clock]
    exact indexed.past pair (List.mem_filter.mp member).1
  mem_iff := by
    intro stamp other
    rw [recency, entries, List.mem_filter, indexed.mem_iff, Table.get?_erase]
    by_cases same : other = path
    · simp [same]
    · simp [same]

/-- A change of a node that leaves the stamp leaves the list. -/
theorem revise {after : Store} (indexed : store.IsIndexed) {entry : Entry}
    (found : store.entries.get? path = some entry) (node : Node)
    (entries : after.entries = store.entries.put path { entry with node })
    (recency : after.recency = store.recency) (clock : after.clock = store.clock) :
    after.IsIndexed where
  distinct := entries ▸ indexed.distinct.put path _
  increasing := recency ▸ indexed.increasing
  past := by
    rw [recency, clock]
    exact indexed.past
  mem_iff := by
    intro stamp other
    rw [recency, entries, indexed.mem_iff, Table.get?_put]
    by_cases same : other = path
    · simp [same, found]
    · simp [same]

end IsIndexed

/-- The store with a node under the newest stamp, before the bound on entries is enforced. -/
def enter (store : Store) (now : Moment) (node : Node) : Store :=
  { store with
    clock := store.clock + 1
    recency := (store.recency.filter fun pair => pair.2 ≠ node.path) ++ [(store.clock, node.path)]
    entries := store.entries.put node.path
      { node, written := now, accessed := now, stamp := store.clock } }

theorem byUse_enter (store : Store) (now : Moment) (node : Node) :
    (store.enter now node).byUse = store.byUse.filter (· ≠ node.path) ++ [node.path] :=
  byUse_use rfl

namespace IsIndexed

theorem enter (indexed : store.IsIndexed) (now : Moment) (node : Node) :
    (store.enter now node).IsIndexed :=
  indexed.use (rfl : Entry.stamp ⟨node, now, now, store.clock⟩ = store.clock) rfl rfl rfl

/-- A node takes at most one more place. -/
theorem length_enter (indexed : store.IsIndexed) (now : Moment) (node : Node) :
    (store.enter now node).entries.length ≤ store.entries.length + 1 := by
  rw [← (indexed.enter now node).length_byUse, byUse_enter, ← indexed.length_byUse,
    List.length_append]
  exact Nat.succ_le_succ (List.length_filter_le _ _)

theorem place_eq (indexed : store.IsIndexed) {bound : Nat}
    (bounded : store.policy.maxEntries = some bound) (now : Moment) (node : Node) :
    store.place now node = (store.enter now node).enforceCapacity node.path := by
  have restamped := indexed.restamp bounded node.path
  unfold place Store.write
  simp only [restamped]
  rfl

/-- An offer that is stored enters, and then the bound takes what it demands; any other one changes
nothing. -/
theorem upsert_eq (indexed : store.IsIndexed) {bound : Nat}
    (bounded : store.policy.maxEntries = some bound) (now : Moment) (node : Node) (epoch : Epoch) :
    (store.upsert now node epoch).2 =
      if (store.upsert now node epoch).1.isStored then
        (store.enter now node).enforceCapacity node.path
      else store := by
  rw [upsert_snd, indexed.place_eq bounded]

end IsIndexed

/-! ## The bound -/

/-- One entry too many costs the least recently used one, unless that is the one to keep. -/
theorem evict_of_excess {bound : Nat} {keep victim : Path} {entries : Table Path Entry}
    {entry : Entry} {others : List (Stamp × Path)} (excess : bound < entries.length)
    (fits : (entries.erase victim).length ≤ bound) (spared : victim ≠ keep)
    (found : entries.get? victim = some entry) :
    evict bound keep ((entry.stamp, victim) :: others) entries [] =
      (entries.erase victim, others) := by
  rw [evict, if_neg (by omega), if_neg spared, found]
  simp only [if_true]
  cases others with
  | nil => rfl
  | cons next rest => rw [evict, if_pos fits, List.nil_append]

theorem evict_of_fitting {bound : Nat} {entries : Table Path Entry}
    (fits : entries.length ≤ bound) (keep : Path) (stamps : List (Stamp × Path)) :
    evict bound keep stamps entries [] = (entries, stamps) := by
  cases stamps with
  | nil => rfl
  | cons oldest others => rw [evict, if_pos fits, List.nil_append]

/-- What is left of a store when only some of its paths stay. -/
structure Retains (after before : Store) (kept : List Path) : Prop where
  indexed : after.IsIndexed
  byUse : after.byUse = kept
  entries : ∀ path ∈ kept, after.entries.get? path = before.entries.get? path

/-- A stamp anywhere in the list is that of an entry, and the stamps around it are those of the
other paths. -/
theorem IsIndexed.amid (indexed : store.IsIndexed) {stamp : Stamp} {victim : Path}
    {first rest : List (Stamp × Path)} (stamps : store.recency = first ++ (stamp, victim) :: rest) :
    (∃ entry, store.entries.get? victim = some entry ∧ entry.stamp = stamp) ∧
      first ++ rest = store.recency.filter fun pair => pair.2 ≠ victim := by
  have listed : (stamp, victim) ∈ store.recency := by simp [stamps]
  have distinct := indexed.nodup_byUse
  rw [byUse, stamps, List.map_append, List.map_cons, List.nodup_middle, List.nodup_cons,
    ← List.map_append] at distinct
  refine ⟨(indexed.mem_iff stamp victim).mp listed, ?_⟩
  rw [stamps, List.filter_append, List.filter_cons_of_neg (by simp), ← List.filter_append, eq_comm,
    List.filter_eq_self]
  rintro ⟨other, path⟩ member
  rw [decide_eq_true_eq]
  rintro (rfl : path = victim)
  exact distinct.1 (List.mem_map.mpr ⟨(other, path), member, rfl⟩)

/-- The oldest stamp is that of an entry, and the other stamps are those of the other paths. -/
theorem IsIndexed.oldest (indexed : store.IsIndexed) {stamp : Stamp} {victim : Path}
    {others : List (Stamp × Path)} (stamps : store.recency = (stamp, victim) :: others) :
    victim ∉ others.map Prod.snd ∧
      (∃ entry, store.entries.get? victim = some entry ∧ entry.stamp = stamp) ∧
      others = store.recency.filter fun pair => pair.2 ≠ victim := by
  have stamped : store.recency = [] ++ (stamp, victim) :: others := stamps
  obtain ⟨entry, isRest⟩ := indexed.amid stamped
  rw [List.nil_append] at isRest
  refine ⟨?_, entry, isRest⟩
  rw [isRest]
  simp

/-- The first of several different paths is not the last. -/
theorem first_ne_newest {victim keep : Path} {others older : List Path}
    (fresh : victim ∉ others) (several : others ≠ [])
    (newest : victim :: others = older ++ [keep]) : victim ≠ keep := by
  rintro rfl
  cases older with
  | nil => exact several (List.cons_eq_cons.mp newest).2
  | cons first rest =>
      have inOthers : others = rest ++ [victim] := (List.cons_eq_cons.mp newest).2
      exact fresh (by simp [inOthers])

/-- With one entry too many and the newest one to keep, the bound takes the oldest. -/
theorem IsIndexed.retains_enforceCapacity {bound : Nat} {keep : Path} {older : List Path}
    (indexed : store.IsIndexed) (positive : 1 ≤ bound)
    (bounded : store.policy.maxEntries = some bound)
    (almost : store.entries.length ≤ bound + 1) (newest : store.byUse = older ++ [keep]) :
    (store.enforceCapacity keep).Retains store (store.byUse.drop (store.byUse.length - bound)) := by
  rw [Store.enforceCapacity, bounded]
  simp only
  have length := indexed.length_byUse
  by_cases fits : store.entries.length ≤ bound
  · rw [evict_of_fitting fits, length, Nat.sub_eq_zero_of_le fits, List.drop_zero]
    exact ⟨indexed, rfl, fun _ _ => rfl⟩
  · cases stamps : store.recency with
    | nil =>
        rw [byUse, stamps, List.map_nil, List.length_nil] at length
        omega
    | cons pair others =>
        obtain ⟨stamp, victim⟩ := pair
        obtain ⟨fresh, ⟨entry, found, rfl⟩, others_eq⟩ := indexed.oldest stamps
        have paths : store.byUse = victim :: others.map Prod.snd := by
          rw [byUse, stamps, List.map_cons]
        rw [paths, List.length_cons, List.length_map] at length
        have several : others.map Prod.snd ≠ [] := by
          rw [ne_eq, ← List.length_eq_zero_iff, List.length_map]
          omega
        have spared := first_ne_newest fresh several (paths.symm.trans newest)
        have dropped : ({ store with
            entries := store.entries.erase victim, recency := others } : Store).IsIndexed :=
          indexed.drop rfl others_eq rfl
        have remaining := dropped.length_byUse
        simp only [byUse, List.length_map] at remaining
        have oneTooMany : others.length + 1 - bound = 1 := by omega
        rw [evict_of_excess (Nat.lt_of_not_le fits) (by omega) spared found, paths,
          List.length_cons, List.length_map, oneTooMany, List.drop_one, List.tail_cons]
        refine ⟨dropped, rfl, fun path member => ?_⟩
        have apart : path ≠ victim := fun same => fresh (same ▸ member)
        exact (Table.get?_erase _ _ _).trans (if_neg apart)

end Store

end WatchedTree
