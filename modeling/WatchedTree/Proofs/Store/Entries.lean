import WatchedTree.Proofs.Path.Cover
import WatchedTree.Proofs.Store.Fence
import WatchedTree.Proofs.Text.Sorting

/-!
# The entries of a store

What a reader finds after each call. A removal takes away what its path covers and hands over the
live nodes of it, each once; a store without bounds keeps all that it is given.
-/
namespace WatchedTree

namespace Store

variable {store : Store} {now later : Moment} {path key : Path} {node : Node} {epoch : Epoch}

/-! ## Offers -/

/-- The store with a node written in the place of the entry that its path had, if any. -/
def place (store : Store) (now : Moment) (node : Node) : Store :=
  store.write now node ((store.entries.get? node.path).map (·.stamp))

/-- What may become of an offer. -/
inductive Answers (store : Store) (now : Moment) (node : Node) (epoch : Epoch) :
    Upsert × Store → Prop
  | deleted (removed : store.deletedSince node.path epoch = true) :
      Answers store now node epoch (.deleted, store)
  | stale {old : Node} (kept : store.deletedSince node.path epoch = false)
      (live : store.peek now node.path = some old) (older : node.isOlderThan old = true) :
      Answers store now node epoch (.stale, store)
  | inserted (kept : store.deletedSince node.path epoch = false)
      (vacant : store.peek now node.path = none) :
      Answers store now node epoch (.inserted, store.place now node)
  | replaced {old : Node} (kept : store.deletedSince node.path epoch = false)
      (live : store.peek now node.path = some old) (notOlder : node.isOlderThan old = false) :
      Answers store now node epoch (.replaced old, store.place now node)

theorem answers_upsert (store : Store) (now : Moment) (node : Node) (epoch : Epoch) :
    store.Answers now node epoch (store.upsert now node epoch) := by
  have view : store.peek now node.path = (store.live? now node.path).map (·.node) := rfl
  have placed : store.place now node =
      store.write now node ((store.entries.get? node.path).map (·.stamp)) := rfl
  rw [live?] at view
  rw [upsert]
  by_cases removed : store.deletedSince node.path epoch = true
  · rw [if_pos removed]
    exact .deleted removed
  · have kept := eq_false_of_ne_true removed
    rw [if_neg removed]
    cases found : store.entries.get? node.path with
    | none =>
        rw [found] at view placed
        exact placed ▸ .inserted kept view
    | some entry =>
        rw [found] at view placed
        by_cases expired : store.isExpired now entry = true
        · simp only [if_pos expired] at view ⊢
          exact placed ▸ .inserted kept view
        · simp only [if_neg expired] at view ⊢
          by_cases older : node.isOlderThan entry.node = true
          · rw [if_pos older]
            exact .stale kept view older
          · rw [if_neg older]
            exact placed ▸ .replaced kept view (eq_false_of_ne_true older)

/-- An offer that is stored puts its node in place, and any other one changes nothing. -/
theorem upsert_snd (store : Store) (now : Moment) (node : Node) (epoch : Epoch) :
    (store.upsert now node epoch).2 =
      if (store.upsert now node epoch).1.isStored then store.place now node else store := by
  have answers := answers_upsert store now node epoch
  generalize store.upsert now node epoch = answer at answers ⊢
  cases answers <;> rfl

/-! ## Properties of all entries -/

/-- No path is stored twice, and what is stored at a path has a property. -/
structure Keeps (store : Store) (property : Path → Node → Prop) : Prop where
  distinct : store.entries.Distinct
  nodes : ∀ path entry, store.entries.get? path = some entry → property path entry.node

/-- Entries of the one store are entries of the other, with the same nodes. -/
structure Within (after before : Store) : Prop where
  distinct : before.entries.Distinct → after.entries.Distinct
  nodes : ∀ path entry, after.entries.get? path = some entry →
    ∃ old, before.entries.get? path = some old ∧ entry.node = old.node

theorem Within.of_entries {after before : Store} (same : after.entries = before.entries) :
    after.Within before := by
  refine ⟨fun distinct => same ▸ distinct, ?_⟩
  intro path entry found
  exact ⟨entry, same ▸ found, rfl⟩

theorem Within.trans {first second third : Store} (left : first.Within second)
    (right : second.Within third) : first.Within third := by
  refine ⟨fun distinct => left.distinct (right.distinct distinct), ?_⟩
  intro path entry found
  obtain ⟨middle, inMiddle, sameNode⟩ := left.nodes path entry found
  obtain ⟨old, present, sameOld⟩ := right.nodes path middle inMiddle
  exact ⟨old, present, sameNode.trans sameOld⟩

theorem Within.empty {after before : Store} (within : after.Within before)
    (empty : before.entries = []) : after.entries = [] := by
  refine Table.eq_nil_of_forall_get? fun path entry found => ?_
  obtain ⟨old, nowhere, _⟩ := within.nodes path entry found
  rw [empty] at nowhere
  cases nowhere

theorem Keeps.within {after before : Store} {property : Path → Node → Prop}
    (keeps : before.Keeps property) (within : after.Within before) : after.Keeps property := by
  refine ⟨within.distinct keeps.distinct, ?_⟩
  intro path entry found
  obtain ⟨old, present, sameNode⟩ := within.nodes path entry found
  rw [sameNode]
  exact keeps.nodes path old present

theorem within_erase {after : Store} (erased : after.entries = store.entries.erase path) :
    after.Within store := by
  refine ⟨fun distinct => erased ▸ distinct.erase path, ?_⟩
  intro key entry found
  rw [erased, Table.get?_erase] at found
  split at found
  · cases found
  · exact ⟨entry, found, rfl⟩

theorem evict_within (bound : Nat) (keep : Path) (stamps : List (Stamp × Path))
    (entries : Table Path Entry) (spared : List (Stamp × Path)) :
    (entries.Distinct → (evict bound keep stamps entries spared).1.Distinct) ∧
      ∀ path entry, (evict bound keep stamps entries spared).1.get? path = some entry →
        entries.get? path = some entry := by
  induction stamps generalizing entries spared with
  | nil => exact ⟨id, fun _ _ found => found⟩
  | cons pair others inductionHypothesis =>
      obtain ⟨stamp, victim⟩ := pair
      rw [evict]
      split
      · exact ⟨id, fun _ _ found => found⟩
      · split
        · exact inductionHypothesis entries _
        · cases found : entries.get? victim with
          | none => exact inductionHypothesis entries _
          | some entry =>
              simp only
              split
              · obtain ⟨distinct, nodes⟩ := inductionHypothesis (entries.erase victim) spared
                refine ⟨fun before => distinct (before.erase victim), ?_⟩
                intro path entry left
                have kept := nodes path entry left
                rw [Table.get?_erase] at kept
                split at kept
                · cases kept
                · exact kept
              · exact inductionHypothesis entries _

theorem within_enforceCapacity (store : Store) (keep : Path) :
    (store.enforceCapacity keep).Within store := by
  unfold enforceCapacity
  cases store.policy.maxEntries with
  | none => exact Within.of_entries rfl
  | some bound =>
      obtain ⟨distinct, nodes⟩ := evict_within bound keep store.recency store.entries []
      exact ⟨distinct, fun path entry found => ⟨entry, nodes path entry found, rfl⟩⟩

theorem within_get (store : Store) (now : Moment) (path : Path) :
    (store.get now path).2.Within store := by
  unfold get
  cases found : store.entries.get? path with
  | none => exact Within.of_entries rfl
  | some entry =>
      simp only
      split
      · exact within_erase rfl
      · refine ⟨fun distinct => distinct.put path _, ?_⟩
        intro key other kept
        rw [Table.get?_put] at kept
        split at kept
        next same =>
          cases kept
          exact ⟨entry, same ▸ found, rfl⟩
        · exact ⟨other, kept, rfl⟩

theorem within_remove (store : Store) (now : Moment) (path : Path) :
    (store.remove now path).2.Within store := by
  unfold remove
  split
  · exact Within.of_entries rfl
  · exact within_erase rfl

theorem within_removeEach (now : Moment) (paths : List Path) (store : Store) :
    (removeEach now paths store).2.Within store := by
  induction paths generalizing store with
  | nil => exact Within.of_entries rfl
  | cons path others inductionHypothesis =>
      exact (inductionHypothesis _).trans (within_remove store now path)

theorem within_removeSubtree (store : Store) (now : Moment) (path : Path) :
    (store.removeSubtree now path).2.Within store :=
  (within_removeEach now _ _).trans (Within.of_entries rfl)

theorem within_clear (store : Store) : store.clear.Within store := by
  refine ⟨fun _ => Table.distinct_nil, ?_⟩
  intro path entry found
  cases found

theorem Keeps.put {after : Store} {property : Path → Node → Prop}
    (keeps : store.Keeps property) (entry : Entry) (fits : property path entry.node)
    (put : after.entries = store.entries.put path entry) : after.Keeps property := by
  refine ⟨put ▸ keeps.distinct.put path entry, ?_⟩
  intro key other found
  rw [put, Table.get?_put] at found
  split at found
  next same =>
    cases found
    exact same ▸ fits
  · exact keeps.nodes key other found

theorem Keeps.write {property : Path → Node → Prop} (keeps : store.Keeps property)
    (fits : property node.path node) (now : Moment) (previous : Option Stamp) :
    (store.write now node previous).Keeps property := by
  unfold Store.write
  simp only
  apply Keeps.within _ (within_enforceCapacity _ _)
  exact keeps.put { node, written := now, accessed := now, stamp := store.clock } fits rfl

theorem Keeps.upsert {property : Path → Node → Prop} (keeps : store.Keeps property)
    (fits : property node.path node) (now : Moment) (epoch : Epoch) :
    (store.upsert now node epoch).2.Keeps property := by
  rw [upsert_snd]
  split
  · exact keeps.write fits now _
  · exact keeps

theorem empty_update (store : Store) (now : Moment) (path : Path) (change : Node → Option Node)
    (empty : store.entries = []) : (store.update now path change).2.entries = [] := by
  have missing : store.live? now path = none := by
    rw [live?, empty]
    rfl
  rw [Store.update, missing]
  exact empty

/-! ## What a reader finds -/

theorem live?_eq_some_iff {entry : Entry} :
    store.live? now path = some entry ↔
      store.entries.get? path = some entry ∧ store.isExpired now entry = false := by
  unfold live?
  cases found : store.entries.get? path with
  | none => simp
  | some held =>
      by_cases expired : store.isExpired now held = true
      · simp only [if_pos expired, Option.some.injEq, reduceCtorEq, false_iff, not_and]
        rintro rfl
        simp [expired]
      · simp only [if_neg expired, Option.some.injEq, iff_self_and]
        rintro rfl
        exact eq_false_of_ne_true expired

theorem peek_eq_some_iff :
    store.peek now path = some node ↔
      ∃ entry, store.entries.get? path = some entry ∧ store.isExpired now entry = false ∧
        entry.node = node := by
  rw [peek, Option.map_eq_some_iff]
  simp only [live?_eq_some_iff, and_assoc]

theorem peek_congr {after : Store} (samePolicy : after.policy = store.policy)
    (same : after.entries.get? path = store.entries.get? path) :
    after.peek now path = store.peek now path := by
  unfold peek live? isExpired
  rw [same, samePolicy]

theorem Keeps.of_peek {property : Path → Node → Prop} (keeps : store.Keeps property)
    (found : store.peek now path = some node) : property path node := by
  obtain ⟨entry, present, _, rfl⟩ := peek_eq_some_iff.mp found
  exact keeps.nodes path entry present

/-- Only what a reader finds is changed. -/
theorem Keeps.update {property : Path → Node → Prop} (keeps : store.Keeps property) (now : Moment)
    {change : Node → Option Node}
    (fits : ∀ old new, store.peek now path = some old → property path old →
      change old = some new → property path new) :
    (store.update now path change).2.Keeps property := by
  unfold Store.update
  cases found : store.live? now path with
  | none => exact keeps
  | some entry =>
      simp only
      cases changed : change entry.node with
      | none => exact keeps
      | some new =>
          have peeked : store.peek now path = some entry.node := by
            rw [peek, found]
            rfl
          have newFits := fits entry.node new peeked (keeps.of_peek peeked) changed
          exact keeps.put { entry with node := new } newFits rfl

theorem mem_liveNodes_iff (distinct : store.entries.Distinct) :
    (path, node) ∈ store.liveNodes now ↔ store.peek now path = some node := by
  rw [liveNodes, List.mem_map, peek_eq_some_iff]
  constructor
  · rintro ⟨⟨key, entry⟩, member, same⟩
    obtain ⟨inTable, live⟩ := List.mem_filter.mp member
    cases same
    exact ⟨entry, Table.get?_of_mem distinct inTable, by simpa using live, rfl⟩
  · rintro ⟨entry, found, live, rfl⟩
    refine ⟨(path, entry), List.mem_filter.mpr ⟨Table.mem_of_get? found, ?_⟩, rfl⟩
    simp [live]

theorem distinct_liveNodes (distinct : store.entries.Distinct) (now : Moment) :
    Table.Distinct (store.liveNodes now) := by
  have kept := distinct.filter fun pair => !store.isExpired now pair.2
  unfold Table.Distinct Table.keys at kept ⊢
  rw [liveNodes, List.map_map]
  exact kept

theorem mem_pathsBelow_iff (distinct : store.entries.Distinct) {base : Path} :
    path ∈ store.pathsBelow now base ↔
      Path.isBelow base path = true ∧ ∃ node, store.peek now path = some node := by
  rw [pathsBelow, List.mem_filter, List.mem_map]
  constructor
  · rintro ⟨⟨⟨key, node⟩, member, rfl⟩, below⟩
    exact ⟨below, node, (mem_liveNodes_iff distinct).mp member⟩
  · rintro ⟨below, node, found⟩
    exact ⟨⟨(path, node), (mem_liveNodes_iff distinct).mpr found, rfl⟩, below⟩

/-! ## Removals -/

theorem entries_remove (store : Store) (now : Moment) (path : Path) :
    (store.remove now path).2.entries = store.entries.erase path := by
  unfold remove
  cases found : store.entries.get? path with
  | none => exact (Table.erase_of_not_mem (Table.get?_eq_none_iff.mp found)).symm
  | some entry => rfl

theorem remove_fst (store : Store) (now : Moment) (path : Path) :
    (store.remove now path).1 = store.peek now path := by
  unfold remove peek live?
  cases store.entries.get? path with
  | none => rfl
  | some entry =>
      by_cases expired : store.isExpired now entry = true
      · simp [expired]
      · simp [expired]

theorem peek_remove (store : Store) (now later : Moment) (path key : Path) :
    (store.remove now path).2.peek later key =
      if key = path then none else store.peek later key := by
  have samePolicy : (store.remove now path).2.policy = store.policy :=
    congrArg Fence.policy (fence_remove store now path)
  by_cases same : key = path
  · rw [if_pos same, peek, live?, entries_remove, same, Table.get?_erase_self]
    rfl
  · rw [if_neg same]
    apply peek_congr samePolicy
    rw [entries_remove, Table.get?_erase, if_neg same]

theorem get?_removeEach (now : Moment) (paths : List Path) (store : Store) (key : Path) :
    (removeEach now paths store).2.entries.get? key =
      if key ∈ paths then none else store.entries.get? key := by
  induction paths generalizing store with
  | nil => simp [removeEach]
  | cons path others inductionHypothesis =>
      rw [removeEach]
      simp only
      rw [inductionHypothesis, entries_remove, Table.get?_erase]
      by_cases first : key = path
      · simp [first]
      · simp [first]

theorem removeEach_fst {paths : List Path} (distinct : paths.Nodup) (now : Moment)
    (store : Store) : (removeEach now paths store).1 = paths.filterMap (store.peek now) := by
  induction paths generalizing store with
  | nil => rfl
  | cons path others inductionHypothesis =>
      obtain ⟨fresh, rest⟩ := List.nodup_cons.mp distinct
      have sameOthers : others.filterMap ((store.remove now path).2.peek now) =
          others.filterMap (store.peek now) := by
        apply List.filterMap_congr
        intro key member
        rw [peek_remove, if_neg]
        rintro rfl
        exact fresh member
      rw [removeEach]
      simp only
      rw [inductionHypothesis rest, sameOthers, remove_fst]
      cases found : store.peek now path with
      | none => simp [found]
      | some node => simp [found]

theorem mem_doomed_iff :
    key ∈ store.doomed path ↔ key ∈ store.entries.keys ∧ Path.Covers path key := by
  rw [doomed, mem_sortBy, List.mem_filter, Bool.or_eq_true, decide_eq_true_eq, Path.Covers]

theorem nodup_doomed (distinct : store.entries.Distinct) (path : Path) :
    (store.doomed path).Nodup := by
  rw [doomed, (sortBy_perm _ _).nodup_iff]
  exact List.Nodup.filter _ distinct

theorem peek_eq_none_of_not_mem (missing : key ∉ store.entries.keys) :
    store.peek now key = none := by
  rw [peek, live?, Table.get?_eq_none_iff.mpr missing]
  rfl

theorem get?_removeSubtree (store : Store) (now : Moment) (path key : Path) :
    (store.removeSubtree now path).2.entries.get? key =
      if Path.Covers path key then none else store.entries.get? key := by
  rw [removeSubtree, get?_removeEach]
  by_cases covers : Path.Covers path key
  · rw [if_pos covers]
    by_cases member : key ∈ store.entries.keys
    · rw [if_pos (mem_doomed_iff.mpr ⟨member, covers⟩)]
    · rw [if_neg fun doomed => member (mem_doomed_iff.mp doomed).1]
      exact Table.get?_eq_none_iff.mpr member
  · rw [if_neg covers, if_neg fun doomed => covers (mem_doomed_iff.mp doomed).2]

/-- What a removal covers is gone, and everything else stays. -/
theorem peek_removeSubtree (store : Store) (now later : Moment) (path key : Path) :
    (store.removeSubtree now path).2.peek later key =
      if Path.Covers path key then none else store.peek later key := by
  have left := get?_removeSubtree store now path key
  by_cases covers : Path.Covers path key
  · rw [if_pos covers] at left ⊢
    rw [peek, live?, left]
    rfl
  · rw [if_neg covers] at left ⊢
    exact peek_congr (congrArg Fence.policy (fence_removeSubtree store now path)) left

theorem removeSubtree_fst (distinct : store.entries.Distinct) (now : Moment) (path : Path) :
    (store.removeSubtree now path).1 = (store.doomed path).filterMap (store.peek now) := by
  rw [removeSubtree, removeEach_fst (nodup_doomed distinct path)]
  rfl

/-! ## Stores without bounds -/

/-- Nothing expires, and any number of entries is kept. -/
def IsUnbounded (store : Store) : Prop := store.policy = {}

theorem IsUnbounded.of_fence {after : Store} (unbounded : store.IsUnbounded)
    (same : after.fence.policy = store.fence.policy) : after.IsUnbounded :=
  Eq.trans same unbounded

theorem IsUnbounded.isExpired (unbounded : store.IsUnbounded) (now : Moment) (entry : Entry) :
    store.isExpired now entry = false := by
  rw [Store.isExpired, unbounded]
  rfl

theorem IsUnbounded.peek_eq (unbounded : store.IsUnbounded) (now : Moment) (path : Path) :
    store.peek now path = (store.entries.get? path).map (·.node) := by
  unfold peek live?
  cases store.entries.get? path with
  | none => rfl
  | some entry => simp [unbounded.isExpired]

theorem IsUnbounded.peek_later (unbounded : store.IsUnbounded) (now later : Moment)
    (path : Path) : store.peek later path = store.peek now path := by
  rw [unbounded.peek_eq, unbounded.peek_eq]

/-- What a read leaves at a path: the live entry in use, and no expired one. -/
theorem get?_get (store : Store) (now : Moment) (path key : Path) :
    (store.get now path).2.entries.get? key =
      if key = path then
        (store.live? now path).map fun entry => { entry with accessed := now, stamp := store.clock }
      else store.entries.get? key := by
  rw [get, live?]
  cases found : store.entries.get? path with
  | none =>
      by_cases same : key = path
      · rw [if_pos same, same]
        exact found
      · rw [if_neg same]
  | some entry =>
      by_cases expired : store.isExpired now entry = true
      · simp only [if_pos expired, Table.get?_erase, Option.map_none]
      · simp only [if_neg expired, restamp, Table.get?_put, Option.map_some]

/-- Without a bound on entries, what is written is there. -/
theorem entries_write (noBound : store.policy.maxEntries = none) (now : Moment) (node : Node)
    (previous : Option Stamp) :
    (store.write now node previous).entries =
      store.entries.put node.path
        { node, written := now, accessed := now, stamp := store.clock } := by
  unfold write restamp enforceCapacity
  simp only [noBound]

/-- Without a bound on entries, an offer that is stored adds its node, and any other one changes
nothing. -/
theorem entries_upsert (noBound : store.policy.maxEntries = none) (now : Moment) (node : Node)
    (epoch : Epoch) :
    (store.upsert now node epoch).2.entries =
      if (store.upsert now node epoch).1.isStored then
        store.entries.put node.path
          { node, written := now, accessed := now, stamp := store.clock }
      else store.entries := by
  rw [upsert_snd]
  split
  · exact entries_write noBound now node _
  · rfl

theorem IsUnbounded.peek_write (unbounded : store.IsUnbounded) (now later : Moment) (node : Node)
    (previous : Option Stamp) (key : Path) :
    (store.write now node previous).peek later key =
      if key = node.path then some node else store.peek later key := by
  have entries := entries_write (by rw [unbounded]) now node previous
  have after : (store.write now node previous).IsUnbounded :=
    unbounded.of_fence (congrArg Fence.policy (fence_write store now node previous))
  rw [after.peek_eq, unbounded.peek_eq, entries, Table.get?_put]
  by_cases same : key = node.path
  · simp [same]
  · simp [same]

/-- Reading a node changes nothing but its use. -/
theorem IsUnbounded.peek_get (unbounded : store.IsUnbounded) (now later : Moment)
    (path key : Path) :
    (store.get now path).2.peek later key = store.peek later key := by
  have policy := congrArg Fence.policy (fence_get store now path)
  have after : (store.get now path).2.IsUnbounded := unbounded.of_fence policy
  rw [after.peek_eq, unbounded.peek_eq]
  unfold get
  cases found : store.entries.get? path with
  | none => rfl
  | some entry =>
      have entries : (store.restamp (some entry.stamp) path).2.entries = store.entries := by
        rw [restamp]
      simp only [unbounded.isExpired]
      by_cases same : key = path
      · simp [entries, same, found, Table.get?_put_self]
      · simp [entries, Table.get?_put, same]

/-- An offer is refused and changes nothing, or is stored. -/
theorem IsUnbounded.upsert_cases (unbounded : store.IsUnbounded) (now : Moment) (node : Node)
    (epoch : Epoch) :
    (store.upsert now node epoch).1.isStored = false ∧ (store.upsert now node epoch).2 = store ∨
      (store.upsert now node epoch).1 =
          (match store.peek now node.path with
            | none => .inserted
            | some old => .replaced old) ∧
        ∀ later key, (store.upsert now node epoch).2.peek later key =
          if key = node.path then some node else store.peek later key := by
  have answers := answers_upsert store now node epoch
  have written := fun later key => unbounded.peek_write now later node
    ((store.entries.get? node.path).map (·.stamp)) key
  generalize store.upsert now node epoch = answer at answers ⊢
  cases answers with
  | deleted | stale => exact Or.inl ⟨rfl, rfl⟩
  | inserted _ vacant =>
      rw [vacant]
      exact Or.inr ⟨rfl, written⟩
  | replaced _ live =>
      rw [live]
      exact Or.inr ⟨rfl, written⟩

/-- An offer that is neither late nor refused is stored. -/
theorem IsUnbounded.upsert (unbounded : store.IsUnbounded) (now : Moment)
    (kept : store.deletedSince node.path epoch = false)
    (notOlder : ∀ old, store.peek now node.path = some old → node.isOlderThan old = false) :
    (store.upsert now node epoch).1 =
        (match store.peek now node.path with
          | none => .inserted
          | some old => .replaced old) ∧
      ∀ later key, (store.upsert now node epoch).2.peek later key =
        if key = node.path then some node else store.peek later key := by
  rcases unbounded.upsert_cases now node epoch with ⟨refused, _⟩ | stored
  · have answers := answers_upsert store now node epoch
    generalize store.upsert now node epoch = answer at answers refused
    cases answers with
    | deleted removed =>
        rw [kept] at removed
        cases removed
    | stale _ live older =>
        rw [notOlder _ live] at older
        cases older
    | inserted | replaced => cases refused
  · exact stored

end Store

end WatchedTree
