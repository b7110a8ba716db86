import WatchedTree.Proofs.Store.Indexing

/-!
# The removal of a subtree

A removal takes what a path covers and leaves all else as it is, down to the order of use. It goes
from the longer paths to the shorter ones, and so through every subtree from below, whatever the
names in it. The nodes it hands over are those that it told of while their entries were still there.
-/
namespace WatchedTree

namespace Text

theorem byteLength_eq_sum (text : Text) : byteLength text = (text.map Char.utf8Size).sum := by
  rw [List.sum_eq_foldl, List.foldl_map]
  rfl

/-- A text that goes on is longer. -/
theorem byteLength_lt_append (front : Text) {back : Text} (some : back ≠ []) :
    byteLength front < byteLength (front ++ back) := by
  obtain ⟨letter, rest, rfl⟩ := List.exists_cons_of_ne_nil some
  have positive := letter.utf8Size_pos
  rw [byteLength_eq_sum, byteLength_eq_sum, List.map_append, List.sum_append, List.map_cons,
    List.sum_cons]
  omega

end Text

namespace Path

variable {base path : Path}

/-- What lies below a path is longer. -/
theorem byteLength_lt_of_isBelow (below : isBelow base path = true) :
    Text.byteLength base < Text.byteLength path := by
  rw [isBelow, Bool.and_eq_true] at below
  obtain ⟨isPrefix, goesOn⟩ := below
  obtain ⟨rest, rfl⟩ := List.isPrefixOf_iff_prefix.mp isPrefix
  rw [List.drop_left] at goesOn
  have some : rest ≠ [] := by
    rintro rfl
    cases goesOn
  exact Text.byteLength_lt_append base some

/-- A name that goes on where the last name of a path ends is not covered by the path. -/
theorem not_covers_append (valid : base.IsValid) (notRoot : base ≠ root) {letter : Char}
    (notSlash : letter ≠ '/') (rest : Text) : ¬Covers base (base ++ letter :: rest) := by
  rintro (same | below)
  · have lengths := congrArg List.length same
    simp at lengths
  · obtain ⟨segments, allSegments, rfl⟩ := valid.exists_segments
    have some : segments ≠ [] := by
      rintro rfl
      exact notRoot rfl
    rw [isBelow, List.drop_left, endsWithSlash_ofSegments allSegments] at below
    simp [some, notSlash] at below

/-- A path covers the chains of names that begin with its own. -/
theorem covers_ofSegments_iff {stem whole : List Text}
    (stemSegments : ∀ segment ∈ stem, IsSegment segment)
    (wholeSegments : ∀ segment ∈ whole, IsSegment segment) :
    Covers (ofSegments stem) (ofSegments whole) ↔ stem <+: whole := by
  rw [Covers, isBelow_ofSegments stemSegments wholeSegments]
  constructor
  · rintro (same | ⟨back, _, rfl⟩)
    · rw [ofSegments_injective wholeSegments stemSegments same]
    · exact List.prefix_append stem back
  · rintro ⟨back, rfl⟩
    by_cases empty : back = []
    · exact Or.inl (by rw [empty, List.append_nil])
    · exact Or.inr ⟨back, empty, rfl⟩

end Path

namespace Store

variable {store : Store} {now : Moment} {path key : Path}

/-! ## The order of a removal -/

/-- The paths to be removed go from the longer to the shorter ones, and ties by their bytes. -/
theorem pairwise_doomed (distinct : store.entries.Distinct) (path : Path) :
    (store.doomed path).Pairwise fun first second => deeperFirst first second = true := by
  have sorted : (store.doomed path).Pairwise fun first second =>
      deeperFirst second first = false := isStrict_deeperFirst.pairwise_sortBy _
  refine (sorted.and (nodup_doomed distinct path)).imp ?_
  rintro first second ⟨notAfter, different⟩
  by_contra notBefore
  exact different (eq_of_not_deeperFirst notAfter (eq_false_of_ne_true notBefore))

theorem not_isBelow_of_deeperFirst {first second : Path}
    (deeper : deeperFirst first second = true) : Path.isBelow first second = false := by
  rw [← Bool.not_eq_true]
  intro below
  have longer := Path.byteLength_lt_of_isBelow below
  rcases deeperFirst_eq_true_iff.mp deeper with shorter | ⟨same, _⟩
  · exact Nat.lt_asymm longer shorter
  · exact Nat.ne_of_lt longer same

/-- What a removal takes: the live paths that its path covers, each once and before its ancestors,
by decreasing length in bytes and, where these tie, in the order of the bytes. -/
structure Takes (store : Store) (now : Moment) (path : Path) (keys : List Path) : Prop where
  nodup : keys.Nodup
  mem_iff : ∀ key, key ∈ keys ↔ Path.Covers path key ∧ store.contains now key = true
  inOrder : keys.Pairwise fun first second =>
    Text.byteLength second < Text.byteLength first ∨
      Text.byteLength first = Text.byteLength second ∧ Text.before first second = true
  fromBelow : keys.Pairwise fun first second => Path.isBelow first second = false

theorem takes_doomed (distinct : store.entries.Distinct) (now : Moment) (path : Path) :
    store.Takes now path ((store.doomed path).filter (store.contains now)) where
  nodup := (nodup_doomed distinct path).filter _
  mem_iff := by
    intro key
    rw [List.mem_filter, mem_doomed_iff, and_assoc]
    constructor
    · exact fun held => held.2
    · rintro ⟨covers, live⟩
      refine ⟨?_, covers, live⟩
      by_contra missing
      rw [contains, peek_eq_none_of_not_mem missing] at live
      cases live
  inOrder := ((pairwise_doomed distinct path).filter _).imp deeperFirst_eq_true_iff.mp
  fromBelow := ((pairwise_doomed distinct path).filter _).imp not_isBelow_of_deeperFirst

/-- The nodes handed over are those at the live paths taken. -/
theorem removeSubtree_fst_map (distinct : store.entries.Distinct) (now : Moment) (path : Path) :
    (store.removeSubtree now path).1.map some =
      ((store.doomed path).filter (store.contains now)).map (store.peek now) := by
  rw [removeSubtree_fst distinct]
  induction store.doomed path with
  | nil => rfl
  | cons key others inductionHypothesis =>
      cases found : store.peek now key with
      | none => simp [contains, found, inductionHypothesis]
      | some node => simp [contains, found, inductionHypothesis]

/-! ## Telling of each node -/

/-- The removal of some entries as a loop that tells of each live node while its entry is still
there, and notes the node. -/
def removeEachTelling {Told : Type} (tell : Told → Node → Told) (now : Moment) :
    List Path → Store → Told → List Node → Told × List Node × Store
  | [], store, told, removed => (told, removed, store)
  | path :: paths, store, told, removed =>
    match store.entries.get? path with
    | none => removeEachTelling tell now paths store told removed
    | some entry =>
      let dropped := { store.unstamp entry.stamp with entries := store.entries.erase path }
      if store.isExpired now entry then removeEachTelling tell now paths dropped told removed
      else removeEachTelling tell now paths dropped (tell told entry.node) (removed ++ [entry.node])

/-- What is told is what is noted, in the same order. -/
theorem removeEachTelling_eq {Told : Type} (tell : Told → Node → Told) (now : Moment)
    (paths : List Path) (store : Store) (told : Told) (removed : List Node) :
    removeEachTelling tell now paths store told removed =
      ((removeEach now paths store).1.foldl tell told, removed ++ (removeEach now paths store).1,
        (removeEach now paths store).2) := by
  induction paths generalizing store told removed with
  | nil => simp [removeEachTelling, removeEach]
  | cons path others inductionHypothesis =>
      rw [removeEachTelling, removeEach, remove]
      cases store.entries.get? path with
      | none => simpa using inductionHypothesis store told removed
      | some entry =>
          by_cases expired : store.isExpired now entry = true
          · simp [expired, inductionHypothesis]
          · simp [expired, inductionHypothesis]

/-- The removal of a subtree that tells of each live node it removes. -/
def removeSubtreeTelling {Told : Type} (tell : Told → Node → Told) (store : Store) (now : Moment)
    (path : Path) (told : Told) : Told × List Node × Store :=
  let epoch := store.epoch + 1
  removeEachTelling tell now (store.doomed path)
    { store with epoch, tombstones := store.tombstones.put path epoch } told []

theorem removeSubtreeTelling_eq {Told : Type} (tell : Told → Node → Told) (store : Store)
    (now : Moment) (path : Path) (told : Told) :
    store.removeSubtreeTelling tell now path told =
      ((store.removeSubtree now path).1.foldl tell told, store.removeSubtree now path) := by
  rw [removeSubtreeTelling, removeEachTelling_eq, List.nil_append]
  rfl

/-! ## The order of use after a removal -/

theorem IsIndexed.recency_remove (indexed : store.IsIndexed) (now : Moment) (path : Path) :
    (store.remove now path).2.recency = store.recency.filter fun pair => pair.2 ≠ path := by
  unfold remove
  cases found : store.entries.get? path with
  | none => exact (indexed.filter_absent found).symm
  | some entry => exact indexed.filter_stamp found

theorem IsCapped.recency_removeEach {bound : Nat} (capped : store.IsCapped bound) (now : Moment)
    (paths : List Path) :
    (Store.removeEach now paths store).2.recency =
      store.recency.filter fun pair => pair.2 ∉ paths := by
  induction paths generalizing store with
  | nil => simp [Store.removeEach]
  | cons path others inductionHypothesis =>
      rw [Store.removeEach]
      simp only
      rw [inductionHypothesis (capped.remove now path), capped.indexed.recency_remove,
        List.filter_filter]
      apply List.filter_congr
      intro pair _
      simp [Bool.and_comm]

theorem IsCapped.recency_removeSubtree {bound : Nat} (capped : store.IsCapped bound)
    (now : Moment) (path : Path) :
    (store.removeSubtree now path).2.recency =
      store.recency.filter fun pair => ¬Path.Covers path pair.2 := by
  have buried : ({ store with
      epoch := store.epoch + 1
      tombstones := store.tombstones.put path (store.epoch + 1) } : Store).IsCapped bound :=
    capped.of_same ⟨rfl, rfl, rfl, rfl⟩
  rw [Store.removeSubtree, buried.recency_removeEach]
  apply List.filter_congr
  rintro ⟨stamp, key⟩ member
  obtain ⟨entry, found, _⟩ := (capped.indexed.mem_iff stamp key).mp member
  have held := Table.mem_keys_iff.mpr ⟨entry, found⟩
  simp [mem_doomed_iff, held]

end Store

namespace GuardedStore

/-- The order of use that a removal leaves, with or without a bound on entries. -/
theorem recency_removeSubtree (policy : EvictionPolicy) (calls : List StoreCall) (now : Moment)
    (path : Path) :
    let store := ((ofPolicy policy).run calls).store
    (store.removeSubtree now path).2.recency =
      store.recency.filter fun pair => ¬Path.Covers path pair.2 := by
  intro store
  cases bounded : policy.maxEntries with
  | none =>
      have unlisted : store.IsUnlisted := isUnlisted_run bounded calls
      rw [(unlisted.removeSubtree now path).empty, unlisted.empty, List.filter_nil]
  | some bound =>
      have capped : store.IsCapped bound := isCapped_run bounded calls
      exact capped.recency_removeSubtree now path

theorem distinct_run (policy : EvictionPolicy) (calls : List StoreCall) :
    ((ofPolicy policy).run calls).store.entries.Distinct :=
  keeps_run (·.entries.Distinct) (fun _ call distinct => distinct_obey distinct call)
    Table.distinct_nil calls

/-- In every run, the removal of a valid path leaves nothing that the path covers, which is the
chains of names that begin with its own, and every other entry with its node, its ages and its place
in the order of use. It hands over the live nodes covered, each once, by decreasing length of their
paths and so from below, which are those that it told of in this order. It counts one removal more,
and spares the names that only begin as the last name of the path does. -/
theorem removeSubtree_exact (policy : EvictionPolicy) (calls : List StoreCall) {path : Path}
    (valid : path.IsValid) :
    let guarded := (ofPolicy policy).run calls
    let store := guarded.store
    let removed := (store.removeSubtree guarded.now path).1
    let after := (guarded.obey (.removeSubtree path)).store
    (∀ key, after.entries.get? key =
      if Path.Covers path key then none else store.entries.get? key) ∧
    (∃ stem, path = Path.ofSegments stem ∧
      ∀ whole, (∀ segment ∈ whole, Path.IsSegment segment) →
        (Path.Covers path (Path.ofSegments whole) ↔ stem <+: whole)) ∧
    after.recency = store.recency.filter (fun pair => ¬Path.Covers path pair.2) ∧
    (∃ keys, store.Takes guarded.now path keys ∧
      removed.map some = keys.map (store.peek guarded.now)) ∧
    (∀ (Told : Type) (tell : Told → Node → Told) (told : Told),
      store.removeSubtreeTelling tell guarded.now path told =
        (removed.foldl tell told, removed, after)) ∧
    after.epoch = store.epoch + 1 ∧
    ∀ letter rest, path ≠ Path.root → letter ≠ '/' →
      after.entries.get? (path ++ letter :: rest) =
        store.entries.get? (path ++ letter :: rest) := by
  intro guarded store removed after
  have entries : ∀ key, after.entries.get? key =
      if Path.Covers path key then none else store.entries.get? key :=
    Store.get?_removeSubtree store guarded.now path
  have distinct : store.entries.Distinct := distinct_run policy calls
  refine ⟨entries, ?_, recency_removeSubtree policy calls guarded.now path,
    ⟨_, Store.takes_doomed distinct guarded.now path,
      Store.removeSubtree_fst_map distinct guarded.now path⟩,
    fun Told tell told => Store.removeSubtreeTelling_eq tell store guarded.now path told,
    congrArg Fence.epoch (Store.fence_removeSubtree store guarded.now path), ?_⟩
  · obtain ⟨stem, stemSegments, rfl⟩ := valid.exists_segments
    exact ⟨stem, rfl, fun whole => Path.covers_ofSegments_iff stemSegments⟩
  · intro letter rest notRoot notSlash
    rw [entries, if_neg (Path.not_covers_append valid notRoot notSlash rest)]

/-- Letters of several bytes make a path longer, an expired entry goes without a word, and a name
that goes on where the path ends stays. -/
theorem removeSubtree_exact_of_shared_prefix :
    let policy : EvictionPolicy := { maxEntries := some 9, expireAfterWrite := some 5 }
    let calls : List StoreCall :=
      [.upsert { path := "/a/x".toList } .present, .advance 5,
        .upsert { path := "/a".toList } .present, .upsert { path := "/ab".toList } .present,
        .upsert { path := "/a/é".toList } .present, .upsert { path := "/a/b".toList } .present]
    let guarded := (ofPolicy policy).run calls
    let path := "/a".toList
    let removed := (guarded.store.removeSubtree guarded.now path).1
    Path.IsValid path ∧ removed.map (·.path) = ["/a/é".toList, "/a/b".toList, path] ∧
      (∃ keys, guarded.store.Takes guarded.now path keys ∧
        removed.map some = keys.map (guarded.store.peek guarded.now)) ∧
      (guarded.obey (.removeSubtree path)).store.entries.get? "/ab".toList =
        guarded.store.entries.get? "/ab".toList := by
  intro policy calls guarded path removed
  have valid : Path.IsValid path := by decide
  obtain ⟨entries, _, _, takes, _, _, _⟩ := removeSubtree_exact policy calls valid
  refine ⟨valid, by decide +kernel, takes, ?_⟩
  rw [entries]
  decide +kernel

end GuardedStore

end WatchedTree
