import WatchedTree.Cache.State
import WatchedTree.Proofs.Store.Entries

/-!
# A cache and a list of children

What a cache drops when it is brought in line with a list of names, what it tells of that, and
which of the names it asks for.
-/
namespace WatchedTree

namespace CacheEvent

/-- The events that are about a path. -/
def about (events : List CacheEvent) (path : Path) : List CacheEvent :=
  events.filter fun event => event.path = path

@[simp] theorem about_nil (path : Path) : about [] path = [] := rfl

theorem about_cons (event : CacheEvent) (others : List CacheEvent) (path : Path) :
    about (event :: others) path =
      if event.path = path then event :: about others path else about others path := by
  simp [about, List.filter_cons]

theorem about_append (first second : List CacheEvent) (path : Path) :
    about (first ++ second) path = about first path ++ about second path :=
  List.filter_append _ _

theorem mem_about {events : List CacheEvent} {event : CacheEvent} (member : event ∈ events) :
    event ∈ about events event.path :=
  List.mem_filter.mpr ⟨member, decide_eq_true rfl⟩

theorem about_of_invalid {events : List CacheEvent} {path : Path}
    (valid : ∀ event ∈ events, event.path.IsValid) (invalid : ¬ path.IsValid) :
    about events path = [] := by
  apply List.filter_eq_nil_iff.mpr
  intro event member isAbout
  apply invalid
  rw [← of_decide_eq_true isAbout]
  exact valid event member

/-- What is told of a path when one node takes the place of another there. -/
def between (isSame : Node → Node → Bool) : Option Node → Option Node → List CacheEvent
  | none, none => []
  | none, some node => [.nodeCreated node]
  | some node, none => [.nodeDeleted node]
  | some old, some node => if isSame old node then [] else [.nodeChanged node]

theorem between_none (isSame : Node → Node → Bool) (old : Option Node) :
    between isSame old none = old.toList.map .nodeDeleted := by
  cases old <;> rfl

theorem path_of_mem_between {isSame : Node → Node → Bool} {old : Option Node} {node : Node}
    {event : CacheEvent} (member : event ∈ between isSame old (some node)) :
    event.path = node.path := by
  cases old with
  | none =>
      rw [List.mem_singleton.mp member]
      rfl
  | some old =>
      rw [between] at member
      split at member
      · cases member
      · rw [List.mem_singleton.mp member]
        rfl

theorem about_between (isSame : Node → Node → Bool) (old : Option Node) (node : Node)
    (path : Path) :
    about (between isSame old (some node)) path =
      if path = node.path then between isSame old (some node) else [] := by
  by_cases isPath : path = node.path
  · rw [if_pos isPath, about, List.filter_eq_self]
    intro event member
    rw [path_of_mem_between member, isPath]
    exact decide_eq_true rfl
  · rw [if_neg isPath, about, List.filter_eq_nil_iff]
    intro event member
    rw [path_of_mem_between member]
    exact fun same => isPath (of_decide_eq_true same).symm

end CacheEvent

namespace Cache

variable {cache : Cache} {now later : Moment} {path key parent : Path} {names : List Text}

/-- Holds if every cached path is valid and its node carries that path. -/
def IsPlaced (cache : Cache) : Prop :=
  cache.store.Keeps fun path node => path.IsValid ∧ node.path = path

/-- Holds if every cached node carries the path it is cached at, valid or not. -/
def IsKeyed (cache : Cache) : Prop := cache.store.Keeps fun path node => node.path = path

theorem IsPlaced.isKeyed (placed : cache.IsPlaced) : cache.IsKeyed :=
  ⟨placed.distinct, fun path entry found => (placed.nodes path entry found).2⟩

/-! ## Removals -/

theorem removeSubtree_eq (cache : Cache) (now : Moment) (path : Path) :
    (cache.removeSubtree now path).2 =
      { cache with store := (cache.store.removeSubtree now path).2 } := rfl

theorem removeSubtrees_eq (cache : Cache) (now : Moment) (paths : List Path) :
    (removeSubtrees now paths cache).2 =
      { cache with store := (removeSubtrees now paths cache).2.store } := by
  induction paths generalizing cache with
  | nil => rfl
  | cons path others inductionHypothesis =>
      rw [removeSubtrees]
      simp only
      rw [inductionHypothesis, removeSubtree_eq]

@[simp] theorem options_removeSubtree (cache : Cache) (now : Moment) (path : Path) :
    (cache.removeSubtree now path).2.options = cache.options := rfl

@[simp] theorem phase_removeSubtree (cache : Cache) (now : Moment) (path : Path) :
    (cache.removeSubtree now path).2.phase = cache.phase := rfl

/-- What holds of a store through every removal holds after several of them. -/
theorem removeSubtrees_induction {motive : Store → Prop}
    (step : ∀ store path, motive store → motive (store.removeSubtree now path).2)
    (paths : List Path) (first : motive cache.store) :
    motive (removeSubtrees now paths cache).2.store := by
  induction paths generalizing cache with
  | nil => exact first
  | cons path others inductionHypothesis =>
      rw [removeSubtrees]
      exact inductionHypothesis (step cache.store path first)

theorem peek_removeSubtrees (cache : Cache) (now later : Moment) (paths : List Path)
    (key : Path) :
    (removeSubtrees now paths cache).2.store.peek later key =
      if ∃ path ∈ paths, Path.Covers path key then none else cache.store.peek later key := by
  induction paths generalizing cache with
  | nil => simp [removeSubtrees]
  | cons path others inductionHypothesis =>
      rw [removeSubtrees]
      simp only
      rw [inductionHypothesis, removeSubtree_eq]
      simp only
      rw [Store.peek_removeSubtree]
      by_cases first : Path.Covers path key
      · simp [first]
      · simp [first]

/-- What is told of a path that is dropped. -/
def deletions (cache : Cache) (now : Moment) (path : Path) : List CacheEvent :=
  (cache.store.peek now path).toList.map .nodeDeleted

theorem valid_of_mem_deletions (placed : cache.IsPlaced) {event : CacheEvent}
    (member : event ∈ cache.deletions now path) : path.IsValid := by
  obtain ⟨node, cached, _⟩ := List.mem_map.mp member
  exact (placed.of_peek (Option.mem_toList.mp cached)).1

theorem events_of_nodup (keyed : cache.IsKeyed) (now : Moment) (key : Path)
    {doomed : List Path} (nodup : doomed.Nodup) :
    CacheEvent.about ((doomed.filterMap (cache.store.peek now)).map .nodeDeleted) key =
        if key ∈ doomed then cache.deletions now key else [] := by
  induction doomed with
  | nil => simp
  | cons first others inductionHypothesis =>
      obtain ⟨fresh, rest⟩ := List.nodup_cons.mp nodup
      have tail := inductionHypothesis rest
      cases found : cache.store.peek now first with
      | none =>
          rw [List.filterMap_cons_none found, tail]
          by_cases same : key = first
          · subst same
            simp [fresh, deletions, found]
          · simp [same]
      | some node =>
          have isPath : node.path = first := keyed.of_peek found
          rw [List.filterMap_cons_some found, List.map_cons, CacheEvent.about_cons, tail]
          by_cases same : first = key
          · subst same
            simp [CacheEvent.path, isPath, fresh, deletions, found]
          · simp [CacheEvent.path, isPath, same, Ne.symm same]

/-- A removal tells of each live path that it covers, once. -/
theorem events_removeSubtree (keyed : cache.IsKeyed) (now : Moment) (path key : Path) :
    CacheEvent.about (cache.removeSubtree now path).1 key =
      if Path.Covers path key then cache.deletions now key else [] := by
  have told : (cache.removeSubtree now path).1 =
      ((cache.store.doomed path).filterMap (cache.store.peek now)).map .nodeDeleted := by
    rw [Cache.removeSubtree, ← Store.removeSubtree_fst keyed.distinct]
  rw [told, events_of_nodup keyed now key (Store.nodup_doomed keyed.distinct path)]
  by_cases covers : Path.Covers path key
  · rw [if_pos covers]
    by_cases present : key ∈ cache.store.entries.keys
    · rw [if_pos (Store.mem_doomed_iff.mpr ⟨present, covers⟩)]
    · rw [if_neg fun doomed => present (Store.mem_doomed_iff.mp doomed).1, deletions,
        Store.peek_eq_none_of_not_mem present]
      rfl
  · rw [if_neg covers, if_neg fun doomed => covers (Store.mem_doomed_iff.mp doomed).2]

theorem valid_of_mem_removeSubtree (placed : cache.IsPlaced) {event : CacheEvent}
    (member : event ∈ (cache.removeSubtree now path).1) : event.path.IsValid := by
  have about := CacheEvent.mem_about member
  rw [events_removeSubtree placed.isKeyed] at about
  split at about
  next => exact valid_of_mem_deletions placed about
  next => cases about

theorem IsKeyed.removeSubtree (keyed : cache.IsKeyed) (now : Moment) (path : Path) :
    (cache.removeSubtree now path).2.IsKeyed :=
  Store.Keeps.within keyed (Store.within_removeSubtree cache.store now path)

theorem events_removeSubtrees (keyed : cache.IsKeyed) (now : Moment) (paths : List Path)
    (key : Path) :
    CacheEvent.about (removeSubtrees now paths cache).1 key =
      if ∃ path ∈ paths, Path.Covers path key then cache.deletions now key else [] := by
  induction paths generalizing cache with
  | nil => simp [removeSubtrees]
  | cons path others inductionHypothesis =>
      rw [removeSubtrees]
      simp only
      rw [CacheEvent.about_append, events_removeSubtree keyed,
        inductionHypothesis (keyed.removeSubtree now path)]
      have afterwards : (cache.removeSubtree now path).2.deletions now key =
          if Path.Covers path key then [] else cache.deletions now key := by
        rw [deletions, removeSubtree_eq]
        simp only
        rw [Store.peek_removeSubtree]
        by_cases covers : Path.Covers path key
        · simp [covers]
        · simp [covers, deletions]
      rw [afterwards]
      by_cases covers : Path.Covers path key
      · simp [covers]
      · simp [covers]

theorem node_of_mem_removeSubtrees {paths : List Path} {event : CacheEvent}
    (member : event ∈ (removeSubtrees now paths cache).1) : event.node?.isSome = true := by
  induction paths generalizing cache with
  | nil => cases member
  | cons path others inductionHypothesis =>
      rw [removeSubtrees] at member
      rcases List.mem_append.mp member with isFirst | isLater
      · obtain ⟨node, _, rfl⟩ := List.mem_map.mp isFirst
        rfl
      · exact inductionHypothesis isLater

/-! ## What a list of children leaves out -/

theorem mem_vanished (placed : cache.IsPlaced) :
    path ∈ cache.vanished now parent names ↔
      ∃ key node, cache.store.peek now key = some node ∧ Path.isBelow parent key = true ∧
        Path.firstBelow parent key ∉ names ∧
        path = Path.child parent (Path.firstBelow parent key) := by
  rw [vanished, Text.mem_dropRepeats, Text.mem_sort, List.mem_map]
  constructor
  · rintro ⟨name, member, rfl⟩
    obtain ⟨isFirst, leftOut⟩ := List.mem_filter.mp member
    obtain ⟨key, cached, rfl⟩ := List.mem_map.mp isFirst
    obtain ⟨below, node, found⟩ := (Store.mem_pathsBelow_iff placed.distinct).mp cached
    exact ⟨key, node, found, below, by simpa using leftOut, rfl⟩
  · rintro ⟨key, node, found, below, leftOut, rfl⟩
    have cached := (Store.mem_pathsBelow_iff placed.distinct).mpr ⟨below, node, found⟩
    refine ⟨Path.firstBelow parent key, List.mem_filter.mpr ⟨?_, by simpa using leftOut⟩, rfl⟩
    exact List.mem_map.mpr ⟨key, cached, rfl⟩

/-- What is dropped lies below a step that the list does not name. -/
theorem below_of_covered_vanished (placed : cache.IsPlaced) (parentValid : parent.IsValid)
    (keyValid : key.IsValid)
    (covered : ∃ path ∈ cache.vanished now parent names, Path.Covers path key) :
    Path.isBelow parent key = true ∧ Path.firstBelow parent key ∉ names := by
  obtain ⟨path, member, covers⟩ := covered
  obtain ⟨other, otherNode, otherFound, otherBelow, leftOut, rfl⟩ := (mem_vanished placed).mp member
  have otherValid := (placed.of_peek otherFound).1
  obtain ⟨isSegment, _⟩ := Path.firstBelow_spec parentValid otherValid otherBelow
  have sameStep := Path.firstBelow_of_covers parentValid keyValid isSegment covers
  exact ⟨Path.isBelow_of_covers_child parentValid keyValid isSegment covers, sameStep ▸ leftOut⟩

/-- A cached path is dropped if the list does not name the step towards it. -/
theorem covered_vanished_iff (placed : cache.IsPlaced) (parentValid : parent.IsValid)
    {node : Node} (found : cache.store.peek now key = some node) :
    (∃ path ∈ cache.vanished now parent names, Path.Covers path key) ↔
      Path.isBelow parent key = true ∧ Path.firstBelow parent key ∉ names := by
  have keyValid := (placed.of_peek found).1
  constructor
  · exact below_of_covered_vanished placed parentValid keyValid
  · rintro ⟨below, leftOut⟩
    exact ⟨_, (mem_vanished placed).mpr ⟨key, node, found, below, leftOut, rfl⟩,
      Path.covers_firstBelow parentValid keyValid below⟩

theorem peek_vanish (placed : cache.IsPlaced) (parentValid : parent.IsValid)
    (names : List Text) (key : Path) :
    (removeSubtrees now (cache.vanished now parent names) cache).2.store.peek now key =
      if Path.isBelow parent key = true ∧ Path.firstBelow parent key ∉ names then none
      else cache.store.peek now key := by
  rw [peek_removeSubtrees]
  cases found : cache.store.peek now key with
  | none => simp
  | some node => simp only [covered_vanished_iff placed parentValid found]

theorem events_vanish (placed : cache.IsPlaced) (parentValid : parent.IsValid)
    (names : List Text) (key : Path) :
    CacheEvent.about (removeSubtrees now (cache.vanished now parent names) cache).1 key =
      if Path.isBelow parent key = true ∧ Path.firstBelow parent key ∉ names then
        cache.deletions now key
      else [] := by
  rw [events_removeSubtrees placed.isKeyed, deletions]
  cases found : cache.store.peek now key with
  | none => simp
  | some node => simp only [covered_vanished_iff placed parentValid found]

/-! ## What a list of children asks for -/

theorem mem_wantedChildren {full : Bool} :
    path ∈ cache.wantedChildren now full parent names ↔
      ∃ name ∈ names, path = Path.child parent name ∧ cache.wantsFetch now full path = true := by
  rw [wantedChildren, List.mem_filter, List.mem_map]
  constructor
  · rintro ⟨⟨name, member, rfl⟩, wanted⟩
    exact ⟨name, member, rfl, wanted⟩
  · rintro ⟨name, member, rfl, wanted⟩
    exact ⟨⟨name, member, rfl⟩, wanted⟩

theorem nodup_wantedChildren {full : Bool} (parentValid : parent.IsValid)
    (segments : ∀ name ∈ names, Path.IsSegment name) (nodup : names.Nodup) :
    (cache.wantedChildren now full parent names).Nodup := by
  apply List.Nodup.filter
  apply List.Nodup.map_on _ nodup
  intro first isFirst second isSecond same
  exact Path.child_injective parentValid (segments first isFirst) (segments second isSecond) same

/-! ## What a visit makes of a cache -/

/-- The cache after a fetch has begun, under the present epoch. -/
def begun (cache : Cache) : Cache := { cache with store := cache.store.beginFetch.2 }

/-- The cache after a visit read a node. -/
def received (cache : Cache) (now : Moment) (action : Action) (node : Node) (epoch : Epoch) :
    Cache :=
  if action.isStored then (cache.commit now node epoch).2 else cache

/-- The cache in line with a list of children. -/
def reconciled (cache : Cache) (now : Moment) (parent : Path) (names : List Text) : Cache :=
  (removeSubtrees now (cache.vanished now parent names) cache).2

/-- The cache after a visit has ended. -/
def ended (cache : Cache) (epoch : Epoch) : Cache :=
  { cache with store := cache.store.endFetch epoch }

@[simp] theorem phase_commit (cache : Cache) (now : Moment) (node : Node) (epoch : Epoch) :
    (cache.commit now node epoch).2.phase = cache.phase := by
  unfold commit
  split <;> rfl

@[simp] theorem phase_received (cache : Cache) (now : Moment) (action : Action) (node : Node)
    (epoch : Epoch) : (cache.received now action node epoch).phase = cache.phase := by
  unfold received
  split <;> simp

@[simp] theorem options_commit (cache : Cache) (now : Moment) (node : Node) (epoch : Epoch) :
    (cache.commit now node epoch).2.options = cache.options := by
  unfold commit
  split <;> rfl

@[simp] theorem options_received (cache : Cache) (now : Moment) (action : Action) (node : Node)
    (epoch : Epoch) : (cache.received now action node epoch).options = cache.options := by
  unfold received
  split <;> simp

@[simp] theorem options_reconciled (cache : Cache) (now : Moment) (parent : Path)
    (names : List Text) : (cache.reconciled now parent names).options = cache.options := by
  rw [reconciled, removeSubtrees_eq]

@[simp] theorem phase_reconciled (cache : Cache) (now : Moment) (parent : Path)
    (names : List Text) : (cache.reconciled now parent names).phase = cache.phase := by
  rw [reconciled, removeSubtrees_eq]

theorem fence_received (cache : Cache) (now : Moment) (action : Action) (node : Node)
    (epoch : Epoch) :
    (cache.received now action node epoch).store.fence = cache.store.fence := by
  unfold received commit
  split
  · split
    · rfl
    · exact Store.fence_upsert _ _ _ _
  · rfl

theorem node_of_mem_commit {node : Node} {epoch : Epoch} {event : CacheEvent}
    (member : event ∈ (cache.commit now node epoch).1.toList) : event.node?.isSome = true := by
  unfold commit at member
  split at member
  · cases member
  · obtain ⟨told, _, isEvent⟩ := Option.bind_eq_some_iff.mp (Option.mem_toList.mp member)
    unfold eventOf at isEvent
    split at isEvent
    · cases isEvent
      rfl
    · split at isEvent
      · cases isEvent
      · cases isEvent
        rfl
    · cases isEvent
    · cases isEvent

/-- What a fetch commits is not refused as long as nothing is removed meanwhile. -/
theorem deletedSince_received (remembers : cache.store.Remembers) (now : Moment)
    (action : Action) (node : Node) (path : Path) :
    (cache.begun.received now action node cache.store.epoch).store.deletedSince path
      cache.store.epoch = false := by
  have fence := fence_received cache.begun now action node cache.store.epoch
  have sameEpoch : (cache.begun.received now action node cache.store.epoch).store.epoch =
      cache.store.epoch := congrArg Fence.epoch fence
  have free := (remembers.beginFetch.of_fence fence).deletedSince path
  rw [sameEpoch] at free
  exact free

end Cache

end WatchedTree
