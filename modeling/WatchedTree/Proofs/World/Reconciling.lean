import WatchedTree.Proofs.Store.Removal
import WatchedTree.Proofs.World.Deeds
import WatchedTree.Proofs.World.Ledger
import WatchedTree.Proofs.World.Reached

/-!
# A cache in line with a list of children

What a list of children makes a cache drop, in which order it tells of that, and which fetches it
queues. Whatever else is stored stays as it is.
-/
namespace WatchedTree

namespace Cache

variable {cache : Cache} {now : Moment} {path key parent : Path} {names : List Text}

/-! ## The order of the deletions -/

/-- No event is about a path below the path of an earlier one. -/
def FromBelow (events : List CacheEvent) : Prop :=
  events.Pairwise fun first second => Path.isBelow first.path second.path = false

theorem fromBelow_removeSubtree (keyed : cache.IsKeyed) (now : Moment) (path : Path) :
    FromBelow (cache.removeSubtree now path).1 := by
  have told : (cache.removeSubtree now path).1 =
      ((cache.store.doomed path).filterMap (cache.store.peek now)).map .nodeDeleted := by
    rw [Cache.removeSubtree, ← Store.removeSubtree_fst keyed.distinct]
  rw [FromBelow, told, List.pairwise_map, List.pairwise_filterMap]
  refine (Store.pairwise_doomed keyed.distinct path).imp ?_
  intro first second deeper firstNode firstFound secondNode secondFound
  have firstPath : firstNode.path = first := keyed.of_peek firstFound
  have secondPath : secondNode.path = second := keyed.of_peek secondFound
  simp only [CacheEvent.path, firstPath, secondPath]
  exact Store.not_isBelow_of_deeperFirst deeper

theorem IsPlaced.removeSubtree (placed : cache.IsPlaced) (now : Moment) (path : Path) :
    (cache.removeSubtree now path).2.IsPlaced :=
  Store.Keeps.within placed (Store.within_removeSubtree cache.store now path)

theorem covers_of_mem_removeSubtree (keyed : cache.IsKeyed) {event : CacheEvent}
    (member : event ∈ (cache.removeSubtree now path).1) : Path.Covers path event.path := by
  have about := CacheEvent.mem_about member
  rw [events_removeSubtree keyed] at about
  split at about
  next covers => exact covers
  next => cases about

theorem mem_deletions_of_mem_removeSubtrees (keyed : cache.IsKeyed) {paths : List Path}
    {event : CacheEvent} (member : event ∈ (removeSubtrees now paths cache).1) :
    event ∈ cache.deletions now event.path := by
  have about := CacheEvent.mem_about member
  rw [events_removeSubtrees keyed] at about
  split at about
  next => exact about
  next => cases about

/-- Nothing below a path is told of after the removal of the path. -/
theorem fromBelow_removeSubtrees (placed : cache.IsPlaced) {paths : List Path}
    (valid : ∀ path ∈ paths, path.IsValid) : FromBelow (removeSubtrees now paths cache).1 := by
  induction paths generalizing cache with
  | nil => exact List.Pairwise.nil
  | cons path others inductionHypothesis =>
      have pathValid := valid path List.mem_cons_self
      have after := placed.removeSubtree now path
      rw [removeSubtrees, FromBelow, List.pairwise_append]
      have othersValid : ∀ other ∈ others, other.IsValid := fun other member =>
        valid other (List.mem_cons_of_mem _ member)
      refine ⟨fromBelow_removeSubtree placed.isKeyed now path,
        inductionHypothesis after othersValid, ?_⟩
      intro first inFirst second inSecond
      rw [← Bool.not_eq_true]
      intro below
      have left := mem_deletions_of_mem_removeSubtrees after.isKeyed inSecond
      have gone : Path.Covers path second.path :=
        Path.covers_trans pathValid (valid_of_mem_removeSubtree placed inFirst)
          (valid_of_mem_deletions after left)
          (covers_of_mem_removeSubtree placed.isKeyed inFirst) (Path.covers_of_isBelow below)
      rw [deletions, removeSubtree_eq] at left
      simp only [Store.peek_removeSubtree, if_pos gone] at left
      cases left

/-! ## What stays -/

theorem get?_removeSubtrees (cache : Cache) (now : Moment) (paths : List Path) (key : Path) :
    (removeSubtrees now paths cache).2.store.entries.get? key =
      if ∃ path ∈ paths, Path.Covers path key then none else cache.store.entries.get? key := by
  induction paths generalizing cache with
  | nil => simp [removeSubtrees]
  | cons path others inductionHypothesis =>
      rw [removeSubtrees]
      simp only
      rw [inductionHypothesis, removeSubtree_eq]
      simp only
      rw [Store.get?_removeSubtree]
      by_cases first : Path.Covers path key
      · simp [first]
      · simp [first]

/-- Entries that are not below the parent, or below a child that is listed, stay as they are. -/
theorem get?_reconciled (placed : cache.IsPlaced) (parentValid : parent.IsValid)
    (listed : ¬(Path.isBelow parent key = true ∧ Path.firstBelow parent key ∉ names)) :
    (cache.reconciled now parent names).store.entries.get? key = cache.store.entries.get? key := by
  rw [reconciled, get?_removeSubtrees]
  by_cases covered : ∃ path ∈ cache.vanished now parent names, Path.Covers path key
  · rw [if_pos covered, eq_comm]
    by_contra found
    obtain ⟨entry, present⟩ := Option.ne_none_iff_exists'.mp found
    have keyValid : key.IsValid := (placed.nodes key entry present).1
    exact listed (below_of_covered_vanished placed parentValid keyValid covered)
  · rw [if_neg covered]

theorem valid_of_mem_vanished (placed : cache.IsPlaced) (parentValid : parent.IsValid)
    (member : path ∈ cache.vanished now parent names) : path.IsValid := by
  obtain ⟨key, node, found, below, _, rfl⟩ := (mem_vanished placed).mp member
  obtain ⟨isSegment, _⟩ := Path.firstBelow_spec parentValid (placed.of_peek found).1 below
  exact parentValid.child isSegment

/-! ## What is fetched -/

/-- When a listed child is fetched. -/
theorem wantsFetch_iff {full : Bool} :
    cache.wantsFetch now full path = true ↔
      ∃ action traverse, cache.scope path = some (action, traverse) ∧
        (action.isStored = true ∨ traverse = true) ∧
        (full = true ∨ action.isStored = false ∨ cache.store.peek now path = none) := by
  unfold wantsFetch
  cases cache.scope path with
  | none => simp
  | some inScope =>
      obtain ⟨action, traverse⟩ := inScope
      have notCached : (!cache.store.contains now path) = true ↔
          cache.store.peek now path = none := by
        simp [Store.contains]
      simp only [Bool.and_eq_true, Bool.or_eq_true, notCached, Bool.not_eq_true', or_assoc,
        Option.some.injEq, Prod.mk.injEq]
      constructor
      · exact fun wanted => ⟨action, traverse, ⟨rfl, rfl⟩, wanted⟩
      · rintro ⟨_, _, ⟨rfl, rfl⟩, wanted⟩
        exact wanted

end Cache

namespace World

variable {world : World} {visit : Visit} {cache : Cache} {names : List Text}

/-- The queued fetches are among the tasks that do more than tell. -/
theorem filterMap_fetch_quiet (tasks : List Task) :
    (tasks.filter fun task => !task.isDelivery).filterMap Task.fetch? =
      tasks.filterMap Task.fetch? := by
  rw [List.filterMap_filter]
  apply List.filterMap_congr
  intro task _
  cases task <;> rfl

/-- The fetches that a list of children queues, in the order of the list. -/
theorem queue_reconcileChildren (found : world.caches[visit.cache]? = some cache)
    (isStarted : cache.phase = .started) (names : List Text) :
    (world.reconcileChildren visit names).queue.filterMap Task.fetch? =
      world.queue.filterMap Task.fetch? ++
        ((cache.quiet.reconciled world.now visit.path names).wantedChildren world.now
          visit.fetch.full visit.path names).map fun path => { visit.fetch with path } := by
  have quietly := congrArg World.queue (quiet_reconcileChildren found isStarted names)
  have queued : (world.reconcileChildren visit names).queue.filterMap Task.fetch? =
      (world.reconcileChildren visit names).quiet.queue.filterMap Task.fetch? :=
    (filterMap_fetch_quiet _).symm
  have begins : ∀ fetches : List Fetch,
      (fetches.map Task.fetch).filterMap Task.fetch? = fetches := by
    intro fetches
    rw [List.filterMap_map]
    exact List.filterMap_some
  have spawned := begins (((cache.quiet.reconciled world.now visit.path names).wantedChildren
    world.now visit.fetch.full visit.path names).map fun path => { visit.fetch with path })
  rw [List.map_map] at spawned
  rw [queued, quietly]
  refine List.filterMap_append.trans (congr (congrArg _ (filterMap_fetch_quiet _)) ?_)
  exact spawned

/-- In every world that is reached, a list of children of a valid path makes a started cache drop
the live paths below it whose next step the list leaves out, tell of each of them once and of none
before those below it, and queue a fetch of each listed child that is worth one, once and in the
order of the list. No other entry is changed. -/
theorem reconcileChildren_exact (config : ConnectionConfig) {commands : List Command}
    (valid : ∀ command ∈ commands, command.IsValid) {visit : Visit} {cache : Cache}
    (found : ((ofConfig config).obeyAll commands).caches[visit.cache]? = some cache)
    (isStarted : cache.phase = .started) (parentValid : visit.path.IsValid) {names : List Text}
    (segments : ∀ name ∈ names, Path.IsSegment name) (distinct : names.Nodup) :
    let world := (ofConfig config).obeyAll commands
    let after := world.reconcileChildren visit names
    (∀ key, after.cached visit.cache key =
      if Path.isBelow visit.path key = true ∧ Path.firstBelow visit.path key ∉ names then none
      else world.cached visit.cache key) ∧
    (∃ later, after.caches[visit.cache]? = some later ∧ ∀ key,
      ¬(Path.isBelow visit.path key = true ∧ Path.firstBelow visit.path key ∉ names) →
        later.store.entries.get? key = cache.store.entries.get? key) ∧
    (∃ told, after.journal visit.cache = world.journal visit.cache ++ told ∧
      (∀ key, CacheEvent.about told key =
        if Path.isBelow visit.path key = true ∧ Path.firstBelow visit.path key ∉ names then
          (world.cached visit.cache key).toList.map .nodeDeleted
        else []) ∧
      told.Pairwise fun first second => Path.isBelow first.path second.path = false) ∧
    ∃ wanted : List Text, wanted.Sublist names ∧ (wanted.map visit.path.child).Nodup ∧
      (∀ name ∈ names, name ∈ wanted ↔ ∃ action traverse,
        cache.scope (visit.path.child name) = some (action, traverse) ∧
          (action.isStored = true ∨ traverse = true) ∧
            (visit.fetch.full = true ∨ action.isStored = false ∨
              after.cached visit.cache (visit.path.child name) = none)) ∧
      after.queue.filterMap Task.fetch? = world.queue.filterMap Task.fetch? ++
        wanted.map fun name => { visit.fetch with path := visit.path.child name } := by
  intro world after
  let kept := cache.quiet.reconciled world.now visit.path names
  have placed : cache.quiet.IsPlaced :=
    ((sound_of_reached config valid).caches visit.cache cache found).isPlaced
  have quietly := quiet_reconcileChildren found isStarted names
  have inPlace : after.quiet.caches[visit.cache]? = some kept := by
    rw [quietly]
    exact getElem?_setCache (quiet_found found) kept
  obtain ⟨later, laterFound, isKept⟩ := exists_of_quiet inPlace
  have sameStore : later.store = kept.store := by
    rw [← isKept]
    rfl
  have sameTime : after.now = world.now := congrArg (fun told => told.now) quietly
  have sameScope : ∀ path, kept.scope path = cache.scope path := by
    intro path
    rw [Cache.scope, Cache.scope, Cache.options_reconciled]
    rfl
  have cached : ∀ key, after.cached visit.cache key = kept.store.peek world.now key := by
    intro key
    rw [cached_of_found laterFound, sameStore, sameTime]
  -- What is told is in the journal, which the quiet part leaves out.
  have adds := adds_reconcileChildren found isStarted names
  refine ⟨fun key => ?_, ⟨later, laterFound, fun key listed => ?_⟩, ⟨_, adds.journal, ?_, ?_⟩, ?_⟩
  · rw [cached, cached_of_found found]
    exact Cache.peek_vanish placed parentValid names key
  · rw [sameStore]
    exact Cache.get?_reconciled placed parentValid listed
  · intro key
    rw [cached_of_found found]
    exact Cache.events_vanish placed parentValid names key
  · exact Cache.fromBelow_removeSubtrees placed fun path member =>
      Cache.valid_of_mem_vanished placed parentValid member
  · refine ⟨names.filter fun name => kept.wantsFetch world.now visit.fetch.full
      (visit.path.child name), List.filter_sublist, ?_, fun name named => ?_, ?_⟩
    · have children : (kept.wantedChildren world.now visit.fetch.full visit.path names).Nodup :=
        Cache.nodup_wantedChildren parentValid segments distinct
      rw [Cache.wantedChildren, List.filter_map] at children
      exact children
    · rw [List.mem_filter, and_iff_right named, Cache.wantsFetch_iff, cached, sameScope]
    · have queued := queue_reconcileChildren found isStarted names
      rw [Cache.wantedChildren, List.filter_map, List.map_map] at queued
      exact queued

theorem reconcileChildren_exact_of_lost_branch :
    let parent : Path := ['/', 'a']
    let child : Path := ['/', 'a', '/', 'b']
    let grandchild : Path := ['/', 'a', '/', 'b', '/', 'c']
    let other : Path := ['/', 'a', '/', 'b', 'b']
    let commands : List Command :=
      [.startConnection, .announce .syncConnected, .create parent [] 0, .create child [] 0,
        .create grandchild [] 0, .create other [] 0, .build parent [], .start 0, .step, .step,
        .step, .step]
    let visit : Visit :=
      { fetch := { cache := 0, refresh := 0, path := parent, full := false }, session := 1
        epoch := 0, action := .statAndData, traverse := true }
    let world := (ofConfig defaultConfig).obeyAll commands
    let after := world.reconcileChildren visit [['d'], ['b', 'b']]
    (∀ path ∈ [child, grandchild, other], (world.cached 0 path).isSome) ∧
      after.cached 0 child = none ∧ after.cached 0 grandchild = none ∧
      after.cached 0 other = world.cached 0 other ∧
      (∃ told, after.journal 0 = world.journal 0 ++ told ∧
        told.map CacheEvent.path = [grandchild, child] ∧
        told.Pairwise fun first second => Path.isBelow first.path second.path = false) ∧
      after.queue.filterMap Task.fetch? = [{ visit.fetch with path := ['/', 'a', '/', 'd'] }] := by
  intro parent child grandchild other commands visit world after
  have valid : ∀ command ∈ commands, command.IsValid := by decide
  have segments : ∀ name ∈ [['d'], ['b', 'b']], Path.IsSegment name := by simp [Path.IsSegment]
  have live : ∀ path ∈ [child, grandchild, other], (world.cached 0 path).isSome := by
    decide +kernel
  have phase : (world.caches[visit.cache]?).map Cache.phase = some .started := by decide +kernel
  obtain ⟨cache, found, isStarted⟩ := Option.map_eq_some_iff.mp phase
  obtain ⟨cached, _, ⟨told, tells, _, fromBelow⟩, _⟩ :=
    reconcileChildren_exact defaultConfig valid found isStarted (by decide : parent.IsValid)
      segments (by decide)
  have order : (after.journal 0).map CacheEvent.path =
      (world.journal 0).map CacheEvent.path ++ [grandchild, child] := by decide +kernel
  have fetches : after.queue.filterMap Task.fetch? =
      [{ visit.fetch with path := ['/', 'a', '/', 'd'] }] := by decide +kernel
  refine ⟨live, ?_, ?_, ?_, ⟨told, tells, ?_, fromBelow⟩, fetches⟩
  · exact (cached child).trans (if_pos (by decide))
  · exact (cached grandchild).trans (if_pos (by decide))
  · exact (cached other).trans (if_neg (by decide))
  · have told_eq := (congrArg (List.map CacheEvent.path) tells).symm.trans order
    rw [List.map_append] at told_eq
    exact List.append_cancel_left told_eq

end World

end WatchedTree
