import WatchedTree.Proofs.World.Visit

/-!
# What a cache has told

The journal of a cache grows by what is dispatched to it, and by nothing else. Of nodes it tells
only when the store changes; all else that it is told of is the end of refreshes.
-/
namespace WatchedTree

namespace World

/-- Every event of a cache so far, oldest first. -/
def journal (world : World) (id : CacheId) : List CacheEvent :=
  match world.caches[id]? with
  | none => []
  | some cache => cache.feed.journal

/-- The events of nodes among them. -/
def nodeEvents (world : World) (id : CacheId) : List CacheEvent :=
  (world.journal id).filter fun event => event.node?.isSome

/-- What is cached of a path. -/
def cached (world : World) (id : CacheId) (path : Path) : Option Node :=
  match world.caches[id]? with
  | none => none
  | some cache => cache.store.peek world.now path

variable {world : World} {id other : CacheId} {cache : Cache}

theorem cached_of_found (found : world.caches[id]? = some cache) (path : Path) :
    world.cached id path = cache.store.peek world.now path := by
  rw [cached, found]

theorem journal_of_found (found : world.caches[id]? = some cache) :
    world.journal id = cache.feed.journal := by
  rw [journal, found]

theorem journal_setCache (found : world.caches[other]? = some cache) (after : Cache) :
    (world.setCache other after).journal id =
      if id = other then after.feed.journal else world.journal id := by
  by_cases same : id = other
  · subst same
    rw [journal_of_found (getElem?_setCache found after), if_pos rfl]
  · rw [if_neg same, journal, journal, setCache, List.getElem?_set_ne (Ne.symm same)]

theorem journal_setCache_of_journal (found : world.caches[other]? = some cache) {after : Cache}
    (same : after.feed.journal = cache.feed.journal) :
    (world.setCache other after).journal id = world.journal id := by
  rw [journal_setCache found]
  by_cases isOther : id = other
  · rw [if_pos isOther, isOther, journal_of_found found, same]
  · rw [if_neg isOther]

theorem journal_setCache_of_feed (found : world.caches[other]? = some cache) {after : Cache}
    (feed : after.feed = cache.feed) :
    (world.setCache other after).journal id = world.journal id :=
  journal_setCache_of_journal found (congrArg Feed.journal feed)

theorem journal_of_caches {after : World} (caches : after.caches = world.caches) (id : CacheId) :
    after.journal id = world.journal id := by
  rw [journal, journal, caches]

theorem journal_updateCache_of_feed {change : Cache → Cache}
    (feed : ∀ cache, (change cache).feed = cache.feed) :
    (world.updateCache other change).journal id = world.journal id := by
  cases found : world.caches[other]? with
  | none => rw [updateCache_of_none change found]
  | some cache =>
      rw [← setCache_eq_updateCache change found]
      exact journal_setCache_of_feed found (feed cache)

/-- A new cache has told nothing. -/
theorem journal_build (options : CacheOptions) :
    ({ world with caches := world.caches ++ [Cache.ofOptions options] } : World).journal id =
      world.journal id := by
  by_cases inRange : id < world.caches.length
  · rw [journal, journal, List.getElem?_append_left inRange]
  · have beyond := Nat.le_of_not_lt inRange
    rw [journal, journal, List.getElem?_append_right beyond, List.getElem?_eq_none beyond]
    cases id - world.caches.length <;> rfl

/-- A new cache holds nothing. -/
theorem cached_build (options : CacheOptions) (path : Path) :
    ({ world with caches := world.caches ++ [Cache.ofOptions options] } : World).cached id path =
      world.cached id path := by
  by_cases inRange : id < world.caches.length
  · rw [cached, cached, List.getElem?_append_left inRange]
  · have beyond := Nat.le_of_not_lt inRange
    rw [cached, cached, List.getElem?_append_right beyond, List.getElem?_eq_none beyond]
    cases id - world.caches.length <;> rfl

@[simp] theorem journal_enqueue (tasks : List Task) :
    (world.enqueue tasks).journal id = world.journal id := rfl

/-- A cache that is there is still there when nothing but telling was done. -/
theorem exists_of_same_quiet {after : World} (same : after.quiet = world.quiet)
    (found : world.caches[id]? = some cache) :
    ∃ held, after.caches[id]? = some held ∧ held.quiet = cache.quiet := by
  apply exists_of_quiet
  rw [same]
  exact quiet_found found

/-! ## Dispatches -/

theorem journal_dispatch (found : world.caches[other]? = some cache) (event : CacheEvent) :
    (world.dispatch other event).journal id =
      if id = other then world.journal id ++ [event] else world.journal id := by
  unfold dispatch
  simp only [found]
  rw [journal_enqueue, journal_setCache found]
  by_cases same : id = other
  · rw [if_pos same, if_pos same, same, journal_of_found found]
    rfl
  · rw [if_neg same, if_neg same]

theorem journal_dispatchAll (found : world.caches[id]? = some cache)
    (events : List CacheEvent) :
    (world.dispatchAll id events).journal id = world.journal id ++ events := by
  induction events generalizing world cache with
  | nil => exact (List.append_nil _).symm
  | cons event others inductionHypothesis =>
      obtain ⟨held, stillFound, _⟩ := exists_of_same_quiet (quiet_dispatch world id event) found
      have rest := inductionHypothesis stillFound
      rw [journal_dispatch found, if_pos rfl, List.append_assoc] at rest
      exact rest

theorem journal_dispatchAll_of_ne (found : world.caches[other]? = some cache) (apart : id ≠ other)
    (events : List CacheEvent) :
    (world.dispatchAll other events).journal id = world.journal id := by
  induction events generalizing world cache with
  | nil => rfl
  | cons event others inductionHypothesis =>
      obtain ⟨held, stillFound, _⟩ := exists_of_same_quiet (quiet_dispatch world other event) found
      have rest := inductionHypothesis stillFound
      rw [journal_dispatch found, if_neg apart] at rest
      exact rest

@[simp] theorem journal_report (report : CacheId) (message : String) (failure : Failure) :
    (world.report report message failure).journal id = world.journal id := by
  have kept : ∀ (listeners : List Listener) (world : World),
      (listeners.foldl (fun state listener =>
        state.call listener (.failure message.toList failure)) world).journal id =
          world.journal id := by
    intro listeners
    induction listeners with
    | nil => exact fun _ => rfl
    | cons listener others inductionHypothesis =>
        intro world
        exact inductionHypothesis _
  unfold World.report
  split
  · rfl
  · exact kept _ world

theorem journal_removeSubtree (found : world.caches[id]? = some cache) (path : Path) :
    (world.removeSubtree id path).journal id =
      world.journal id ++ (cache.removeSubtree world.now path).1 := by
  unfold World.removeSubtree
  simp only [found]
  have dropped := getElem?_setCache found (cache.removeSubtree world.now path).2
  have kept : (world.setCache id (cache.removeSubtree world.now path).2).journal id =
      world.journal id := journal_setCache_of_feed found rfl
  rw [journal_dispatchAll dropped, kept]

/-! ## Events of nodes -/

theorem nodeEvents_of_journal {after : World} (same : after.journal id = world.journal id) :
    after.nodeEvents id = world.nodeEvents id := by
  rw [nodeEvents, same, nodeEvents]

@[simp] theorem nodeEvents_refreshed (path : Path) (cancelled : Bool) :
    (world.refreshed other path cancelled).nodeEvents id = world.nodeEvents id := by
  unfold refreshed
  cases found : world.caches[other]? with
  | none => rfl
  | some cache =>
      have counted : (world.setCache other
          { cache with refreshCount := cache.refreshCount + 1 }).journal id = world.journal id :=
        journal_setCache_of_feed found rfl
      simp only
      split
      · have inPlace := getElem?_setCache found
          { cache with refreshCount := cache.refreshCount + 1 }
        rw [nodeEvents, journal_dispatch inPlace, counted]
        split
        · rw [List.filter_append, nodeEvents]
          simp [CacheEvent.node?]
        · rfl
      · exact nodeEvents_of_journal counted

@[simp] theorem nodeEvents_finish (refresh : Refresh) :
    (world.finish refresh).nodeEvents id = world.nodeEvents id := by
  unfold finish
  split
  · exact nodeEvents_refreshed _ _
  · simp only
    split
    · exact nodeEvents_refreshed _ _
    · exact nodeEvents_refreshed _ _

@[simp] theorem nodeEvents_countDown (refresh : RefreshId) :
    (world.countDown refresh).nodeEvents id = world.nodeEvents id := by
  unfold countDown
  split
  · rfl
  · simp only
    split
    · rw [nodeEvents_finish]
      rfl
    · rfl

@[simp] theorem nodeEvents_spawn (fetch : Fetch) :
    (world.spawn fetch).nodeEvents id = world.nodeEvents id := by
  unfold spawn
  simp only
  split
  · rw [nodeEvents_countDown]
    rfl
  · split
    · rfl
    · rw [nodeEvents_countDown]
      rfl

@[simp] theorem nodeEvents_endVisit (visit : Visit) (failure : Option Failure) :
    (world.endVisit visit failure).nodeEvents id = world.nodeEvents id := by
  unfold endVisit
  rw [nodeEvents_countDown]
  apply nodeEvents_of_journal
  cases failure with
  | none => exact journal_updateCache_of_feed fun _ => rfl
  | some failure =>
      simp only [journal_report]
      exact journal_updateCache_of_feed fun _ => rfl

end World

end WatchedTree
