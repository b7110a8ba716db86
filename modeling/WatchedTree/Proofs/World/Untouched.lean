import WatchedTree.Proofs.World.Deeds
import WatchedTree.Proofs.World.Journal

/-!
# Worlds that are left as they are

The connection, the remote side, and what a store notes of fetches and removals do not show. Worlds
that agree in all else hold the same entries, have told the same of nodes and have the same fetches
queued.
-/
namespace WatchedTree

/-! ## Stores without notes -/

namespace Store

/-- A store without its notes of fetches and removals. -/
def bare (store : Store) : Store := { store with epoch := 0, tombstones := [], inFlight := [] }

theorem remove_bare (store : Store) (now : Moment) (path : Path) :
    store.bare.remove now path = ((store.remove now path).1, (store.remove now path).2.bare) := by
  have entries : store.bare.entries = store.entries := rfl
  unfold remove
  rw [entries]
  cases store.entries.get? path with
  | none => rfl
  | some entry => rfl

theorem removeEach_bare (now : Moment) (paths : List Path) (store : Store) :
    removeEach now paths store.bare =
      ((removeEach now paths store).1, (removeEach now paths store).2.bare) := by
  induction paths generalizing store with
  | nil => rfl
  | cons path others inductionHypothesis =>
      simp only [removeEach, remove_bare, inductionHypothesis]

/-- What a removal drops and leaves does not depend on the notes. -/
theorem removeSubtree_bare (store : Store) (now : Moment) (path : Path) :
    (store.bare.removeSubtree now path).1 = (store.removeSubtree now path).1 ∧
      (store.bare.removeSubtree now path).2.bare = (store.removeSubtree now path).2.bare := by
  have bared : ∀ store : Store,
      ((store.removeSubtree now path).1, (store.removeSubtree now path).2.bare) =
        removeEach now (store.doomed path) store.bare := by
    intro store
    exact (removeEach_bare now _ _).symm
  -- The epoch and the tombstone that a removal writes are notes themselves.
  have both := (bared store.bare).trans (bared store).symm
  exact Prod.mk.injEq _ _ _ _ ▸ both

end Store

/-- A refresh that has counted one fetch as done. -/
def Refresh.lowered (refresh : Refresh) : Refresh :=
  { refresh with refresher := refresh.refresher.decrement.2 }

namespace Cache

/-- What the end of a fetch needs to know of its cache. -/
def address (cache : Cache) : CacheOptions × Registry Listener :=
  (cache.options, cache.errorListeners)

def bare (cache : Cache) : Cache := { cache with store := cache.store.bare }

theorem removeSubtree_bare (cache : Cache) (now : Moment) (path : Path) :
    (cache.bare.removeSubtree now path).1 = (cache.removeSubtree now path).1 ∧
      (cache.bare.removeSubtree now path).2.bare = (cache.removeSubtree now path).2.bare := by
  obtain ⟨nodes, left⟩ := cache.store.removeSubtree_bare now path
  refine ⟨congrArg (List.map CacheEvent.nodeDeleted) nodes, ?_⟩
  exact congrArg (fun store => { cache with store }) left

end Cache

namespace World

variable {world after before : World} {id : CacheId} {cache : Cache} {refresh : RefreshId}

/-- A world without its connection, and its stores without their notes. -/
def bare (world : World) : World :=
  { world with
    connection := (ofConfig defaultConfig).connection
    caches := world.caches.map Cache.bare }

@[simp] theorem bare_bare (world : World) : world.bare.bare = world.bare := by
  have same : (world.caches.map Cache.bare).map Cache.bare = world.caches.map Cache.bare :=
    List.map_map
  exact congrArg (fun caches => { world.bare with caches }) same

theorem getElem?_bare (world : World) (id : CacheId) :
    world.bare.caches[id]? = world.caches[id]?.map Cache.bare := List.getElem?_map

theorem bare_setCache (world : World) (id : CacheId) (cache : Cache) :
    (world.setCache id cache).bare = world.bare.setCache id cache.bare := by
  simp [bare, setCache, List.map_set]

theorem bare_setCache_of_bare (found : world.caches[id]? = some cache) {other : Cache}
    (same : other.bare = cache.bare) : (world.setCache id other).bare = world.bare := by
  have inPlace : world.bare.caches[id]? = some cache.bare := by rw [getElem?_bare, found]; rfl
  rw [bare_setCache, same, setCache_self inPlace]

theorem bare_updateStore (world : World) (id : CacheId) {change : Store → Store}
    (same : ∀ store, (change store).bare = store.bare) :
    (world.updateCache id fun cache => { cache with store := change cache.store }).bare =
      world.bare := by
  cases found : world.caches[id]? with
  | none => rw [updateCache_of_none _ found]
  | some cache =>
      rw [← setCache_eq_updateCache _ found]
      exact bare_setCache_of_bare found
        (congrArg (fun store => { cache with store }) (same cache.store))

theorem bare_dispatch (world : World) (id : CacheId) (event : CacheEvent) :
    (world.dispatch id event).bare = world.bare.dispatch id event := by
  unfold dispatch
  rw [getElem?_bare]
  cases world.caches[id]? with
  | none => rfl
  | some cache =>
      exact congrArg (fun state => enqueue state _) (bare_setCache world id _)

theorem bare_dispatchAll (world : World) (id : CacheId) (events : List CacheEvent) :
    (world.dispatchAll id events).bare = world.bare.dispatchAll id events := by
  induction events generalizing world with
  | nil => rfl
  | cons event others inductionHypothesis =>
      have rest := inductionHypothesis (world.dispatch id event)
      rw [bare_dispatch] at rest
      exact rest

theorem bare_removeSubtree (world : World) (id : CacheId) (path : Path) :
    (world.bare.removeSubtree id path).bare = (world.removeSubtree id path).bare := by
  unfold removeSubtree
  rw [getElem?_bare]
  cases found : world.caches[id]? with
  | none => exact bare_bare world
  | some cache =>
      obtain ⟨events, left⟩ := cache.removeSubtree_bare world.now path
      have now : world.bare.now = world.now := rfl
      simp only [Option.map_some, bare_dispatchAll, bare_setCache, bare_bare, now, events, left]

theorem removeSubtree_of_bare (same : after.bare = before.bare) (id : CacheId) (path : Path) :
    (after.removeSubtree id path).bare = (before.removeSubtree id path).bare := by
  rw [← bare_removeSubtree, same, bare_removeSubtree]

/-! ## What is on record -/

/-- The calls so far, the refreshes, and whom the caches address. -/
def ledger (world : World) : List Call × List Refresh × List (CacheOptions × Registry Listener) :=
  (world.calls, world.refreshes, world.caches.map Cache.address)

theorem ledger_bare (world : World) : world.bare.ledger = world.ledger := by
  have same : world.bare.caches.map Cache.address = world.caches.map Cache.address := List.map_map
  exact congrArg (fun caches => (world.calls, world.refreshes, caches)) same

theorem ledger_of_bare (same : after.bare = before.bare) : after.ledger = before.ledger := by
  rw [← ledger_bare, same, ledger_bare]

theorem calls_of_ledger (same : after.ledger = before.ledger) : after.calls = before.calls :=
  congrArg Prod.fst same

theorem refreshes_of_ledger (same : after.ledger = before.ledger) :
    after.refreshes = before.refreshes := congrArg (fun ledger => ledger.2.1) same

theorem address_of_ledger (same : after.ledger = before.ledger) (id : CacheId) :
    (after.caches[id]?).map Cache.address = (before.caches[id]?).map Cache.address := by
  have caches : after.caches.map Cache.address = before.caches.map Cache.address :=
    congrArg (fun ledger => ledger.2.2) same
  rw [← List.getElem?_map, caches, List.getElem?_map]

theorem basePath_of_ledger (same : after.ledger = before.ledger) (id : CacheId) :
    (after.caches[id]?).map (fun cache => cache.options.basePath) =
      (before.caches[id]?).map fun cache => cache.options.basePath := by
  have address := congrArg (Option.map fun address => address.1.basePath)
    (address_of_ledger same id)
  rw [Option.map_map, Option.map_map] at address
  exact address

theorem ledger_setCache (found : world.caches[id]? = some cache) {other : Cache}
    (same : other.address = cache.address) : (world.setCache id other).ledger = world.ledger :=
  congrArg (fun caches => (world.calls, world.refreshes, caches)) (map_caches_setCache found same)

theorem ledger_dispatch (world : World) (id : CacheId) (event : CacheEvent) :
    (world.dispatch id event).ledger = world.ledger := by
  unfold dispatch
  cases found : world.caches[id]? with
  | none => rfl
  | some cache => exact ledger_setCache found rfl

theorem ledger_dispatchAll (world : World) (id : CacheId) (events : List CacheEvent) :
    (world.dispatchAll id events).ledger = world.ledger := by
  induction events generalizing world with
  | nil => rfl
  | cons event others inductionHypothesis =>
      exact (inductionHypothesis _).trans (ledger_dispatch world id event)

theorem ledger_removeSubtree (world : World) (id : CacheId) (path : Path) :
    (world.removeSubtree id path).ledger = world.ledger := by
  unfold removeSubtree
  cases found : world.caches[id]? with
  | none => rfl
  | some cache =>
      have kept : (cache.removeSubtree world.now path).2.address = cache.address := rfl
      exact (ledger_dispatchAll _ id _).trans (ledger_setCache found kept)

theorem ledger_refreshed (world : World) (id : CacheId) (path : Path) (cancelled : Bool) :
    (world.refreshed id path cancelled).ledger = world.ledger := by
  unfold refreshed
  cases found : world.caches[id]? with
  | none => rfl
  | some cache =>
      have counted := ledger_setCache found
        (rfl : ({ cache with refreshCount := cache.refreshCount + 1 } : Cache).address =
          cache.address)
      simp only
      split
      · exact (ledger_dispatch _ id _).trans counted
      · exact counted

theorem ledger_finish (world : World) (refresh : Refresh) :
    (world.finish refresh).ledger = world.ledger := by
  unfold finish
  split
  · exact ledger_refreshed world _ _ _
  · simp only
    split
    · exact ledger_refreshed world _ _ _
    · exact ledger_refreshed world _ _ _

/-- Counting down books one fetch as done, whatever else comes of it. -/
theorem ledger_countDown (world : World) (refresh : RefreshId) :
    (world.countDown refresh).ledger =
      (world.calls, world.refreshes.modify refresh Refresh.lowered,
        world.caches.map Cache.address) := by
  unfold countDown
  cases found : world.refreshes[refresh]? with
  | none =>
      rw [List.modify_eq_self (List.getElem?_eq_none_iff.mp found)]
      rfl
  | some given =>
      have lowered : world.refreshes.set refresh given.lowered =
          world.refreshes.modify refresh Refresh.lowered := by
        rw [List.modify_eq_set_getElem?, found]
        rfl
      rw [← lowered]
      simp only
      split
      · exact ledger_finish _ _
      · rfl

theorem calls_countDown (world : World) (refresh : RefreshId) :
    (world.countDown refresh).calls = world.calls :=
  congrArg Prod.fst (ledger_countDown world refresh)

theorem refreshes_countDown (world : World) (refresh : RefreshId) :
    (world.countDown refresh).refreshes = world.refreshes.modify refresh Refresh.lowered :=
  congrArg (fun ledger => ledger.2.1) (ledger_countDown world refresh)

theorem calls_report (found : world.caches[id]? = some cache) (message : String)
    (failure : Failure) :
    (world.report id message failure).calls = world.calls ++
      cache.errorListeners.snapshot.map fun listener =>
        { label := listener.label, heard := .failure message.toList failure
          failed := listener.fails } := by
  unfold report
  simp only [found]
  generalize cache.errorListeners.snapshot = listeners
  clear found
  induction listeners generalizing world with
  | nil => exact (List.append_nil _).symm
  | cons listener others inductionHypothesis =>
      rw [List.foldl_cons, inductionHypothesis, call, List.map_cons, List.append_assoc]
      rfl

/-! ## Worlds that are left as they are -/

/-- No entry has been stored or removed, no event of a node has been told, and no task is queued
but calls of listeners. -/
structure IsUntouched (after before : World) : Prop where
  entries : (after.caches.map fun cache => cache.store.entries) =
    before.caches.map fun cache => cache.store.entries
  nodeEvents : ∀ id, after.nodeEvents id = before.nodeEvents id
  queue : (after.queue.filter fun task => !task.isDelivery) =
    before.queue.filter fun task => !task.isDelivery
  deferred : (after.deferred.filter fun task => !task.isDelivery) =
    before.deferred.filter fun task => !task.isDelivery

theorem IsUntouched.trans {first second third : World} (left : first.IsUntouched second)
    (right : second.IsUntouched third) : first.IsUntouched third where
  entries := left.entries.trans right.entries
  nodeEvents id := (left.nodeEvents id).trans (right.nodeEvents id)
  queue := left.queue.trans right.queue
  deferred := left.deferred.trans right.deferred

theorem isUntouched_of_quiet (same : after.quiet = before.quiet)
    (nodeEvents : ∀ id, after.nodeEvents id = before.nodeEvents id) : after.IsUntouched before where
  entries := by
    have caches : after.caches.map Cache.quiet = before.caches.map Cache.quiet :=
      congrArg World.caches same
    have entries := congrArg (List.map fun cache : Cache => cache.store.entries) caches
    rw [List.map_map, List.map_map] at entries
    exact entries
  nodeEvents := nodeEvents
  queue := congrArg World.queue same
  deferred := congrArg World.deferred same

theorem journal_bare (world : World) (id : CacheId) : world.bare.journal id = world.journal id := by
  rw [journal, journal, getElem?_bare]
  cases world.caches[id]? <;> rfl

theorem isUntouched_of_bare (same : after.bare = before.bare) : after.IsUntouched before where
  entries := by
    have caches : after.caches.map Cache.bare = before.caches.map Cache.bare :=
      congrArg World.caches same
    have entries := congrArg (List.map fun cache : Cache => cache.store.entries) caches
    rw [List.map_map, List.map_map] at entries
    exact entries
  nodeEvents id := nodeEvents_of_journal (by rw [← journal_bare, same, journal_bare])
  queue := congrArg (fun world => world.queue.filter fun task => !task.isDelivery) same
  deferred := congrArg (fun world => world.deferred.filter fun task => !task.isDelivery) same

end World

end WatchedTree
