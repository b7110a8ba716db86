import Mathlib.Data.List.Basic
import WatchedTree.World.Commands

/-!
# A world without what is told

Events, deliveries, failures reported and refreshes counted change nothing that a fetch reads. The
quiet part of a world leaves all of that out, and the functions that only tell leave it as it is.
-/
namespace WatchedTree

namespace Cache

/-- A cache without what it tells and whom. -/
def quiet (cache : Cache) : Cache :=
  { cache with feed := {}, errorListeners := {}, refreshCount := 0 }

@[simp] theorem quiet_options (cache : Cache) : cache.quiet.options = cache.options := rfl

@[simp] theorem quiet_store (cache : Cache) : cache.quiet.store = cache.store := rfl

@[simp] theorem quiet_phase (cache : Cache) : cache.quiet.phase = cache.phase := rfl

@[simp] theorem quiet_isClosed (cache : Cache) : cache.quiet.isClosed = cache.isClosed := rfl

@[simp] theorem quiet_feed (cache : Cache) (feed : Feed) :
    ({ cache with feed } : Cache).quiet = cache.quiet := rfl

section SameQuiet

variable {cache other : Cache} (same : other.quiet = cache.quiet)

include same

theorem options_of_quiet : other.options = cache.options := by
  have options := congrArg Cache.options same
  exact options

theorem store_of_quiet : other.store = cache.store := by
  have store := congrArg Cache.store same
  exact store

theorem phase_of_quiet : other.phase = cache.phase := by
  have phase := congrArg Cache.phase same
  exact phase

end SameQuiet

end Cache

/-- Holds of the tasks that only call a listener. -/
def Task.isDelivery : Task → Bool
  | .deliver _ _ => true
  | .fetch _ | .resume _ _ => false

namespace World

/-- A world without what it tells. -/
def quiet (world : World) : World :=
  { now := world.now
    hasRuntime := world.hasRuntime
    connection := world.connection
    caches := world.caches.map Cache.quiet
    queue := world.queue.filter fun task => !task.isDelivery
    deferred := world.deferred.filter fun task => !task.isDelivery
    suspended := world.suspended }

variable {world : World} {id : CacheId} {cache : Cache}

@[simp] theorem quiet_now (world : World) : world.quiet.now = world.now := rfl

@[simp] theorem quiet_connection (world : World) : world.quiet.connection = world.connection := rfl

@[simp] theorem quiet_ensemble (world : World) : world.quiet.ensemble = world.ensemble := rfl

@[simp] theorem quiet_suspended (world : World) : world.quiet.suspended = world.suspended := rfl

theorem quiet_getElem? (world : World) (id : CacheId) :
    world.quiet.caches[id]? = world.caches[id]?.map Cache.quiet := by
  simp [quiet]

/-! ## Changes of one cache -/

@[simp] theorem quiet_setCache (world : World) (id : CacheId) (cache : Cache) :
    (world.setCache id cache).quiet = world.quiet.setCache id cache.quiet := by
  simp [quiet, setCache, List.map_set]

@[simp] theorem quiet_setEnsemble (world : World) (ensemble : Ensemble) :
    (world.setEnsemble ensemble).quiet = world.quiet.setEnsemble ensemble := rfl

@[simp] theorem enqueue_nil (world : World) : world.enqueue [] = world := by
  simp [enqueue]

theorem enqueue_enqueue (world : World) (first second : List Task) :
    (world.enqueue first).enqueue second = world.enqueue (first ++ second) := by
  simp [enqueue]

theorem quiet_enqueue (world : World) (tasks : List Task) :
    (world.enqueue tasks).quiet =
      world.quiet.enqueue (tasks.filter fun task => !task.isDelivery) := by
  simp [quiet, enqueue]

theorem updateCache_of_none (change : Cache → Cache) (absent : world.caches[id]? = none) :
    world.updateCache id change = world := by
  rw [updateCache, List.modify_eq_self (List.getElem?_eq_none_iff.mp absent)]

theorem setCache_eq_updateCache (change : Cache → Cache)
    (found : world.caches[id]? = some cache) :
    world.setCache id (change cache) = world.updateCache id change := by
  have same : world.caches.set id (change cache) = world.caches.modify id change := by
    apply List.ext_getElem?
    intro index
    rw [List.getElem?_set, List.getElem?_modify]
    by_cases isId : id = index
    · subst isId
      obtain ⟨inRange, rfl⟩ := List.getElem?_eq_some_iff.mp found
      simp [inRange]
    · simp [isId]
  rw [setCache, updateCache, same]

theorem quiet_updateCache {change quietChange : Cache → Cache}
    (same : ∀ cache, (change cache).quiet = quietChange cache.quiet) (world : World)
    (id : CacheId) :
    (world.updateCache id change).quiet = world.quiet.updateCache id quietChange := by
  have caches : (world.caches.modify id change).map Cache.quiet =
      (world.caches.map Cache.quiet).modify id quietChange := by
    apply List.ext_getElem?
    intro index
    rw [List.getElem?_map, List.getElem?_modify, List.getElem?_modify, List.getElem?_map]
    cases world.caches[index]? with
    | none => rfl
    | some cache =>
        by_cases isId : id = index
        · simp [isId, same]
        · simp [isId]
  simp [quiet, updateCache, caches]

/-- A cache that differs only in what it tells takes the place of the cache. -/
theorem quiet_setCache_of_quiet {after : Cache} (found : world.caches[id]? = some cache)
    (same : after.quiet = cache.quiet) : (world.setCache id after).quiet = world.quiet := by
  have caches : (world.caches.set id after).map Cache.quiet = world.caches.map Cache.quiet := by
    rw [List.map_set, same]
    apply List.ext_getElem?
    intro index
    rw [List.getElem?_set, List.getElem?_map]
    by_cases isId : id = index
    · subst isId
      obtain ⟨inRange, rfl⟩ := List.getElem?_eq_some_iff.mp found
      simp [inRange]
    · simp [isId]
  simp [quiet, setCache, caches]

/-! ## Functions that only tell -/

theorem quiet_foldl {Item : Type} {step : World → Item → World}
    (silent : ∀ world item, (step world item).quiet = world.quiet) (items : List Item)
    (world : World) : (items.foldl step world).quiet = world.quiet := by
  induction items generalizing world with
  | nil => rfl
  | cons item others inductionHypothesis =>
      rw [List.foldl_cons, inductionHypothesis, silent]

@[simp] theorem quiet_call (world : World) (listener : Listener) (heard : Heard) :
    (world.call listener heard).quiet = world.quiet := rfl

theorem quiet_enqueue_deliveries (world : World) (id : CacheId)
    (subscribers : List RegistrationId) :
    (world.enqueue (subscribers.map (Task.deliver id))).quiet = world.quiet := by
  have noFetch : (subscribers.map (Task.deliver id)).filter (fun task => !task.isDelivery) = [] := by
    rw [List.filter_eq_nil_iff]
    intro task member
    obtain ⟨subscriber, _, rfl⟩ := List.mem_map.mp member
    simp [Task.isDelivery]
  rw [quiet_enqueue, noFetch, enqueue_nil]

@[simp] theorem quiet_dispatch (world : World) (id : CacheId) (event : CacheEvent) :
    (world.dispatch id event).quiet = world.quiet := by
  unfold dispatch
  cases found : world.caches[id]? with
  | none => rfl
  | some cache =>
      have told : (world.setCache id { cache with feed := (cache.feed.dispatch event).2 }).quiet =
          world.quiet := quiet_setCache_of_quiet found rfl
      exact (quiet_enqueue_deliveries _ id _).trans told

@[simp] theorem quiet_dispatchAll (world : World) (id : CacheId) (events : List CacheEvent) :
    (world.dispatchAll id events).quiet = world.quiet :=
  quiet_foldl (fun world event => quiet_dispatch world id event) events world

@[simp] theorem quiet_deliver (world : World) (id : CacheId) (subscriber : RegistrationId) :
    (world.deliver id subscriber).quiet = world.quiet := by
  unfold deliver
  cases found : world.caches[id]? with
  | none => rfl
  | some cache =>
      simp only
      split
      · rfl
      next handover feed _ =>
        have told : (handover.events.foldl
            (fun state event => state.call handover.listener (.event event))
            (world.setCache id { cache with feed })).quiet = world.quiet := by
          rw [quiet_foldl fun world event => quiet_call world _ _]
          exact quiet_setCache_of_quiet found rfl
        split
        · rw [← told]
          simp [quiet, Task.isDelivery]
        · exact told

@[simp] theorem quiet_report (world : World) (id : CacheId) (message : String)
    (failure : Failure) : (world.report id message failure).quiet = world.quiet := by
  unfold report
  split
  · rfl
  · exact quiet_foldl (fun world listener => quiet_call world _ _) _ world

@[simp] theorem quiet_settledToken (world : World) (outcome : Outcome) :
    (world.settledToken outcome).2.quiet = world.quiet := rfl

@[simp] theorem quiet_addChannel (world : World) (channel : Channel) :
    (world.addChannel channel).2.quiet = world.quiet := rfl

@[simp] theorem quiet_updateChannel (world : World) (id : ChannelId)
    (change : Channel → Channel) : (world.updateChannel id change).quiet = world.quiet := rfl

@[simp] theorem quiet_readToken (world : World) (id : ChannelId) :
    (world.readToken id).2.quiet = world.quiet := by
  unfold readToken
  split <;> rfl

@[simp] theorem quiet_addRefresh (world : World) (id : CacheId) (path : Path)
    (channel : Option ChannelId) : (world.addRefresh id path channel).2.quiet = world.quiet := rfl

@[simp] theorem quiet_countUp (world : World) (id : RefreshId) :
    (world.countUp id).quiet = world.quiet := rfl

@[simp] theorem quiet_refreshed (world : World) (id : CacheId) (path : Path) (cancelled : Bool) :
    (world.refreshed id path cancelled).quiet = world.quiet := by
  unfold refreshed
  cases found : world.caches[id]? with
  | none => rfl
  | some cache =>
      simp only
      have counted :
          (world.setCache id { cache with refreshCount := cache.refreshCount + 1 }).quiet =
            world.quiet := quiet_setCache_of_quiet found rfl
      split
      · rw [quiet_dispatch]
        exact counted
      · exact counted

@[simp] theorem quiet_finish (world : World) (refresh : Refresh) :
    (world.finish refresh).quiet = world.quiet := by
  unfold finish
  split
  · exact quiet_refreshed _ _ _ _
  · simp only
    split <;> simp

@[simp] theorem quiet_countDown (world : World) (id : RefreshId) :
    (world.countDown id).quiet = world.quiet := by
  unfold countDown
  split
  · rfl
  · simp only
    split
    · rw [quiet_finish]
      rfl
    · rfl

/-! ## Calls of listeners -/

@[simp] theorem quiet_listen (world : World) (id : CacheId) (listener : Listener) :
    (world.listen id listener).2.quiet = world.quiet := by
  unfold listen
  cases found : world.caches[id]? with
  | none => rfl
  | some cache =>
      have listening := quiet_setCache_of_quiet found
        (Cache.quiet_feed cache (cache.feed.add listener).2)
      exact (quiet_enqueue_deliveries _ id [_]).trans listening

@[simp] theorem quiet_unlisten (world : World) (id : CacheId) (registration : RegistrationId) :
    (world.unlisten id registration).2.quiet = world.quiet := by
  unfold unlisten
  cases found : world.caches[id]? with
  | none => rfl
  | some cache =>
      have listening := quiet_setCache_of_quiet found
        (Cache.quiet_feed cache (cache.feed.remove registration).2)
      exact (quiet_enqueue_deliveries _ id _).trans listening

@[simp] theorem quiet_onError (world : World) (id : CacheId) (listener : Listener) :
    (world.onError id listener).2.quiet = world.quiet := by
  unfold onError
  cases found : world.caches[id]? with
  | none => rfl
  | some cache => exact quiet_setCache_of_quiet found rfl

@[simp] theorem quiet_offError (world : World) (id : CacheId) (registration : RegistrationId) :
    (world.offError id registration).2.quiet = world.quiet := by
  unfold offError
  cases found : world.caches[id]? with
  | none => rfl
  | some cache => exact quiet_setCache_of_quiet found rfl

/-! ## Fetches that are queued -/

/-- Holds while fetches for the cache are queued. -/
def accepts (world : World) (id : CacheId) : Bool :=
  match world.caches[id]? with
  | none => false
  | some cache => cache.phase = .started

theorem accepts_of_quiet {before after : World} (same : after.quiet = before.quiet)
    (id : CacheId) : after.accepts id = before.accepts id := by
  have caches : after.caches[id]?.map Cache.quiet = before.caches[id]?.map Cache.quiet := by
    rw [← quiet_getElem?, ← quiet_getElem?, same]
  unfold accepts
  cases foundBefore : before.caches[id]? with
  | none =>
      rw [foundBefore, Option.map_none, Option.map_eq_none_iff] at caches
      rw [caches]
  | some cache =>
      rw [foundBefore, Option.map_some, Option.map_eq_some_iff] at caches
      obtain ⟨other, foundAfter, sameQuiet⟩ := caches
      rw [foundAfter]
      simp only [Cache.phase_of_quiet sameQuiet]

theorem quiet_spawn (world : World) (fetch : Fetch) :
    (world.spawn fetch).quiet =
      if world.accepts fetch.cache then world.quiet.enqueue [.fetch fetch] else world.quiet := by
  have counted := accepts_of_quiet (quiet_countUp world fetch.refresh) fetch.cache
  unfold spawn
  simp only
  rw [← counted, accepts]
  cases (world.countUp fetch.refresh).caches[fetch.cache]? with
  | none => simp
  | some cache =>
      by_cases isStarted : cache.phase = .started
      · simp [isStarted, quiet_enqueue, Task.isDelivery]
      · simp [isStarted]

theorem accepts_enqueue (world : World) (tasks : List Task) (id : CacheId) :
    (world.enqueue tasks).accepts id = world.accepts id := rfl

theorem now_spawn (world : World) (fetch : Fetch) : (world.spawn fetch).now = world.now := by
  rw [← quiet_now, quiet_spawn]
  split <;> rfl

theorem quiet_spawnAll {fetches : List Fetch} {id : CacheId}
    (sameCache : ∀ fetch ∈ fetches, fetch.cache = id) (world : World) :
    (world.spawnAll fetches).quiet =
      if world.accepts id then world.quiet.enqueue (fetches.map Task.fetch) else world.quiet := by
  induction fetches generalizing world with
  | nil => simp [spawnAll]
  | cons fetch others inductionHypothesis =>
      have isId := sameCache fetch (by simp)
      have othersSame : ∀ other ∈ others, other.cache = id :=
        fun other member => sameCache other (by simp [member])
      have tail := inductionHypothesis othersSame (world.spawn fetch)
      have spawned := quiet_spawn world fetch
      rw [isId] at spawned
      change ((world.spawn fetch).spawnAll others).quiet = _
      rw [tail]
      by_cases accepted : world.accepts id = true
      · rw [if_pos accepted] at spawned
        have still : (world.spawn fetch).accepts id = true := by
          have same : (world.spawn fetch).quiet = (world.enqueue [.fetch fetch]).quiet := by
            rw [spawned, quiet_enqueue]
            rfl
          rw [accepts_of_quiet same, accepts_enqueue]
          exact accepted
        rw [if_pos accepted, if_pos still, spawned, enqueue_enqueue]
        rfl
      · rw [if_neg accepted] at spawned
        have still : ¬ (world.spawn fetch).accepts id = true := by
          rw [accepts_of_quiet spawned]
          exact accepted
        rw [if_neg accepted, if_neg still, spawned]

theorem quiet_backgroundRefresh (world : World) (id : CacheId) (path : Path) (full : Bool) :
    (world.backgroundRefresh id path full).quiet =
      if world.accepts id then
        world.quiet.enqueue
          [.fetch { cache := id, refresh := world.refreshes.length, path, full }]
      else world.quiet := by
  unfold backgroundRefresh
  simp only
  rw [quiet_spawn, accepts_of_quiet (quiet_addRefresh world id path none)]
  rfl

/-! ## Fetches under way -/

theorem quiet_removeSubtree (world : World) (id : CacheId) (path : Path) :
    (world.removeSubtree id path).quiet =
      world.quiet.updateCache id fun cache => (cache.removeSubtree world.now path).2 := by
  unfold removeSubtree
  cases found : world.caches[id]? with
  | none =>
      have absent : world.quiet.caches[id]? = none := by
        rw [quiet_getElem?, found, Option.map_none]
      exact (updateCache_of_none _ absent).symm
  | some cache =>
      simp only [quiet_dispatchAll]
      rw [setCache_eq_updateCache (fun cache => (cache.removeSubtree world.now path).2) found]
      apply quiet_updateCache
      intro other
      rfl

theorem quiet_endVisit (world : World) (visit : Visit) (failure : Option Failure) :
    (world.endVisit visit failure).quiet =
      world.quiet.updateCache visit.cache fun cache =>
        { cache with store := cache.store.endFetch visit.epoch } := by
  unfold endVisit
  simp only [quiet_countDown]
  have ended : (world.updateCache visit.cache fun cache =>
      { cache with store := cache.store.endFetch visit.epoch }).quiet =
        world.quiet.updateCache visit.cache fun cache =>
          { cache with store := cache.store.endFetch visit.epoch } := by
    apply quiet_updateCache
    intro cache
    rfl
  cases failure with
  | none => exact ended
  | some failure => rw [quiet_report, ended]

end World

end WatchedTree
