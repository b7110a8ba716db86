import WatchedTree.Proofs.Mirror.Changes
import WatchedTree.Proofs.Mirror.Hosting

/-!
# What a world with one mirror hears

One started cache of payloads and stats on a steady session. The events of a change reach it at
once, one after the other.
-/
namespace WatchedTree

open WatchedTree.Path

namespace World

/-- What the cache of a world has of the tree, and which fetches of it are queued. -/
def mirror (world : World) (cache : Cache) (session : SessionId) : Mirror where
  base := cache.options.basePath
  session := session
  remote := world.ensemble
  shown := cache.store.peek world.now
  pending := fun path => ∃ fetch, Task.fetch fetch ∈ world.queue ∧ fetch.path = path

/-- There is one cache; it has started, it keeps payloads and stats below its base without bounds,
and its session is the only one, connected, with no obstacle to any read. -/
structure Serves (world : World) (cache : Cache) (session : SessionId) : Prop where
  caches : world.caches = [cache]
  isStarted : cache.phase = .started
  mode : cache.options.mode = .subtree (.uniform .statAndData)
  unbounded : cache.store.IsUnbounded
  connection : world.connection.IsSteady session
  unobserved : world.connection.observer = none
  listeners : world.connection.listeners.snapshot = [0]
  single : world.ensemble.HasOnly session world.connection.generation
  healthy : world.ensemble.failing = []
  unheld : world.ensemble.heldReads = []
  fetches : ∀ task ∈ world.queue, ∃ fetch, task = .fetch fetch ∧ fetch.cache = 0

variable {world : World} {cache : Cache} {session : SessionId} {path : Path} {kind : EventKind}

theorem Serves.scope (serves : world.Serves cache session) (path : Path) :
    cache.scope path =
      if path = cache.options.basePath then some (.notStored, true)
      else if isBelow cache.options.basePath path then some (.statAndData, true)
      else none := by
  rw [Cache.scope, serves.mode]
  rfl

theorem Serves.scope_eq_none_iff (serves : world.Serves cache session) :
    cache.scope path = none ↔ ¬ Covers cache.options.basePath path := by
  rw [serves.scope]
  by_cases isBase : path = cache.options.basePath
  · simp [isBase, Covers]
  · by_cases below : isBelow cache.options.basePath path = true
    · simp [isBase, below, Covers]
    · simp [isBase, below, Covers]

/-- All that does not concern the mode holds of any cache that is there alone. -/
theorem Serves.hosts (serves : world.Serves cache session) : world.Hosts cache session :=
  { serves with }

theorem Hosts.serves (hosts : world.Hosts cache session)
    (mode : cache.options.mode = .subtree (.uniform .statAndData)) :
    world.Serves cache session := { hosts with mode }

theorem Serves.found (serves : world.Serves cache session) : world.caches[0]? = some cache :=
  serves.hosts.found

theorem Serves.enqueue (serves : world.Serves cache session) {fetches : List Fetch}
    (own : ∀ fetch ∈ fetches, fetch.cache = 0) :
    (world.enqueue (fetches.map Task.fetch)).Serves cache session :=
  (serves.hosts.enqueue own).serves serves.mode

theorem Serves.setCache (serves : world.Serves cache session) {after : Cache}
    (options : after.options = cache.options) (phase : after.phase = cache.phase)
    (unbounded : after.store.IsUnbounded) :
    (world.setCache 0 after).Serves after session :=
  (serves.hosts.setCache phase unbounded).serves (options ▸ serves.mode)

theorem Serves.setEnsemble (serves : world.Serves cache session) {remote : Ensemble}
    (single : remote.HasOnly session world.connection.generation)
    (healthy : remote.failing = []) (unheld : remote.heldReads = []) :
    (world.setEnsemble remote).Serves cache session :=
  (serves.hosts.setEnsemble single healthy unheld).serves serves.mode

/-! ## One event -/

/-- A later world with the same connection, in which the cache has heard of events. -/
structure Heard (later world : World) (cache : Cache) (session : SessionId)
    (told : List (EventKind × Path)) (after : Cache) : Prop where
  serves : later.quiet.Serves after session
  connection : later.connection = world.connection
  options : after.options = cache.options
  hears : (later.quiet.mirror after session).Hears (world.quiet.mirror cache session) told

theorem Serves.hear_nothing (serves : world.quiet.Serves cache session)
    {told : List (EventKind × Path)}
    (outside : ∀ event ∈ told, ¬ Covers cache.options.basePath event.2) :
    world.Heard world cache session told cache where
  serves := serves
  connection := rfl
  options := rfl
  hears :=
    { base := rfl
      session := rfl
      remote := rfl
      pending := fun _ pending => pending
      fetched := fun kind path member covers _ => absurd covers (outside (kind, path) member)
      gone := fun gone _ member covers _ => absurd covers (outside (.deleted, gone) member)
      kept := fun _ _ => rfl }

/-- A background refresh fetches what the event is about. -/
theorem Serves.hear_refresh (serves : world.quiet.Serves cache session)
    (notDeletion : kind ≠ .deleted) (full : Bool) :
    (world.backgroundRefresh 0 path full).Heard world cache session [(kind, path)] cache := by
  have queued := serves.hosts.quiet_backgroundRefresh path full
  have own : ∀ fetch ∈ [({ cache := 0, refresh := world.refreshes.length, path, full } : Fetch)],
      fetch.cache = 0 := by
    intro fetch member
    rw [List.mem_singleton.mp member]
  have connection := congrArg World.connection queued
  rw [quiet_connection] at connection
  refine
    { serves := queued ▸ serves.enqueue own
      connection := connection
      options := rfl
      hears := ?_ }
  rw [queued]
  refine
    { base := rfl
      session := rfl
      remote := rfl
      pending := ?_
      fetched := ?_
      gone := ?_
      kept := fun _ _ => rfl }
  · rintro key ⟨fetch, member, isPath⟩
    exact ⟨fetch, List.mem_append_left _ member, isPath⟩
  · intro told key member _ _
    rw [List.mem_singleton] at member
    cases member
    exact ⟨_, List.mem_append_right _ (List.mem_singleton.mpr rfl), rfl⟩
  · intro gone key member
    rw [List.mem_singleton] at member
    cases member
    exact absurd rfl notDeletion

theorem Serves.hear_removal (serves : world.quiet.Serves cache session)
    (inScope : Covers cache.options.basePath path) {later : World} (fetches : List Fetch)
    (own : ∀ fetch ∈ fetches, fetch.cache = 0)
    (fetched : path = cache.options.basePath → ∃ fetch ∈ fetches, fetch.path = path)
    (removed : later.quiet = (world.quiet.setCache 0
      (cache.removeSubtree world.now path).2).enqueue (fetches.map Task.fetch)) :
    later.Heard world cache session [(.deleted, path)] (cache.removeSubtree world.now path).2 := by
  have unbounded := Cache.isUnbounded_removeSubtree serves.unbounded world.now path
  have connection := congrArg World.connection removed
  rw [quiet_connection] at connection
  have shown : ∀ key, (cache.removeSubtree world.now path).2.store.peek world.now key =
      if Covers path key then none else cache.store.peek world.now key :=
    Store.peek_removeSubtree cache.store world.now world.now path
  have kept := serves.setCache (cache.options_removeSubtree world.now path)
    (cache.phase_removeSubtree world.now path) unbounded
  refine
    { serves := removed ▸ kept.enqueue own
      connection := connection
      options := rfl
      hears := ?_ }
  rw [removed]
  refine
    { base := rfl
      session := rfl
      remote := rfl
      pending := ?_
      fetched := ?_
      gone := ?_
      kept := ?_ }
  · rintro key ⟨fetch, member, isPath⟩
    exact ⟨fetch, List.mem_append_left _ member, isPath⟩
  · intro told key member _ isBase
    rw [List.mem_singleton] at member
    cases member
    obtain ⟨fetch, isFetch, isPath⟩ := fetched (isBase rfl)
    exact ⟨fetch, List.mem_append_right _ (List.mem_map.mpr ⟨fetch, isFetch, rfl⟩), isPath⟩
  · intro gone key member _ covers
    rw [List.mem_singleton] at member
    cases member
    exact (shown key).trans (if_pos covers)
  · intro key uncovered
    exact (shown key).trans (if_neg (uncovered path (List.mem_singleton.mpr rfl) inScope))

theorem tell_ofNode (world : World) {id : CacheId} (found : world.caches[id]? = some cache)
    (isStarted : cache.phase = .started) (isChange : kind ≠ .session) (path : Path) :
    tell (.ofNode kind path) id world =
      if (cache.scope path).isNone then world
      else match kind with
        | .session => world
        | .created => world.backgroundRefresh id path true
        | .dataChanged | .childrenChanged => world.backgroundRefresh id path false
        | .deleted =>
          let removed := world.removeSubtree id path
          if path = cache.options.basePath then removed.backgroundRefresh id path true
          else removed := by
  have isOpen : cache.isClosed = false := by simp [Cache.isClosed, isStarted]
  unfold tell
  simp only [found, isOpen]
  cases kind with
  | session => exact absurd rfl isChange
  | created | deleted | dataChanged | childrenChanged => rfl

/-- The cache hears of an event of a node. -/
theorem Serves.hear_tell (serves : world.quiet.Serves cache session) (isChange : kind ≠ .session)
    (path : Path) :
    ∃ after, (tell (.ofNode kind path) 0 world).Heard world cache session [(kind, path)] after := by
  obtain ⟨other, found, isQuiet⟩ := exists_of_quiet serves.found
  have phase := congrArg Cache.phase isQuiet
  have options := congrArg Cache.options isQuiet
  rw [Cache.quiet_phase, serves.isStarted] at phase
  rw [Cache.quiet_options] at options
  have scope : other.scope path = cache.scope path := by rw [Cache.scope, options, Cache.scope]
  rw [tell_ofNode world found phase isChange, scope, options]
  by_cases inScope : Covers cache.options.basePath path
  · have someScope : ¬ (cache.scope path).isNone = true := by
      rw [Option.isNone_iff_eq_none, serves.scope_eq_none_iff]
      exact not_not.mpr inScope
    rw [if_neg someScope]
    cases kind with
    | session => exact absurd rfl isChange
    | created => exact ⟨cache, serves.hear_refresh (by simp) true⟩
    | dataChanged => exact ⟨cache, serves.hear_refresh (by simp) false⟩
    | childrenChanged => exact ⟨cache, serves.hear_refresh (by simp) false⟩
    | deleted =>
        refine ⟨(cache.removeSubtree world.now path).2, ?_⟩
        have removed : (world.removeSubtree 0 path).quiet =
            world.quiet.setCache 0 (cache.removeSubtree world.now path).2 := by
          rw [quiet_removeSubtree, ← setCache_eq_updateCache _ serves.found]
        simp only
        by_cases isBase : path = cache.options.basePath
        · rw [if_pos isBase]
          have unbounded := Cache.isUnbounded_removeSubtree serves.unbounded world.now path
          have kept := serves.hosts.setCache (cache.phase_removeSubtree world.now path) unbounded
          rw [← removed] at kept
          have queued := kept.quiet_backgroundRefresh path true
          rw [removed] at queued
          refine serves.hear_removal inScope [_] ?_ ?_ queued
          · intro fetch member
            rw [List.mem_singleton.mp member]
          · exact fun _ => ⟨_, List.mem_singleton.mpr rfl, rfl⟩
        · rw [if_neg isBase]
          rw [← enqueue_nil (world.quiet.setCache 0 _)] at removed
          exact serves.hear_removal inScope [] (by simp) (fun same => absurd same isBase) removed
  · have noScope : (cache.scope path).isNone = true := by
      rw [Option.isNone_iff_eq_none, serves.scope_eq_none_iff]
      exact inScope
    rw [if_pos noScope]
    refine ⟨cache, serves.hear_nothing ?_⟩
    intro event member
    rw [List.mem_singleton.mp member]
    exact inScope

/-- Several events, each handed to the handler of the session, in their order. -/
theorem Serves.hear_all {told : List (EventKind × Path)}
    (isChange : ∀ event ∈ told, event.1 ≠ .session)
    (serves : world.quiet.Serves cache session) :
    ∃ after, ((told.map fun event =>
        { handler := world.connection.generation, event := .ofNode event.1 event.2 }).foldl
          deliverEvent world).Heard world cache session told after := by
  induction told generalizing world cache with
  | nil => exact ⟨cache, serves.hear_nothing (by simp)⟩
  | cons event others inductionHypothesis =>
      obtain ⟨kind, path⟩ := event
      have first : kind ≠ .session := isChange (kind, path) List.mem_cons_self
      obtain ⟨middle, heard⟩ := serves.hear_tell first path
      have told := serves.hosts.deliverEvent_ofNode first path
      have rest : ∀ event ∈ others, event.1 ≠ .session :=
        fun event member => isChange event (List.mem_cons_of_mem _ member)
      obtain ⟨after, heardRest⟩ := inductionHypothesis rest heard.serves
      refine ⟨after, ?_⟩
      rw [List.map_cons, List.foldl_cons, told]
      rw [heard.connection] at heardRest
      exact
        { serves := heardRest.serves
          connection := heardRest.connection.trans heard.connection
          options := heardRest.options.trans heard.options
          hears := heardRest.hears.append heard.hears }

end World

end WatchedTree
