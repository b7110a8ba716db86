import WatchedTree.Proofs.Connection.Steady
import WatchedTree.Proofs.World.Sound
import WatchedTree.Proofs.World.Visit

/-!
# A world with one cache on a steady session

Whatever the cache keeps: its fetches are ready to run, an event of a node reaches it at once, and a
refresh of a path in its scope queues a fetch.
-/
namespace WatchedTree

open WatchedTree.Path

namespace Ensemble

variable {ensemble : Ensemble} {id : SessionId}

/-- What is told when watches are fired: each event belongs to one of the watches, and no watch that
was armed is left out. -/
theorem exists_told {handler : Generation} (single : ensemble.HasOnly id handler)
    (fires : List (WatchKind × EventKind × Path)) :
    ∃ told : List (EventKind × Path),
      (fireEach fires ensemble).1 =
        told.map (fun event => { handler, event := .ofNode event.1 event.2 }) ∧
      (∀ event ∈ told, ∃ watch, (watch, event) ∈ fires) ∧
      ∀ fire ∈ fires, ensemble.isArmed id fire.1 fire.2.2 = true →
        ∃ kind, (kind, fire.2.2) ∈ told := by
  induction fires generalizing ensemble with
  | nil => exact ⟨[], rfl, by simp, by simp⟩
  | cons fire others inductionHypothesis =>
      obtain ⟨watch, kind, path⟩ := fire
      have head : (ensemble.fire watch kind path).1 =
          if ensemble.isArmed id watch path = true then [{ handler, event := .ofNode kind path }]
          else [] := single.fire_fst kind
      have stillSingle : (ensemble.fire watch kind path).2.HasOnly id handler := single.fire kind
      obtain ⟨told, deliveries, fired, complete⟩ := inductionHypothesis stillSingle
      -- A watch that the first firing consumed is told of by the first event.
      have rest : ∀ other ∈ others, ensemble.isArmed id other.1 other.2.2 = true →
          (other.1 = watch ∧ other.2.2 = path) ∨ ∃ kind, (kind, other.2.2) ∈ told := by
        intro other member armed
        by_cases same : other.1 = watch ∧ other.2.2 = path
        · exact Or.inl same
        · exact Or.inr (complete other member ((isArmed_fire kind).mpr ⟨same, armed⟩))
      by_cases armed : ensemble.isArmed id watch path = true
      · refine ⟨(kind, path) :: told, ?_, ?_, ?_⟩
        · rw [fireEach]
          simp only [head, if_pos armed, deliveries]
          rfl
        · intro event member
          rcases List.mem_cons.mp member with rfl | later
          · exact ⟨watch, List.mem_cons_self⟩
          · obtain ⟨other, isFired⟩ := fired event later
            exact ⟨other, List.mem_cons_of_mem _ isFired⟩
        · intro other member otherArmed
          rcases List.mem_cons.mp member with rfl | later
          · exact ⟨kind, List.mem_cons_self⟩
          · rcases rest other later otherArmed with ⟨_, same⟩ | ⟨otherKind, isTold⟩
            · exact ⟨kind, same ▸ List.mem_cons_self⟩
            · exact ⟨otherKind, List.mem_cons_of_mem _ isTold⟩
      · refine ⟨told, ?_, ?_, ?_⟩
        · rw [fireEach]
          simp only [head, if_neg armed, deliveries, List.nil_append]
        · intro event member
          obtain ⟨other, isFired⟩ := fired event member
          exact ⟨other, List.mem_cons_of_mem _ isFired⟩
        · intro other member otherArmed
          rcases List.mem_cons.mp member with rfl | later
          · exact absurd otherArmed armed
          · rcases rest other later otherArmed with ⟨sameWatch, samePath⟩ | isTold
            · rw [sameWatch, samePath] at otherArmed
              exact absurd otherArmed armed
            · exact isTold

end Ensemble

/-- Removals leave the bounds of a store alone. -/
theorem Cache.isUnbounded_removeSubtree {cache : Cache} (unbounded : cache.store.IsUnbounded)
    (now : Moment) (path : Path) : (cache.removeSubtree now path).2.store.IsUnbounded := by
  have fence := Store.fence_removeSubtree cache.store now path
  have policy := congrArg Fence.policy fence
  exact unbounded.of_fence policy

namespace World

/-- There is one cache; it has started, it keeps what it keeps without bounds, and its session is
the only one, connected, with no obstacle to any read. -/
structure Hosts (world : World) (cache : Cache) (session : SessionId) : Prop where
  caches : world.caches = [cache]
  isStarted : cache.phase = .started
  unbounded : cache.store.IsUnbounded
  connection : world.connection.IsSteady session
  unobserved : world.connection.observer = none
  listeners : world.connection.listeners.snapshot = [0]
  single : world.ensemble.HasOnly session world.connection.generation
  healthy : world.ensemble.failing = []
  unheld : world.ensemble.heldReads = []
  fetches : ∀ task ∈ world.queue, ∃ fetch, task = .fetch fetch ∧ fetch.cache = 0

variable {world : World} {cache : Cache} {session : SessionId} {path : Path} {kind : EventKind}

theorem Hosts.found (hosts : world.Hosts cache session) : world.caches[0]? = some cache := by
  rw [hosts.caches]
  rfl

theorem Hosts.accepts (hosts : world.quiet.Hosts cache session) : world.accepts 0 = true := by
  obtain ⟨other, found, rfl⟩ := exists_of_quiet hosts.found
  exact accepts_of_started found hosts.isStarted

/-- There is no other cache. -/
theorem Hosts.own (hosts : world.quiet.Hosts cache session) {id : CacheId} {other : Cache}
    (found : world.caches[id]? = some other) : id = 0 ∧ other.quiet = cache := by
  have quietFound := quiet_found found
  rw [hosts.caches] at quietFound
  cases id with
  | zero => exact ⟨rfl, (Option.some.inj quietFound).symm⟩
  | succ later => cases quietFound

theorem Hosts.cacheSound (hosts : world.quiet.Hosts cache session) (sound : world.Sound) :
    cache.Sound world.ensemble := by
  obtain ⟨other, found, rfl⟩ := exists_of_quiet hosts.found
  exact (sound.caches 0 other found).of_eq rfl rfl

theorem Hosts.enqueue (hosts : world.Hosts cache session) {fetches : List Fetch}
    (own : ∀ fetch ∈ fetches, fetch.cache = 0) :
    (world.enqueue (fetches.map Task.fetch)).Hosts cache session :=
  { hosts with
    fetches := by
      intro task member
      rcases List.mem_append.mp member with old | new
      · exact hosts.fetches task old
      · obtain ⟨fetch, isFetch, rfl⟩ := List.mem_map.mp new
        exact ⟨fetch, rfl, own fetch isFetch⟩ }

theorem Hosts.setCache (hosts : world.Hosts cache session) {after : Cache}
    (phase : after.phase = cache.phase) (unbounded : after.store.IsUnbounded) :
    (world.setCache 0 after).Hosts after session :=
  { hosts with
    caches := by
      rw [World.setCache, hosts.caches]
      rfl
    isStarted := phase.trans hosts.isStarted
    unbounded := unbounded }

theorem Hosts.setEnsemble (hosts : world.Hosts cache session) {remote : Ensemble}
    (single : remote.HasOnly session world.connection.generation)
    (healthy : remote.failing = []) (unheld : remote.heldReads = []) :
    (world.setEnsemble remote).Hosts cache session :=
  { hosts with
    connection := { hosts.connection with }
    single := single
    healthy := healthy
    unheld := unheld }

theorem Hosts.popped (hosts : world.quiet.Hosts cache session) {task : Task}
    {tasks : List Task} (queue : world.queue = task :: tasks) :
    ({ world with queue := tasks } : World).quiet.Hosts cache session :=
  { hosts with
    fetches := by
      intro other member
      obtain ⟨inTasks, isWork⟩ := List.mem_filter.mp member
      have inQueue : other ∈ world.queue := queue ▸ List.mem_cons_of_mem task inTasks
      exact hosts.fetches other (List.mem_filter.mpr ⟨inQueue, isWork⟩) }

/-- Every queued fetch in scope is ready to run. -/
theorem Hosts.ready (hosts : world.quiet.Hosts cache session)
    (remembers : cache.store.Remembers) {fetch : Fetch} (own : fetch.cache = 0) {action : Action}
    {traverse : Bool} (scope : cache.scope fetch.path = some (action, traverse)) :
    ∃ other, other.quiet = cache ∧
      world.Ready fetch other action traverse session world.connection := by
  obtain ⟨other, found, rfl⟩ := exists_of_quiet hosts.found
  have healthy : world.ensemble.failing = [] := hosts.healthy
  have unheld : world.ensemble.heldReads = [] := hosts.unheld
  refine ⟨other, rfl, ?_⟩
  exact
    { found := own ▸ found
      isStarted := hosts.isStarted
      scope := scope
      acquired := hosts.connection.acquire world.now
      answers :=
        { isOpen := hosts.single.isOpen
          healthy := by
            change fetch.path ∉ world.ensemble.failing
            simp [healthy]
          unheld := by
            change (world.ensemble.heldReads.get? fetch.path).filter _ = none
            simp [unheld] }
      remembers := remembers }

/-- A fetch that finds its node keeps it, and goes on with the children if it follows them. -/
theorem Hosts.quiet_runFetch_of_present (hosts : world.quiet.Hosts cache session)
    (remembers : cache.store.Remembers) {fetch : Fetch} (own : fetch.cache = 0) {action : Action}
    {traverse : Bool} (scope : cache.scope fetch.path = some (action, traverse))
    {node : RemoteNode} (present : world.ensemble.nodes.get? fetch.path = some node) :
    let names := cache.listing world.ensemble fetch.path
    let after := visited cache world.now action traverse (nodeOf fetch.path action node names) names
    (world.runFetch fetch).quiet =
      ((world.quiet.setEnsemble
        (world.ensemble.surveyed session fetch.path action traverse)).setCache 0
          (after.ended cache.store.epoch)).enqueue
        (if traverse then
          (after.wantedChildren world.now fetch.full fetch.path names).map
            fun path => .fetch { fetch with path }
        else []) := by
  obtain ⟨other, rfl, ready⟩ := hosts.ready remembers own scope
  have outcome := ready.quiet_runFetch_of_present present
  obtain ⟨id, refresh, path, full⟩ := fetch
  simp only at own
  subst own
  exact outcome

/-- A fetch that finds no node drops what its path covers, and watches for the base. -/
theorem Hosts.quiet_runFetch_of_absent (hosts : world.quiet.Hosts cache session)
    (remembers : cache.store.Remembers) {fetch : Fetch} (own : fetch.cache = 0) {action : Action}
    {traverse : Bool} (scope : cache.scope fetch.path = some (action, traverse))
    (reads : (action.wantsStat || action.wantsChildren || traverse) = true)
    (absent : world.ensemble.nodes.get? fetch.path = none) :
    let missed := world.ensemble.missed session fetch.path action
    (world.runFetch fetch).quiet =
      (world.quiet.setEnsemble
        (if fetch.path = cache.options.basePath then
          missed.countRead.arm session .data fetch.path
        else missed)).setCache 0
          ((cache.begun.removeSubtree world.now fetch.path).2.ended cache.store.epoch) := by
  obtain ⟨other, rfl, ready⟩ := hosts.ready remembers own scope
  have outcome := ready.quiet_runFetch_of_absent absent reads
  rw [own] at outcome
  exact outcome

/-- A fetch outside the cache has nothing to do. -/
theorem Hosts.quiet_runFetch_of_outside (hosts : world.quiet.Hosts cache session)
    {fetch : Fetch} (own : fetch.cache = 0) (outside : cache.scope fetch.path = none) :
    (world.runFetch fetch).quiet = world.quiet := by
  obtain ⟨other, found, rfl⟩ := exists_of_quiet hosts.found
  have scope : other.scope fetch.path = none := outside
  unfold World.runFetch
  rw [own]
  simp only [found, scope, ite_self, quiet_countDown]

/-- A refresh of a path in scope queues a fetch of it; no other refresh has any effect. -/
theorem Hosts.quiet_refresh (hosts : world.quiet.Hosts cache session) (id : CacheId)
    (path : Path) :
    (world.refresh id path).2.quiet =
      if id = 0 ∧ (cache.scope path).isSome then
        world.quiet.enqueue
          [.fetch { cache := 0, refresh := world.refreshes.length, path, full := true }]
      else world.quiet := by
  by_cases isOwn : id = 0
  · subst isOwn
    obtain ⟨other, found, rfl⟩ := exists_of_quiet hosts.found
    have phase : other.phase = .started := hosts.isStarted
    have scope : other.quiet.scope path = other.scope path := rfl
    unfold World.refresh
    simp only [found, phase, scope, true_and]
    cases inScope : other.scope path with
    | none =>
        simp only [Option.isNone_none, if_true, Option.isSome_none, Bool.false_eq_true, if_false]
        exact quiet_settledToken world _
    | some reads =>
        have acquired : world.acquire = (.ok session, world) := by
          have steady : world.connection.IsSteady session := hosts.connection
          rw [World.acquire, steady.acquire]
        simp only [Option.isNone_some, Bool.false_eq_true, if_false, Option.isSome_some, if_true,
          acquired]
        rw [quiet_spawn]
        have accepted : ((world.addChannel {}).2.addRefresh 0 path
            (some (world.addChannel {}).1)).2.accepts 0 = true := hosts.accepts
        rw [if_pos accepted]
        rfl
  · have none : world.caches[id]? = none := by
      rw [Option.eq_none_iff_forall_ne_some]
      exact fun other found => isOwn (hosts.own found).1
    unfold World.refresh
    simp only [none, isOwn, false_and, if_false]
    exact quiet_settledToken world _

/-- The event of a node reaches the cache at once. -/
theorem Hosts.deliverEvent_ofNode (hosts : world.quiet.Hosts cache session)
    (isChange : kind ≠ .session) (path : Path) :
    world.deliverEvent { handler := world.connection.generation, event := .ofNode kind path } =
      tell (.ofNode kind path) 0 world := by
  have unobserved : world.connection.observer = none := hosts.unobserved
  have listeners : world.connection.listeners.snapshot = [0] := hosts.listeners
  unfold deliverEvent occur Connection.forward
  rw [if_pos rfl]
  simp only [Connection.absorb_ofNode world.connection world.now isChange path, unobserved,
    listeners]
  rfl

/-- The quiet part of a background refresh of the cache. -/
theorem Hosts.quiet_backgroundRefresh (hosts : world.quiet.Hosts cache session) (path : Path)
    (full : Bool) :
    (world.backgroundRefresh 0 path full).quiet =
      world.quiet.enqueue
        [.fetch { cache := 0, refresh := world.refreshes.length, path, full }] := by
  rw [World.quiet_backgroundRefresh, if_pos hosts.accepts]

end World

end WatchedTree
