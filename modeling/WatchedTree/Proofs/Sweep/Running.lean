import WatchedTree.Proofs.Connection.Steady
import WatchedTree.Proofs.Sweep.Fetches
import WatchedTree.Proofs.World.Ledger
import WatchedTree.Proofs.World.Reached

/-!
# A world that carries out a sweep

The queued fetches of a refresh are the pending paths of a sweep in their order, and their number is
what the refresh counts. Every fetch that is run brings the world to the next stage.
-/
namespace WatchedTree

open WatchedTree.Path

/-- On whose behalf a sweep is carried out, and what the cache has told before. -/
structure Errand where
  cache : CacheId
  refresh : RefreshId
  channel : ChannelId
  session : SessionId
  said : List CacheEvent

def Errand.fetch (errand : Errand) (path : Path) : Fetch :=
  { cache := errand.cache, refresh := errand.refresh, path, full := true }

/-- What is told at the end of a refresh. -/
def Sweep.closing (sweep : Sweep) : List CacheEvent :=
  if sweep.options.sendRefreshEvents then [.refreshed sweep.base] else []

namespace World

structure Sweeps (world : World) (errand : Errand) (sweep : Sweep) (stage : Sweep.Stage) :
    Prop where
  sound : world.Sound
  unbounded : sweep.options.eviction = {}
  found : ∃ cache, world.caches[errand.cache]? = some cache ∧ cache.options = sweep.options ∧
    cache.phase = .started ∧ ∀ key, stage.cached key = cache.store.peek world.now key
  queue : world.quiet.queue = stage.pending.map fun path => .fetch (errand.fetch path)
  connection : world.connection.IsAtHand world.now errand.session
  tree : world.ensemble.nodes = sweep.remote.nodes
  answers : ∀ path, sweep.scope path ≠ none → world.ensemble.Answers errand.session path
  journal : world.journal errand.cache = errand.said ++ stage.told ++
    if stage.pending = [] then sweep.closing else []
  awaits : stage.pending ≠ [] → world.Awaits errand.cache errand.refresh errand.channel sweep.base
    stage.pending.length
  resolved : stage.pending = [] →
    world.channels[errand.channel]? = some { slot := .resolved (.ok ()) }

variable {world : World} {errand : Errand} {sweep : Sweep} {stage : Sweep.Stage} {path : Path}
  {rest : List Path} {tasks : List Task} {cache : Cache}

/-- What a fetch tells and counts, at whose end some paths are pending. -/
theorem Sweeps.ledger (sweeps : world.Sweeps errand sweep stage)
    (queued : stage.pending = path :: rest) {after : World}
    (found : world.caches[errand.cache]? = some cache) {action : Action} {traverse : Bool}
    {children : List Path} {events : List CacheEvent}
    (ends : after.EndsWith { world with queue := tasks }
      (visitOf (errand.fetch path) cache action traverse errand.session) cache events
      children.length) :
    (after.journal errand.cache = errand.said ++ (stage.told ++ events) ++
        if rest ++ children = [] then sweep.closing else []) ∧
      (rest ++ children ≠ [] → after.Awaits errand.cache errand.refresh errand.channel sweep.base
        (rest ++ children).length) ∧
      (rest ++ children = [] →
        after.channels[errand.channel]? = some { slot := .resolved (.ok ()) }) := by
  obtain ⟨other, otherFound, isOptions, isStarted, _⟩ := sweeps.found
  rw [found] at otherFound
  cases otherFound
  have someTasks : stage.pending ≠ [] := by
    rw [queued]
    exact List.cons_ne_nil _ _
  have awaits := sweeps.awaits someTasks
  have before := sweeps.journal
  rw [queued, List.length_cons] at awaits
  rw [if_neg someTasks, List.append_nil] at before
  have popped : ({ world with queue := tasks } : World).Awaits errand.cache errand.refresh
      errand.channel sweep.base (rest.length + 1) := awaits.of_same rfl rfl
  have journal : ({ world with queue := tasks } : World).journal errand.cache =
      errand.said ++ stage.told := before
  by_cases last : rest ++ children = []
  · obtain ⟨rfl, rfl⟩ := List.append_eq_nil_iff.mp last
    obtain ⟨resolved, told⟩ := ends.of_last popped isStarted
    refine ⟨?_, fun goesOn => absurd last goesOn, fun _ => resolved⟩
    refine told.trans ?_
    rw [if_pos last, isOptions]
    change ({ world with queue := tasks } : World).journal errand.cache ++ _ ++ _ = _
    rw [journal, List.append_assoc errand.said]
    rfl
  · have goesOn : rest.length + children.length ≠ 0 := by
      rw [← List.length_append]
      exact fun none => last (List.eq_nil_of_length_eq_zero none)
    obtain ⟨still, told⟩ := ends.of_more popped goesOn
    refine ⟨?_, fun _ => ?_, fun none => absurd none last⟩
    · refine told.trans ?_
      rw [if_neg last, List.append_nil, ← List.append_assoc]
      exact congrArg (· ++ events) journal
    · rw [List.length_append]
      exact still

/-- What a fetch leaves behind brings the world to the next stage. -/
theorem Sweeps.advance (sweeps : world.Sweeps errand sweep stage)
    (queued : stage.pending = path :: rest) {after : World} (sound : after.Sound)
    (popped : ({ world with queue := tasks } : World).quiet.queue =
      rest.map fun path => .fetch (errand.fetch path))
    (found : world.caches[errand.cache]? = some cache) {action : Action} {traverse : Bool}
    {remote : Ensemble} {kept : Cache} {children : List Path} {events : List CacheEvent}
    (quiet : after.quiet =
      ((({ world with queue := tasks } : World).quiet.observing world.connection remote).setCache
        errand.cache kept).enqueue (children.map fun child => .fetch (errand.fetch child)))
    (tree : remote.nodes = world.ensemble.nodes)
    (answers : ∀ key, world.ensemble.Answers errand.session key →
      remote.Answers errand.session key)
    (options : kept.options = cache.options) (phase : kept.phase = cache.phase)
    (ends : after.EndsWith { world with queue := tasks }
      (visitOf (errand.fetch path) cache action traverse errand.session) cache events
      children.length) :
    after.Sweeps errand sweep
      (stage.passed path rest children events fun key => kept.store.peek world.now key) := by
  obtain ⟨other, otherFound, isOptions, isStarted, _⟩ := sweeps.found
  rw [found] at otherFound
  cases otherFound
  have now : after.now = world.now := by
    rw [← quiet_now, quiet]
    rfl
  have connection : after.connection = { world.connection with remote } := by
    rw [← quiet_connection, quiet]
    rfl
  have quietFound : ({ world with queue := tasks } : World).quiet.caches[errand.cache]? =
      some cache.quiet := quiet_found found
  have inPlace : after.quiet.caches[errand.cache]? = some kept := by
    rw [quiet]
    exact getElem?_setCache quietFound kept
  obtain ⟨held, heldFound, isHeld⟩ := exists_of_quiet inPlace
  obtain ⟨journal, awaits, resolved⟩ := sweeps.ledger queued found ends
  refine
    { sound := sound
      unbounded := sweeps.unbounded
      found := ⟨held, heldFound, ?_, ?_, ?_⟩
      queue := ?_
      connection := ?_
      tree := ?_
      answers := ?_
      journal := journal
      awaits := awaits
      resolved := resolved }
  · have same := congrArg Cache.options isHeld
    exact same.trans (options.trans isOptions)
  · have same := congrArg Cache.phase isHeld
    exact same.trans (phase.trans isStarted)
  · intro key
    have same := congrArg Cache.store isHeld
    rw [Cache.quiet_store] at same
    rw [same, now]
    rfl
  · rw [quiet]
    change ({ world with queue := tasks } : World).quiet.queue ++ _ = _
    rw [popped, ← List.map_append]
    rfl
  · rw [connection, now]
    exact ⟨sweeps.connection.session, sweeps.connection.calm, sweeps.connection.notClosed,
      sweeps.connection.inTime⟩
  · rw [ensemble, connection]
    exact tree.trans sweeps.tree
  · intro key inScope
    rw [ensemble, connection]
    exact answers key (sweeps.answers key inScope)

theorem Sweeps.ready (sweeps : world.Sweeps errand sweep stage) (tasks : List Task)
    (found : world.caches[errand.cache]? = some cache) {action : Action} {traverse : Bool}
    (isScope : sweep.scope path = some (action, traverse)) :
    ({ world with queue := tasks } : World).Ready (errand.fetch path) cache action traverse
      errand.session world.connection := by
  obtain ⟨other, otherFound, isOptions, isStarted, _⟩ := sweeps.found
  rw [found] at otherFound
  cases otherFound
  have inScope : sweep.scope path ≠ none := by
    rw [isScope]
    exact Option.some_ne_none _
  exact
    { found := found
      isStarted := isStarted
      scope := by
        change cache.scope path = _
        rw [Cache.scope, isOptions]
        exact isScope
      acquired := sweeps.connection.acquire
      answers := sweeps.answers path inScope
      remembers := (sweeps.sound.caches errand.cache cache found).remembers }

theorem listing_eq {ensemble : Ensemble} (isOptions : cache.options = sweep.options)
    (tree : ensemble.nodes = sweep.remote.nodes) (path : Path) :
    cache.listing ensemble path = sweep.listing path := by
  rw [Cache.listing, Sweep.listing, Ensemble.childNames, Ensemble.childNames, isOptions, tree]

theorem wantsFetch_full_iff (isOptions : cache.options = sweep.options) (now : Moment)
    (path : Path) :
    cache.wantsFetch now true path = true ↔ sweep.Keeps path ∨ sweep.Follows path := by
  have isScope : cache.scope path = sweep.scope path := by
    rw [Cache.scope, isOptions]
    rfl
  unfold Cache.wantsFetch Sweep.Keeps Sweep.Follows
  rw [isScope]
  cases sweep.scope path with
  | none => simp
  | some scope =>
      obtain ⟨action, traverse⟩ := scope
      simp [and_comm]

/-- The children that a full fetch queues. -/
theorem continues_wantedChildren (sound : sweep.Sound) (isOptions : cache.options = sweep.options)
    (now : Moment) (valid : path.IsValid) (traverse : Bool) :
    sweep.Continues path traverse
      (if traverse then cache.wantedChildren now true path (sweep.listing path) else []) where
  distinct := by
    split
    · apply Cache.nodup_wantedChildren valid _ (sound.distinct path valid)
      exact fun name listed => ((Sweep.mem_listing valid).mp listed).1
    · exact List.nodup_nil
  mem := by
    intro child
    cases traverse with
    | false => simp
    | true =>
        simp only [if_true, true_and]
        rw [Cache.mem_wantedChildren]
        simp only [wantsFetch_full_iff isOptions]

/-- The next stage, by what a visit makes of the cache. -/
theorem passes_of_visited (sound : sweep.Sound) (admits : sweep.Admits stage)
    (queued : stage.pending = path :: rest) (isOptions : cache.options = sweep.options)
    (isStarted : cache.phase = .started) (unbounded : cache.store.IsUnbounded)
    (remembers : cache.store.Remembers) (placed : cache.IsPlaced) {now : Moment}
    (isCached : ∀ key, stage.cached key = cache.store.peek now key) {action : Action}
    {traverse : Bool} (isScope : sweep.scope path = some (action, traverse)) {node : RemoteNode}
    (present : sweep.remote.nodes.get? path = some node) (valid : path.IsValid)
    (notOlder : ∀ old, cache.store.peek now path = some old →
      (nodeOf path action node (sweep.listing path)).isOlderThan old = false) :
    let read := nodeOf path action node (sweep.listing path)
    let after := visited cache now action traverse read (sweep.listing path)
    let children :=
      if traverse then after.wantedChildren now true path (sweep.listing path) else []
    let events := visitEvents cache now action traverse read (sweep.listing path)
    sweep.Passes
      (stage.passed path rest children events fun key =>
        (after.ended cache.store.epoch).store.peek now key)
      stage path rest children events := by
  intro read after children events
  have readValid : read.path.IsValid := valid
  have afterOptions : after.options = cache.options := options_visited
  have asked : sweep.Continues path traverse children :=
    continues_wantedChildren sound (afterOptions.trans isOptions) now valid traverse
  have peek : ∀ key, (after.ended cache.store.epoch).store.peek now key =
      if key = path then
        if action.isStored = true then some read else cache.store.peek now key
      else if sweep.Omits path traverse key then none
      else cache.store.peek now key := by
    intro key
    rw [Cache.peek_ended]
    exact peek_visited unbounded remembers placed isStarted readValid notOlder key
  have about : ∀ key, CacheEvent.about events key =
      if key = path then
        if action.isStored = true then
          CacheEvent.between cache.options.comparator.isSame (cache.store.peek now path) (some read)
        else []
      else if sweep.Omits path traverse key then cache.deletions now key
      else [] :=
    about_visitEvents unbounded remembers placed isStarted readValid notOlder
  apply sound.passes_of_present admits queued isScope present asked
  · rw [peek, if_pos rfl, isCached]
  · rw [about, if_pos rfl, peek, if_pos rfl, isOptions, isCached]
    split
    · rfl
    · rfl
  · intro key notPath omitted
    rw [peek, about, if_neg notPath, if_neg notPath, if_pos omitted, if_pos omitted, isCached,
      CacheEvent.between_none]
    exact ⟨rfl, rfl⟩
  · intro key notPath notOmitted
    rw [peek, about, if_neg notPath, if_neg notPath, if_neg notOmitted, if_neg notOmitted, isCached]
    exact ⟨rfl, rfl⟩
  · intro event member
    exact valid_of_mem_visitEvents unbounded remembers placed isStarted readValid notOlder member

theorem Sweeps.isUnbounded (sweeps : world.Sweeps errand sweep stage)
    (found : world.caches[errand.cache]? = some cache) (isOptions : cache.options = sweep.options) :
    cache.store.IsUnbounded := by
  have policy := (sweeps.sound.caches errand.cache cache found).policy
  rw [isOptions, sweeps.unbounded] at policy
  exact policy

/-- The fetch of a pending path that is a node. -/
theorem Sweeps.fetch_of_present (sweeps : world.Sweeps errand sweep stage)
    (admits : sweep.Admits stage) (sound : sweep.Sound) (queued : stage.pending = path :: rest)
    (popped : ({ world with queue := tasks } : World).quiet.queue =
      rest.map fun path => .fetch (errand.fetch path))
    (still : (({ world with queue := tasks } : World).runFetch (errand.fetch path)).Sound)
    {action : Action} {traverse : Bool} (isScope : sweep.scope path = some (action, traverse))
    {node : RemoteNode} (present : sweep.remote.nodes.get? path = some node) :
    ∃ children events cached,
      sweep.Passes (stage.passed path rest children events cached) stage path rest children events ∧
      (({ world with queue := tasks } : World).runFetch (errand.fetch path)).Sweeps errand sweep
        (stage.passed path rest children events cached) := by
  obtain ⟨cache, found, isOptions, isStarted, isCached⟩ := sweeps.found
  have ready := sweeps.ready tasks found isScope
  have cacheSound := sweeps.sound.caches errand.cache cache found
  have tree : world.connection.remote.nodes = sweep.remote.nodes := sweeps.tree
  have there : world.connection.remote.nodes.get? path = some node := by rw [tree, present]
  have names : cache.listing world.connection.remote path = sweep.listing path :=
    listing_eq isOptions tree path
  have isPath : (errand.fetch path).path = path := rfl
  have quiet := ready.quiet_runFetch_of_present there
  have ends := ready.endsWith_of_present there
  simp only [isPath, names] at quiet ends
  have member : path ∈ stage.pending := by
    rw [queued]
    exact List.mem_cons_self
  have valid := sound.valid_of_isDue (admits.due path member)
  have unbounded := sweeps.isUnbounded found isOptions
  have quietCached : ∀ key, stage.cached key = cache.quiet.store.peek world.now key := isCached
  have quietOptions : cache.quiet.options = sweep.options := isOptions
  have passes := passes_of_visited sound admits queued quietOptions isStarted unbounded
    cacheSound.remembers cacheSound.isPlaced quietCached isScope present valid
    fun old cached => notOlder_of_sound cacheSound there cached
  refine ⟨_, _, _, passes, ?_⟩
  let read := nodeOf path action node (sweep.listing path)
  let kept := visited cache.quiet world.now action traverse read (sweep.listing path)
  let children :=
    if traverse then kept.wantedChildren world.now true path (sweep.listing path) else []
  have isQuiet : (({ world with queue := tasks } : World).runFetch (errand.fetch path)).quiet =
      ((({ world with queue := tasks } : World).quiet.observing world.connection
          (world.connection.remote.surveyed errand.session path action traverse)).setCache
        errand.cache (kept.ended cache.store.epoch)).enqueue
          (children.map fun child => .fetch (errand.fetch child)) := by
    rw [quiet]
    cases traverse <;> rfl
  have isEnd : (({ world with queue := tasks } : World).runFetch (errand.fetch path)).EndsWith
      { world with queue := tasks }
      (visitOf (errand.fetch path) cache action traverse errand.session) cache
      (visitEvents cache.quiet world.now action traverse read (sweep.listing path))
      children.length := by
    cases traverse with
    | true => exact ends
    | false => exact ends
  have sameTree := Ensemble.sameTree_surveyed world.connection.remote errand.session path action
    traverse
  exact sweeps.advance queued still popped found isQuiet sameTree.1
    (fun key answers => answers.surveyed action traverse) options_visited phase_visited isEnd

/-- The next stage, by what a visit that found no node makes of the cache. -/
theorem passes_of_dropped (sound : sweep.Sound) (admits : sweep.Admits stage)
    (queued : stage.pending = path :: rest) (placed : cache.IsPlaced) {now : Moment}
    (isCached : ∀ key, stage.cached key = cache.store.peek now key)
    (absent : path ∉ sweep.remote.nodes.keys) :
    let events := (cache.begun.removeSubtree now path).1
    sweep.Passes
      (stage.passed path rest [] events fun key =>
        ((cache.begun.removeSubtree now path).2.ended cache.store.epoch).store.peek now key)
      stage path rest [] events := by
  intro events
  have placedBegun : cache.begun.IsPlaced := ⟨placed.distinct, placed.nodes⟩
  apply sound.passes_of_absent admits queued absent
  · intro key
    rw [Cache.peek_ended, Cache.removeSubtree_eq, isCached, ← Cache.peek_begun cache]
    exact Store.peek_removeSubtree _ now now path key
  · intro key
    rw [CacheEvent.between_none, isCached, ← Cache.peek_begun cache]
    exact Cache.events_removeSubtree placedBegun.isKeyed now path key
  · exact fun event member => Cache.valid_of_mem_removeSubtree placedBegun member

theorem Sweeps.fetch_of_absent (sweeps : world.Sweeps errand sweep stage)
    (admits : sweep.Admits stage) (sound : sweep.Sound) (queued : stage.pending = path :: rest)
    (popped : ({ world with queue := tasks } : World).quiet.queue =
      rest.map fun path => .fetch (errand.fetch path))
    (still : (({ world with queue := tasks } : World).runFetch (errand.fetch path)).Sound)
    {action : Action} {traverse : Bool} (isScope : sweep.scope path = some (action, traverse))
    (absent : path ∉ sweep.remote.nodes.keys)
    (reads : (action.wantsStat || action.wantsChildren || traverse) = true) :
    ∃ children events cached,
      sweep.Passes (stage.passed path rest children events cached) stage path rest children events ∧
      (({ world with queue := tasks } : World).runFetch (errand.fetch path)).Sweeps errand sweep
        (stage.passed path rest children events cached) := by
  obtain ⟨cache, found, isOptions, isStarted, isCached⟩ := sweeps.found
  have ready := sweeps.ready tasks found isScope
  have cacheSound := sweeps.sound.caches errand.cache cache found
  have tree : world.connection.remote.nodes = sweep.remote.nodes := sweeps.tree
  have missing : world.connection.remote.nodes.get? path = none := by
    rw [tree]
    exact Table.get?_eq_none_iff.mpr absent
  have quiet := ready.quiet_runFetch_of_absent missing reads
  have ends := ready.endsWith_of_absent missing reads
  have quietCached : ∀ key, stage.cached key = cache.quiet.store.peek world.now key := isCached
  have quietPlaced : cache.quiet.IsPlaced := cacheSound.isPlaced
  have passes := passes_of_dropped sound admits queued quietPlaced quietCached absent
  let missed := world.connection.remote.missed errand.session path action
  have sameTree := Ensemble.sameTree_missed world.connection.remote errand.session path action
  have isQuiet : (({ world with queue := tasks } : World).runFetch (errand.fetch path)).quiet =
      ((({ world with queue := tasks } : World).quiet.observing world.connection
          (if path = cache.options.basePath then
            missed.countRead.arm errand.session .data path
          else missed)).setCache errand.cache
        ((cache.quiet.begun.removeSubtree world.now path).2.ended cache.store.epoch)).enqueue
          (([] : List Path).map fun child => .fetch (errand.fetch child)) := by
    rw [quiet]
    exact (enqueue_nil _).symm
  refine ⟨_, _, _, passes, ?_⟩
  refine sweeps.advance queued still popped found isQuiet ?_ ?_ rfl rfl ends
  · split
    · exact sameTree.1
    · exact sameTree.1
  · intro key answers
    split
    · exact (answers.missed action).countRead.arm
    · exact answers.missed action

theorem Sweeps.fetch_of_no_reads (sweeps : world.Sweeps errand sweep stage)
    (admits : sweep.Admits stage) (sound : sweep.Sound) (queued : stage.pending = path :: rest)
    (popped : ({ world with queue := tasks } : World).quiet.queue =
      rest.map fun path => .fetch (errand.fetch path))
    (still : (({ world with queue := tasks } : World).runFetch (errand.fetch path)).Sound)
    {action : Action} {traverse : Bool} (isScope : sweep.scope path = some (action, traverse))
    (noStat : action.wantsStat = false) (noChildren : action.wantsChildren = false)
    (noTraversal : traverse = false) :
    ∃ children events cached,
      sweep.Passes (stage.passed path rest children events cached) stage path rest children events ∧
      (({ world with queue := tasks } : World).runFetch (errand.fetch path)).Sweeps errand sweep
        (stage.passed path rest children events cached) := by
  obtain ⟨cache, found, isOptions, isStarted, isCached⟩ := sweeps.found
  have ready := sweeps.ready tasks found isScope
  have quiet := ready.quiet_runFetch_of_no_reads noStat noChildren noTraversal
  have ends := ready.endsWith_of_no_reads noStat noChildren noTraversal
  have notStored := action.not_isStored_of_no_reads noStat noChildren
  have notKept : ¬ sweep.Keeps path := by
    rintro ⟨other, follows, otherScope, isStored⟩
    rw [isScope] at otherScope
    cases otherScope
    rw [notStored] at isStored
    cases isStored
  have notFollowed : ¬ sweep.Follows path := by
    rintro ⟨other, followed⟩
    rw [isScope, noTraversal] at followed
    cases followed
  have unchanged : ∀ key, (cache.quiet.begun.ended cache.store.epoch).store.peek world.now key =
      stage.cached key := by
    intro key
    rw [Cache.peek_ended, Cache.peek_begun, isCached]
    rfl
  have passes := sound.passes_of_no_reads admits queued notKept notFollowed unchanged
  have isQuiet : (({ world with queue := tasks } : World).runFetch (errand.fetch path)).quiet =
      ((({ world with queue := tasks } : World).quiet.observing world.connection
          world.connection.remote).setCache errand.cache
        (cache.quiet.begun.ended cache.store.epoch)).enqueue
          (([] : List Path).map fun child => .fetch (errand.fetch child)) := by
    rw [quiet]
    exact (enqueue_nil _).symm
  refine ⟨_, _, _, passes, ?_⟩
  exact sweeps.advance queued still popped found isQuiet rfl (fun key answers => answers) rfl rfl
    ends

/-- The fetch of a pending path brings the world to the next stage. -/
theorem Sweeps.step_fetch (sweeps : world.Sweeps errand sweep stage)
    (admits : sweep.Admits stage) (sound : sweep.Sound) {fetch : Fetch}
    (queue : world.queue = .fetch fetch :: tasks) :
    ∃ path rest children events cached, fetch = errand.fetch path ∧
      sweep.Passes (stage.passed path rest children events cached) stage path rest children events ∧
      world.step.Sweeps errand sweep (stage.passed path rest children events cached) := by
  have stepped : world.step = ({ world with queue := tasks } : World).runFetch fetch := by
    rw [step, queue]
    rfl
  have still := sweeps.sound.step.sound
  have isQueue : world.quiet.queue =
      .fetch fetch :: ({ world with queue := tasks } : World).quiet.queue := by
    change world.queue.filter _ = _
    rw [queue]
    rfl
  rw [sweeps.queue] at isQueue
  cases queued : stage.pending with
  | nil =>
      rw [queued] at isQueue
      cases isQueue
  | cons path rest =>
      rw [queued, List.map_cons] at isQueue
      injection isQueue with isFetch isRest
      injection isFetch with isFetch
      subst isFetch
      rw [stepped] at still ⊢
      have member : path ∈ stage.pending := by
        rw [queued]
        exact List.mem_cons_self
      obtain ⟨⟨action, traverse⟩, isScope⟩ :=
        Option.ne_none_iff_exists'.mp (admits.due path member).inScope
      by_cases present : path ∈ sweep.remote.nodes.keys
      · obtain ⟨node, there⟩ := Table.mem_keys_iff.mp present
        obtain ⟨children, events, cached, next⟩ :=
          sweeps.fetch_of_present admits sound queued isRest.symm still isScope there
        exact ⟨path, rest, children, events, cached, rfl, next⟩
      · by_cases reads : (action.wantsStat || action.wantsChildren || traverse) = true
        · obtain ⟨children, events, cached, next⟩ :=
            sweeps.fetch_of_absent admits sound queued isRest.symm still isScope present reads
          exact ⟨path, rest, children, events, cached, rfl, next⟩
        · simp only [Bool.or_eq_true, not_or, Bool.not_eq_true] at reads
          obtain ⟨children, events, cached, next⟩ :=
            sweeps.fetch_of_no_reads admits sound queued isRest.symm still isScope reads.1.1
              reads.1.2 reads.2
          exact ⟨path, rest, children, events, cached, rfl, next⟩

end World

end WatchedTree
