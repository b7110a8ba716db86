import WatchedTree.Proofs.World.Deeds
import WatchedTree.Proofs.World.Transcript

/-!
# The course of a fetch, and of an incident

A task that works for a refresh does some deeds, commits a node or none, does some more deeds, and
then either counts down or waits. Every other incident but the reading and the cancelling of a token
is a chain of deeds.
-/
namespace WatchedTree

namespace World

variable {world first second third : World} {running : Option RefreshId}
  {cleared : Option CacheId} {id : CacheId} {refresh : RefreshId} {cache : Cache} {visit : Visit}

/-! ## Single deeds -/

theorem KeepsQueue.refl (world : World) : world.KeepsQueue world := fun _ member => member

theorem KeepsQueue.trans (left : second.KeepsQueue first) (right : third.KeepsQueue second) :
    third.KeepsQueue first := fun fetch member => right fetch (left fetch member)

theorem keepsQueue_append {after : World} {tasks : List Task}
    (queue : after.queue = world.queue ++ tasks) : after.KeepsQueue world := by
  intro fetch member
  rw [queue]
  exact List.mem_append_left _ member

/-- Calls, the time and the connection may change as long as nobody new is told. -/
theorem deed_connect {connection : Connection Ensemble CacheId}
    (parties : ∀ id ∈ connection.parties, id ∈ world.connection.parties) :
    world.Deed running cleared { world with connection } :=
  .pass rfl rfl rfl (.refl _) (.refl world) rfl rfl fun id member => Or.inl (parties id member)

theorem deed_setEnsemble (world : World) (ensemble : Ensemble) :
    world.Deed running cleared (world.setEnsemble ensemble) :=
  deed_connect fun _ member => member

theorem exists_report (world : World) (id : CacheId) (message : String) (failure : Failure) :
    ∃ calls, world.report id message failure = { world with calls } := by
  unfold report
  split
  · exact ⟨world.calls, rfl⟩
  next cache found =>
    generalize cache.errorListeners.snapshot = listeners
    clear found
    induction listeners generalizing world with
    | nil => exact ⟨world.calls, rfl⟩
    | cons listener others inductionHypothesis => exact inductionHypothesis _

theorem deed_report (world : World) (id : CacheId) (message : String) (failure : Failure) :
    world.Deed running cleared (world.report id message failure) := by
  obtain ⟨calls, reported⟩ := exists_report world id message failure
  rw [reported]
  exact .pass rfl rfl rfl (.refl _) (.refl world) rfl rfl fun _ member => Or.inl member

theorem deeds_updateStore {change : Store → Store} (id : CacheId)
    (tends : ∀ store, (change store).IsTended store) :
    world.Deeds running cleared
      (world.updateCache id fun cache => { cache with store := change cache.store }) := by
  cases found : world.caches[id]? with
  | none =>
      rw [updateCache_of_none _ found]
      exact .refl
  | some cache =>
      rw [← setCache_eq_updateCache _ found]
      exact (Deed.keep found (tends cache.store)).single

theorem isTended_beginFetch (store : Store) : store.beginFetch.2.IsTended store where
  policy := rfl
  within := .of_entries rfl
  peek := fun _ _ _ => rfl

theorem isTended_endFetch (store : Store) (epoch : Epoch) :
    (store.endFetch epoch).IsTended store where
  policy := rfl
  within := .of_entries rfl
  peek := fun _ _ _ => rfl

theorem isTended_get (store : Store) (now : Moment) (path : Path) :
    (store.get now path).2.IsTended store where
  policy := congrArg Fence.policy (Store.fence_get store now path)
  within := Store.within_get store now path
  peek := fun unbounded later key => unbounded.peek_get now later path key

theorem deeds_removeSubtree (world : World) (id : CacheId) (path : Path) :
    world.Deeds running cleared (world.removeSubtree id path) := by
  unfold removeSubtree
  cases found : world.caches[id]? with
  | none => exact .refl
  | some cache =>
      have removes : world.Deed running cleared _ := .remove found [path]
      simp only [Cache.removeSubtrees, List.append_nil] at removes
      exact removes.single

theorem deeds_spawnAll {fetches : List Fetch} (own : ∀ fetch ∈ fetches, fetch.refresh = refresh)
    (world : World) : world.Deeds (some refresh) cleared (world.spawnAll fetches) := by
  induction fetches generalizing world with
  | nil => exact .refl
  | cons fetch others inductionHypothesis =>
      have isOwn := own fetch List.mem_cons_self
      have spawned : world.Deed (some refresh) cleared (world.spawn fetch) :=
        isOwn ▸ Deed.spawn fetch
      exact spawned.single.trans
        (inductionHypothesis (fun other member => own other (List.mem_cons_of_mem _ member)) _)

/-! ## The end of a fetch -/

/-- After some deeds the refresh counts down. -/
def Ends (world : World) (refresh : RefreshId) (after : World) : Prop :=
  ∃ last, world.Deeds (some refresh) none last ∧ after = last.countDown refresh

theorem Ends.of_deeds (deeds : first.Deeds (some refresh) none second)
    (ends : second.Ends refresh third) : first.Ends refresh third := by
  obtain ⟨last, rest, isLast⟩ := ends
  exact ⟨last, deeds.trans rest, isLast⟩

theorem ends_endVisit (world : World) (visit : Visit) (failure : Option Failure) :
    world.Ends visit.fetch.refresh (world.endVisit visit failure) := by
  have ended : world.Deeds (some visit.fetch.refresh) none
      (world.updateCache visit.cache fun cache =>
        { cache with store := cache.store.endFetch visit.epoch }) :=
    deeds_updateStore visit.cache fun store => isTended_endFetch store visit.epoch
  cases failure with
  | none => exact ⟨_, ended, rfl⟩
  | some failure => exact ⟨_, ended.trans (deed_report _ _ _ _).single, rfl⟩

theorem ends_visitAbsent (world : World) (visit : Visit) :
    world.Ends visit.fetch.refresh (world.visitAbsent visit) := by
  have removed : world.Deeds (some visit.fetch.refresh) none
      (world.removeSubtree visit.cache visit.path) := deeds_removeSubtree _ _ _
  unfold visitAbsent
  simp only
  generalize world.removeSubtree visit.cache visit.path = dropped at removed ⊢
  apply Ends.of_deeds removed
  split
  · exact ends_endVisit _ visit none
  · split
    · exact ends_endVisit _ visit none
    · split
      next ensemble _ =>
        exact .of_deeds (deed_setEnsemble dropped ensemble).single (ends_endVisit _ visit _)
      next ensemble _ =>
        exact .of_deeds (deed_setEnsemble dropped ensemble).single (ends_endVisit _ visit none)
      next ensemble _ =>
        have spawned : (dropped.setEnsemble ensemble).Deed (some visit.fetch.refresh) none
            ((dropped.setEnsemble ensemble).spawn { visit.fetch with full := true }) :=
          .spawn { visit.fetch with full := true }
        exact .of_deeds ((deed_setEnsemble dropped ensemble).single.trans spawned.single)
          (ends_endVisit _ visit none)

theorem ends_visitFault (world : World) (visit : Visit) (fault : TransportFault) :
    world.Ends visit.fetch.refresh (world.visitFault visit fault) := by
  unfold visitFault
  split
  · exact ends_visitAbsent world visit
  · exact ends_endVisit world visit _

theorem deeds_reconcileChildren (world : World) (visit : Visit) (names : List Text) :
    world.Deeds (some visit.fetch.refresh) none (world.reconcileChildren visit names) := by
  unfold reconcileChildren
  cases found : world.caches[visit.cache]? with
  | none => exact .refl
  | some cache =>
      have removes : world.Deed (some visit.fetch.refresh) none _ :=
        .remove found (cache.vanished world.now visit.path names)
      apply removes.single.trans
      apply deeds_spawnAll
      intro fetch member
      obtain ⟨path, _, rfl⟩ := List.mem_map.mp member
      rfl

/-! ## The course of a fetch -/

/-- A node is offered to a cache and told of if it is worth it, or nothing is done. -/
def Commits (world after : World) : Prop :=
  after = world ∨
    ∃ id cache node epoch, world.caches[id]? = some cache ∧
      after = (world.setCache id (cache.commit world.now node epoch).2).dispatchAll id
        (cache.commit world.now node epoch).1.toList

theorem commits_commit (world : World) (visit : Visit) (node : Node) :
    world.Commits (world.commit visit node) := by
  unfold commit
  split
  · exact Or.inl rfl
  · cases found : world.caches[visit.cache]? with
    | none => exact Or.inl rfl
    | some cache => exact Or.inr ⟨visit.cache, cache, node, visit.epoch, found, rfl⟩

theorem Commits.stays (commits : first.Commits second) (found : first.caches[id]? = some cache) :
    ∃ later, second.caches[id]? = some later ∧ Stays later cache running := by
  rcases commits with rfl | ⟨other, before, node, epoch, present, rfl⟩
  · exact ⟨cache, found, .of_phase rfl rfl running⟩
  · have committed : Stays (before.commit first.now node epoch).2 before running :=
      .of_phase (Cache.options_commit before first.now node epoch)
        (Cache.phase_commit before first.now node epoch) running
    obtain ⟨middle, middleFound, left⟩ := stays_setCache present committed found
    obtain ⟨later, laterFound, right⟩ := stays_of_quiet (quiet_dispatchAll _ other _) middleFound
    exact ⟨later, laterFound, left.trans right⟩

/-- What every cache has stored and told. -/
def records (world : World) : List (Table Path Entry × List CacheEvent) :=
  world.caches.map fun cache => (cache.store.entries, cache.feed.journal)

/-- What a running fetch does up to the point where it counts as done or waits. Up to the commit it
stores nothing, and nothing is told. -/
def Course (world : World) (refresh : RefreshId) (last : World) : Prop :=
  ∃ first second, world.Deeds (some refresh) none first ∧ first.records = world.records ∧
    first.Commits second ∧ second.Deeds (some refresh) none last

/-- A task of a refresh runs, until it counts down or waits for the release of a hold. -/
def Handles (world : World) (refresh : RefreshId) (after : World) : Prop :=
  ∃ last, world.Course refresh last ∧
    (after = last.countDown refresh ∨
      ∃ suspension : Suspension, suspension.visit.fetch.refresh = refresh ∧
        after = { last with suspended := last.suspended ++ [suspension] })

theorem Course.of_deeds (deeds : world.Deeds (some refresh) none second) :
    world.Course refresh second := ⟨world, world, .refl, rfl, Or.inl rfl, deeds⟩

theorem Ends.handles (ends : world.Ends refresh second) : world.Handles refresh second := by
  obtain ⟨last, deeds, isLast⟩ := ends
  exact ⟨last, .of_deeds deeds, Or.inl isLast⟩

theorem Handles.of_deeds (deeds : first.Deeds (some refresh) none second)
    (same : second.records = first.records) (handles : second.Handles refresh third) :
    first.Handles refresh third := by
  obtain ⟨last, ⟨before, after, earlier, unchanged, commits, later⟩, isLast⟩ := handles
  exact ⟨last, ⟨before, after, deeds.trans earlier, unchanged.trans same, commits, later⟩, isLast⟩

theorem Handles.of_commits (commits : world.Commits first) (ends : first.Ends refresh second) :
    world.Handles refresh second := by
  obtain ⟨last, deeds, isLast⟩ := ends
  exact ⟨last, ⟨world, first, .refl, rfl, commits, deeds⟩, Or.inl isLast⟩

theorem handles_visitRead (world : World) (visit : Visit) (stat : Option Stat)
    (data : Option Payload) (children : Option (List Text)) :
    world.Handles visit.fetch.refresh (world.visitRead visit stat data children) := by
  have commits := commits_commit world visit
    { path := visit.path, stat, data
      children := if visit.action.wantsChildren then children else none }
  unfold visitRead
  simp only
  generalize world.commit visit _ = committed at commits ⊢
  apply Handles.of_commits commits
  split
  · split
    · exact .of_deeds (deeds_reconcileChildren _ visit _) (ends_endVisit _ visit none)
    · exact ends_endVisit _ visit none
  · exact ends_endVisit _ visit none

theorem deed_acquired {answer : Except Failure SessionId}
    {connection : Connection Ensemble CacheId}
    (answered : world.connection.acquire world.now = (answer, connection)) :
    world.Deed running cleared { world with connection } := by
  have parties := world.connection.parties_acquire world.now
  rw [answered] at parties
  exact deed_connect fun id member => parties ▸ member

/-- Up to its last read a visit stores nothing, and nothing is told. -/
theorem deeds_underway {leg : Leg}
    (underway : Answering.ofEnsemble.Underway world leg visit second) :
    world.Deeds (some visit.fetch.refresh) none second ∧ second.records = world.records := by
  induction underway with
  | @begins fetch _ _ begins =>
      cases begins with
      | @session cache _ _ _ connection found _ _ answered =>
          have connected : world.Deed (some fetch.refresh) none { world with connection } :=
            deed_acquired answered
          have stillFound : ({ world with connection } : World).caches[fetch.cache]? =
              some cache := found
          have registered : ({ world with connection } : World).Deed (some fetch.refresh) none
              _ := .keep stillFound (isTended_beginFetch cache.store)
          exact ⟨connected.single.trans registered.single, map_caches_setCache stillFound rfl⟩
  | answered => exact ⟨.refl, rfl⟩
  | read _ ensemble inductionHypothesis =>
      obtain ⟨deeds, same⟩ := inductionHypothesis
      exact ⟨deeds.trans (deed_setEnsemble _ ensemble).single, same⟩

/-- The run of a fetch ends, or waits for the release of a hold, or has made all its reads. -/
theorem perform_cases (world : World) (leg : Leg) :
    world.Ends leg.fetch.refresh (world.perform leg.task) ∨
      (∃ last, world.Deeds (some leg.fetch.refresh) none last ∧
        ∃ suspension : Suspension, suspension.visit.fetch.refresh = leg.fetch.refresh ∧
          world.perform leg.task = { last with suspended := last.suspended ++ [suspension] }) ∨
      ∃ visit stat data children read,
        Answering.ofEnsemble.Collects world leg visit stat data children read ∧
          world.perform leg.task = read.visitRead visit stat data children := by
  have runs := Answering.ofEnsemble.runs_run world leg
  rw [Answering.perform_eq_settle]
  generalize Answering.ofEnsemble.run world leg = result at runs ⊢
  cases runs with
  | unwanted => exact Or.inl ⟨world, .refl, rfl⟩
  | @refused fetch _ connection _ answered =>
      have connected : world.Deed (some fetch.refresh) none { world with connection } :=
        deed_acquired answered
      exact Or.inl ⟨_, connected.single.trans (deed_report _ _ _ _).single, rfl⟩
  | @waits fetch visit _ answer hold ensemble begins =>
      obtain ⟨deeds, _⟩ := deeds_underway (.read (.begins begins) ensemble)
      have isOwn := congrArg Fetch.refresh begins.fetch_eq
      rw [isOwn] at deeds
      exact Or.inr (Or.inl ⟨_, deeds, { hold, visit, answer }, isOwn, rfl⟩)
  | faulty faults =>
      obtain ⟨deeds, _⟩ := deeds_underway faults.underway
      rw [← faults.underway.fetch_eq]
      exact Or.inl (.of_deeds deeds (ends_endVisit _ _ (some _)))
  | @unseen fetch visit before _ ensemble begins =>
      obtain ⟨deeds, _⟩ := deeds_underway (.read (.begins begins) ensemble)
      have isFetch : visit.fetch = (Leg.turn fetch).fetch := begins.fetch_eq
      rw [← isFetch]
      exact Or.inl (.of_deeds deeds (ends_endVisit _ _ (some _)))
  | @absent _ visit after misses =>
      obtain ⟨deeds, _⟩ := deeds_underway misses.underway
      rw [← misses.underway.fetch_eq, Answering.settle_absent]
      exact Or.inl (.of_deeds deeds (ends_visitAbsent after visit))
  | @complete _ visit stat data children read collects =>
      refine Or.inr (Or.inr ⟨visit, stat, data, children, read, collects, ?_⟩)
      rw [← collects.underway.fetch_eq, Answering.settle_complete]

theorem handles_perform (world : World) (leg : Leg) :
    world.Handles leg.fetch.refresh (world.perform leg.task) := by
  rcases perform_cases world leg with ends | ⟨last, deeds, waits⟩ |
    ⟨visit, stat, data, children, read, collects, completes⟩
  · exact ends.handles
  · exact ⟨last, .of_deeds deeds, Or.inr waits⟩
  · obtain ⟨deeds, same⟩ := deeds_underway collects.underway
    rw [completes, ← collects.underway.fetch_eq]
    exact .of_deeds deeds same (handles_visitRead read visit stat data children)

/-! ## Tasks -/

theorem pending_popped {task : Task} {tasks : List Task} (queue : world.queue = task :: tasks) :
    world.pending = task.refresh?.toList ++ ({ world with queue := tasks } : World).pending := by
  unfold pending
  rw [queue, List.cons_append]
  cases isFor : task.refresh? with
  | none => rw [List.filterMap_cons_none isFor, Option.toList_none, List.nil_append]
  | some refresh => rw [List.filterMap_cons_some isFor, Option.toList_some]; rfl

theorem exists_leg {task : Task} (isFor : task.refresh? = some refresh) :
    ∃ leg : Leg, leg.task = task ∧ leg.fetch.refresh = refresh := by
  cases task with
  | fetch fetch => exact ⟨.turn fetch, rfl, Option.some.inj isFor⟩
  | resume visit answer => exact ⟨.answered visit answer, rfl, Option.some.inj isFor⟩
  | deliver => cases isFor

theorem handles_step {task : Task} {tasks : List Task} (queue : world.queue = task :: tasks)
    (isFor : task.refresh? = some refresh) :
    ({ world with queue := tasks } : World).Handles refresh world.step := by
  obtain ⟨leg, rfl, rfl⟩ := exists_leg isFor
  rw [step, queue]
  exact handles_perform _ leg

theorem deeds_deliver (world : World) (id : CacheId) (subscriber : RegistrationId) :
    world.Deeds none cleared (world.deliver id subscriber) := by
  unfold deliver
  cases found : world.caches[id]? with
  | none => exact .refl
  | some cache =>
      simp only
      split
      next => exact .refl
      next handover feed delivered =>
        obtain ⟨calls, told⟩ := foldl_call handover.listener handover.events
          (world.setCache id { cache with feed })
        have tended : ({ cache with feed } : Cache).IsTended cache :=
          { options := rfl
            store := rfl
            refreshCount := rfl
            journal := Feed.journal_deliver delivered
            phase := Or.inl rfl }
        have moved : world.Deeds none cleared (world.setCache id { cache with feed }) :=
          (Deed.tend found tended).single
        rw [told]
        generalize world.setCache id { cache with feed } = after at moved ⊢
        split
        · have same : ∀ {Work : Type} {work : Task → Option Work},
              work (.deliver id subscriber) = none →
                (after.queue ++ .deliver id subscriber :: after.deferred).filterMap work =
                  (after.queue ++ after.deferred).filterMap work := by
            intro Work work idle
            rw [List.filterMap_append, List.filterMap_append, List.filterMap_cons_none idle]
          refine moved.trans (Deed.single (.pass rfl rfl rfl ?_ (.refl after) (same rfl) rfl
            fun _ member => Or.inl member))
          rw [pending, same rfl]
          exact .refl _
        · exact moved.trans
            (Deed.single (.pass rfl rfl rfl (.refl _) (.refl after) rfl rfl
              fun _ member => Or.inl member))

theorem deeds_step_of_no_refresh {task : Task} {tasks : List Task}
    (queue : world.queue = task :: tasks) (isFor : task.refresh? = none) :
    world.Deeds none cleared world.step := by
  have same : ({ world with queue := tasks } : World).pending = world.pending := by
    rw [pending_popped queue, isFor]
    rfl
  have kept : ({ world with queue := tasks } : World).KeepsQueue world := by
    intro fetch member
    rw [queue] at member
    rcases List.mem_cons.mp member with rfl | later
    · cases isFor
    · exact later
  have fetches : ({ world with queue := tasks } : World).fetches = world.fetches := by
    have idle : task.fetch? = none := by
      cases task with
      | fetch | resume => cases isFor
      | deliver => rfl
    rw [World.fetches, World.fetches, queue, List.cons_append, List.filterMap_cons_none idle]
  have popped : world.Deed none cleared { world with queue := tasks } :=
    .pass rfl rfl rfl (same ▸ .refl _) kept fetches rfl fun _ member => Or.inl member
  rw [step, queue]
  cases task with
  | fetch | resume => cases isFor
  | deliver id subscriber => exact popped.single.trans (deeds_deliver _ id subscriber)

/-! ## Events -/

/-- Whoever is told of events was started. -/
def Attended (world : World) : Prop := ∀ id ∈ world.connection.parties, world.Awake id

theorem connection_of_quiet {after : World} (same : after.quiet = world.quiet) :
    after.connection = world.connection := by
  rw [← quiet_connection, same, quiet_connection]

theorem connection_spawn (world : World) (fetch : Fetch) :
    (world.spawn fetch).connection = world.connection := by
  rw [← quiet_connection, quiet_spawn]
  split <;> rfl

theorem Deed.attended (deed : first.Deed running cleared second) (attended : first.Attended) :
    second.Attended := by
  have same : second.connection.parties = first.connection.parties → second.Attended := by
    intro parties id member
    exact deed.awake (attended id (parties ▸ member))
  cases deed with
  | pass caches refreshes channels pending queue fetches runtime parties =>
      intro id member
      have awake : first.Awake id := (parties id member).elim (attended id) fun awake => awake
      obtain ⟨cache, found, notLatent⟩ := awake
      exact ⟨cache, caches ▸ found, notLatent⟩
  | remove found paths =>
      apply same
      rw [connection_of_quiet (quiet_dispatchAll _ _ _)]
      rfl
  | spawn fetch =>
      apply same
      rw [connection_spawn]
  | launch _ _ path full =>
      apply same
      rw [World.launch, connection_spawn]
      rfl
  | request _ _ path full =>
      apply same
      rw [World.launch, connection_spawn]
      rfl
  | tend | keep | clear | settle | build => exact same rfl

theorem Deeds.attended (deeds : first.Deeds running cleared second) (attended : first.Attended) :
    second.Attended := by
  induction deeds with
  | refl => exact attended
  | tail _ deed inductionHypothesis => exact deed.attended inductionHypothesis

theorem Attended.of_quiet {after : World} (attended : world.Attended)
    (same : after.quiet = world.quiet) : after.Attended := by
  intro id member
  rw [connection_of_quiet same] at member
  exact awake_of_quiet same (attended id member)

theorem Awake.isStarted (awake : world.Awake id) (found : world.caches[id]? = some cache)
    (notClosed : cache.isClosed = false) : cache.phase = .started := by
  obtain ⟨held, heldFound, notLatent⟩ := awake
  rw [found] at heldFound
  cases heldFound
  unfold Cache.isClosed at notClosed
  cases phase : cache.phase with
  | latent => exact absurd phase notLatent
  | started => rfl
  | closed =>
      rw [phase] at notClosed
      cases notClosed

theorem deeds_tell (awake : world.Awake id) (event : Event) :
    world.Deeds none cleared (tell event id world) := by
  unfold tell
  cases found : world.caches[id]? with
  | none => exact .refl
  | some cache =>
      simp only
      split
      next => exact .refl
      next notClosed =>
        have isStarted := awake.isStarted found (eq_false_of_ne_true notClosed)
        split
        · have tended : ({ cache with connected := event.state == .syncConnected } : Cache).IsTended
              cache :=
            { options := rfl
              store := rfl
              refreshCount := rfl
              journal := rfl
              phase := Or.inl rfl }
          have noted : world.Deed none cleared _ := .tend found tended
          have stillFound := getElem?_setCache found
            { cache with connected := event.state == .syncConnected }
          split
          · exact noted.single.trans
              (Deed.launch stillFound isStarted cache.options.basePath true).single
          · exact noted.single
        · split
          · exact .refl
          next path _ =>
            split
            · exact .refl
            · split
              · exact .refl
              · exact (Deed.launch found isStarted path true).single
              · exact (Deed.launch found isStarted path false).single
              · exact (Deed.launch found isStarted path false).single
              · have removed : world.Deeds none cleared (world.removeSubtree id path) :=
                  deeds_removeSubtree world id path
                obtain ⟨held, heldFound, isHeld⟩ := exists_of_removeSubtree found path
                have heldPhase : held.phase = .started := by
                  rw [← Cache.quiet_phase, isHeld]
                  exact isStarted
                split
                · exact removed.trans (Deed.launch heldFound heldPhase path true).single
                · exact removed

/-- What is told one after the other, each to somebody awake. -/
theorem deeds_foldl {Item : Type} {act : World → Item → World} {items : List Item}
    (keeps : ∀ world : World, world.Attended → ∀ item ∈ items,
      world.Deeds none cleared (act world item)) (attended : world.Attended) :
    world.Deeds none cleared (items.foldl act world) := by
  induction items generalizing world with
  | nil => exact .refl
  | cons item others inductionHypothesis =>
      have first := keeps world attended item List.mem_cons_self
      refine first.trans (inductionHypothesis ?_ (first.attended attended))
      exact fun world attended other member => keeps world attended other
        (List.mem_cons_of_mem _ member)

theorem deeds_tellEach {listeners : List CacheId} (awake : ∀ id ∈ listeners, world.Awake id)
    (event : Event) :
    world.Deeds none cleared (listeners.foldl (fun state id => tell event id state) world) := by
  induction listeners generalizing world with
  | nil => exact .refl
  | cons id others inductionHypothesis =>
      have first : world.Deeds none cleared (tell event id world) :=
        deeds_tell (awake id List.mem_cons_self) event
      refine first.trans (inductionHypothesis ?_)
      exact fun other member => first.awake (awake other (List.mem_cons_of_mem _ member))

theorem deeds_forward (attended : world.Attended) (event : Event) :
    world.Deeds none cleared (Connection.forward (·.connection) (tell event) world) := by
  have heard : ∀ told : World, told.Attended →
      told.Deeds none cleared
        (told.connection.listeners.snapshot.foldl (fun state id => tell event id state) told) := by
    intro told toldAttended
    apply deeds_tellEach
    exact fun id member => toldAttended id (List.mem_append_right _ member)
  unfold Connection.forward
  cases observer : world.connection.observer with
  | none => exact heard world attended
  | some party =>
      have awake : world.Awake party := by
        apply attended
        rw [Connection.parties, observer]
        exact List.mem_append_left _ List.mem_cons_self
      have observed : world.Deeds none cleared (tell event party world) := deeds_tell awake event
      exact observed.trans (heard _ (observed.attended attended))

theorem deeds_occur (attended : world.Attended) (event : Event) :
    world.Deeds none cleared (world.occur event) := by
  have absorbed : world.Deed none cleared
      { world with connection := world.connection.absorb world.now event } := by
    apply deed_connect
    rw [Connection.parties_absorb]
    exact fun _ member => member
  exact absorbed.single.trans (deeds_forward (absorbed.attended attended) event)

theorem deeds_deliverEvent (attended : world.Attended) (delivery : Delivery) :
    world.Deeds none cleared (world.deliverEvent delivery) := by
  unfold deliverEvent
  split
  · exact deeds_occur attended delivery.event
  · exact .refl

theorem deeds_change (attended : world.Attended)
    (attempt : Ensemble → Except TransportFault (List Delivery) × Ensemble) :
    world.Deeds none cleared (world.change attempt).2 := by
  unfold change
  split
  next ensemble _ => exact (deed_setEnsemble world ensemble).single
  next deliveries ensemble _ =>
    have placed : world.Deed none cleared (world.setEnsemble ensemble) := deed_setEnsemble _ _
    exact placed.single.trans (deeds_foldl
      (fun _ attended delivery _ => deeds_deliverEvent attended delivery)
      (placed.attended attended))

theorem deeds_expireSessions (attended : world.Attended) :
    world.Deeds none cleared world.expireSessions := by
  unfold expireSessions
  refine deeds_foldl ?_ attended
  intro world attended session _
  have expired : world.Deed none cleared
      (world.setEnsemble (world.ensemble.expireSession session.id)) := deed_setEnsemble _ _
  exact expired.single.trans (deeds_deliverEvent (expired.attended attended) _)

/-! ## Incidents -/

theorem pending_enqueue_deliveries (world : World) (id : CacheId)
    (subscribers : List RegistrationId) :
    (world.enqueue (subscribers.map (Task.deliver id))).pending = world.pending := by
  have silent : (subscribers.map (Task.deliver id)).filterMap Task.refresh? = [] := by
    rw [List.filterMap_map, List.filterMap_eq_nil_iff]
    exact fun _ _ => rfl
  unfold pending enqueue
  simp only [List.filterMap_append, silent, List.append_nil]

/-- Deliveries that are queued work for no refresh. -/
theorem deed_enqueue_deliveries (world : World) (id : CacheId) (subscribers : List RegistrationId) :
    world.Deed running cleared (world.enqueue (subscribers.map (Task.deliver id))) := by
  have silent : (subscribers.map (Task.deliver id)).filterMap Task.fetch? = [] := by
    rw [List.filterMap_map, List.filterMap_eq_nil_iff]
    exact fun _ _ => rfl
  refine .pass rfl rfl rfl ?_ (keepsQueue_append rfl) ?_ rfl fun _ member => Or.inl member
  · rw [pending_enqueue_deliveries]
  · unfold fetches enqueue
    simp only [List.filterMap_append, silent, List.append_nil]

theorem deed_setFeed (found : world.caches[id]? = some cache) {feed : Feed}
    (journal : feed.journal = cache.feed.journal) :
    world.Deed none cleared (world.setCache id { cache with feed }) :=
  .tend found
    { options := rfl, store := rfl, refreshCount := rfl, journal, phase := Or.inl rfl }

theorem deeds_release (world : World) (hold : HoldId) :
    world.Deeds none cleared (world.release hold) := by
  have idle : ((world.suspended.filter fun suspension => suspension.hold = hold).map
      fun suspension => Task.resume suspension.visit suspension.answer).filterMap Task.fetch? =
      [] := by
    rw [List.filterMap_map, List.filterMap_eq_nil_iff]
    exact fun _ _ => rfl
  have fetches : (world.release hold).fetches = world.fetches := by
    unfold release World.fetches enqueue setEnsemble
    simp only [List.filterMap_append, idle, List.append_nil]
  apply Deed.single
  refine .pass rfl rfl rfl ?_ (keepsQueue_append rfl) fetches rfl fun _ member => Or.inl member
  have woken : ((world.suspended.filter fun suspension => suspension.hold = hold).map
      fun suspension => Task.resume suspension.visit suspension.answer).filterMap Task.refresh? =
      (world.suspended.filter fun suspension => suspension.hold = hold).map
        fun suspension => suspension.visit.fetch.refresh := by
    rw [List.filterMap_map, ← List.filterMap_eq_map]
    rfl
  have parted := (List.filter_append_perm
    (fun suspension : Suspension => decide (suspension.hold = hold)) world.suspended).map
      fun suspension => suspension.visit.fetch.refresh
  apply List.perm_iff_count.mpr
  intro refresh
  have counted := parted.count_eq refresh
  unfold release pending enqueue setEnsemble
  simp only [List.filterMap_append, List.count_append, List.map_append, woken, ne_eq,
    decide_not] at counted ⊢
  omega

theorem deeds_requeue (world : World) : world.Deeds none cleared world.requeue := by
  have fetches : world.requeue.fetches = world.fetches := by
    rw [World.fetches, requeue, List.append_nil, World.fetches]
  apply Deed.single
  refine .pass rfl rfl rfl ?_ (keepsQueue_append rfl) fetches rfl fun _ member => Or.inl member
  unfold requeue pending
  rw [List.append_nil]

theorem deeds_build (world : World) (path : Path) (calls : List BuilderCall) :
    world.Deeds none cleared (world.build path calls).2 := by
  unfold build
  split
  · exact .refl
  next options built =>
    obtain ⟨isBase, valid⟩ := basePath_of_build built
    exact (Deed.build options (isBase ▸ valid)).single

theorem deeds_refresh (world : World) (id : CacheId) (path : Path) :
    world.Deeds none cleared (world.refresh id path).2 := by
  unfold refresh
  cases found : world.caches[id]? with
  | none => exact (Deed.settle _).single
  | some cache =>
      simp only
      split
      · exact (Deed.settle _).single
      · exact (Deed.settle _).single
      next isStarted =>
        split
        · exact (Deed.settle _).single
        · have acquired : world.Deed none cleared world.acquire.2 := deed_acquired rfl
          have stillFound : world.acquire.2.caches[id]? = some cache := found
          split
          next failure after answered =>
            rw [answered] at acquired
            exact (acquired.single.trans (deed_report _ _ _ _).single).trans
              (Deed.settle _).single
          next session after answered =>
            rw [answered] at acquired stillFound
            exact acquired.single.trans (Deed.request stillFound isStarted path true).single

theorem deeds_refreshAll (world : World) (id : CacheId) :
    world.Deeds none cleared (world.refreshAll id).2 := by
  unfold refreshAll
  split
  · exact (Deed.settle _).single
  next cache _ => exact deeds_refresh world id cache.options.basePath

/-- A cache is started, and with it told of events. -/
theorem deeds_register {after : Cache} {connection : Connection Ensemble CacheId}
    (found : world.caches[id]? = some cache) (tended : after.IsTended cache)
    (isStarted : after.phase = .started)
    (parties : ∀ party ∈ connection.parties, party ∈ world.connection.parties ∨ party = id) :
    world.Deeds none cleared (({ world with connection } : World).setCache id after) := by
  have started : world.Deed none cleared (world.setCache id after) := .tend found tended
  refine started.single.trans (Deed.single (.pass rfl rfl rfl (.refl _) (.refl _) rfl rfl ?_))
  intro party member
  rcases parties party member with old | isId
  · exact Or.inl old
  · subst isId
    refine Or.inr ⟨after, getElem?_setCache found after, ?_⟩
    rw [isStarted]
    exact CachePhase.noConfusion

theorem deeds_start (world : World) (id : CacheId) :
    world.Deeds none cleared (world.start id).2 := by
  unfold start
  cases found : world.caches[id]? with
  | none => exact .refl
  | some cache =>
      simp only
      split
      · exact .refl
      · split
        · exact .refl
        · exact .refl
        next isLatent =>
          have tended : ({ cache with
              phase := .started
              connected := world.connection.isConnected
              registration := some (world.connection.listeners.add id).1 } : Cache).IsTended cache :=
            { options := rfl
              store := rfl
              refreshCount := rfl
              journal := rfl
              phase := Or.inr ⟨isLatent, rfl⟩ }
          have parties : ∀ party ∈ ({ world.connection with
              listeners := (world.connection.listeners.add id).2 } :
                Connection Ensemble CacheId).parties,
              party ∈ world.connection.parties ∨ party = id := by
            simp [Connection.parties, Registry.add, Registry.snapshot, or_assoc]
          have registered : world.Deeds none cleared _ := deeds_register found tended rfl parties
          split
          · exact registered.trans (deeds_refreshAll _ id)
          · exact registered.trans (Deed.settle _).single

/-- A cache is closed, and nobody new is told of events. -/
theorem deeds_retire (found : world.caches[id]? = some cache) {listeners : Registry CacheId}
    (fewer : ∀ party ∈ listeners.snapshot, party ∈ world.connection.listeners.snapshot)
    (woken : List RegistrationId) :
    world.Deeds none (some id)
      ((({ world with connection := { world.connection with listeners } } : World).setCache id
        cache.close).enqueue (woken.map (Task.deliver id))) := by
  have closed : world.Deed none (some id) (world.setCache id cache.close) :=
    .clear found
      { options := rfl
        refreshCount := rfl
        journal := rfl
        phase := Or.inr ⟨rfl, rfl⟩
        empty := fun _ => rfl }
  have left : (world.setCache id cache.close).Deed none (some id)
      (({ world with connection := { world.connection with listeners } } : World).setCache id
        cache.close) := by
    refine .pass rfl rfl rfl (.refl _) (.refl _) rfl rfl fun party member => Or.inl ?_
    rcases List.mem_append.mp member with observes | listens
    · exact List.mem_append_left _ observes
    · exact List.mem_append_right _ (fewer party listens)
  exact (closed.single.trans left.single).trans (deed_enqueue_deliveries _ id woken).single

theorem deeds_closeCache (world : World) (id : CacheId) :
    world.Deeds none (some id) (world.closeCache id) := by
  unfold closeCache
  cases found : world.caches[id]? with
  | none => exact .refl
  | some cache =>
      simp only
      split
      · exact .refl
      · split
        · exact deeds_retire found (fun _ member => member) _
        next registration _ =>
          refine deeds_retire found (fun party member => ?_) _
          exact List.map_subset _ (List.filter_subset_self _) member

theorem deeds_setStore (found : world.caches[id]? = some cache) {store : Store}
    (empty : cache.store.entries = [] → store.entries = []) :
    world.Deeds none (some id) (world.setCache id { cache with store }) := by
  have cleared : ({ cache with store } : Cache).IsCleared cache :=
    { options := rfl, refreshCount := rfl, journal := rfl, phase := Or.inl rfl, empty }
  exact (Deed.clear found cleared).single

theorem deeds_clearDataIf (world : World) (id : CacheId) (path : Path) (version : Int) :
    world.Deeds none (some id) (world.clearDataIf id path version).2 := by
  unfold clearDataIf
  cases found : world.caches[id]? with
  | none => exact .refl
  | some cache => exact deeds_setStore found (Store.empty_update cache.store world.now path _)

theorem deeds_clear (world : World) (id : CacheId) (path : Path) :
    world.Deeds none (some id) (world.clear id path).2 := by
  unfold clear
  cases found : world.caches[id]? with
  | none => exact .refl
  | some cache =>
      exact deeds_setStore found (Store.within_remove cache.store world.now path).empty

theorem deeds_clearAll (world : World) (id : CacheId) :
    world.Deeds none (some id) (world.clearAll id) := by
  unfold clearAll
  cases found : world.caches[id]? with
  | none =>
      rw [updateCache_of_none _ found]
      exact .refl
  | some cache =>
      rw [← setCache_eq_updateCache _ found]
      exact deeds_setStore found (Store.within_clear cache.store).empty

theorem deeds_get (world : World) (id : CacheId) (path : Path) :
    world.Deeds none cleared (world.get id path).2 := by
  unfold get
  cases found : world.caches[id]? with
  | none => exact .refl
  | some cache => exact (Deed.keep found (isTended_get cache.store world.now path)).single

theorem deeds_listen (world : World) (id : CacheId) (listener : Listener) :
    world.Deeds none cleared (world.listen id listener).2 := by
  unfold listen
  cases found : world.caches[id]? with
  | none => exact .refl
  | some cache =>
      have listening : world.Deed none cleared
          (world.setCache id { cache with feed := (cache.feed.add listener).2 }) :=
        deed_setFeed found rfl
      exact listening.single.trans (deed_enqueue_deliveries _ id [_]).single

theorem deeds_unlisten (world : World) (id : CacheId) (registration : RegistrationId) :
    world.Deeds none cleared (world.unlisten id registration).2 := by
  unfold unlisten
  cases found : world.caches[id]? with
  | none => exact .refl
  | some cache =>
      have listening : world.Deed none cleared
          (world.setCache id { cache with feed := (cache.feed.remove registration).2 }) :=
        deed_setFeed found rfl
      exact listening.single.trans (deed_enqueue_deliveries _ id _).single

theorem deeds_setErrorListeners (found : world.caches[id]? = some cache)
    (errorListeners : Registry Listener) :
    world.Deeds none cleared (world.setCache id { cache with errorListeners }) := by
  have tended : ({ cache with errorListeners } : Cache).IsTended cache :=
    { options := rfl, store := rfl, refreshCount := rfl, journal := rfl, phase := Or.inl rfl }
  exact (Deed.tend found tended).single

theorem deeds_onError (world : World) (id : CacheId) (listener : Listener) :
    world.Deeds none cleared (world.onError id listener).2 := by
  unfold onError
  cases found : world.caches[id]? with
  | none => exact .refl
  | some cache => exact deeds_setErrorListeners found _

theorem deeds_offError (world : World) (id : CacheId) (registration : RegistrationId) :
    world.Deeds none cleared (world.offError id registration).2 := by
  unfold offError
  cases found : world.caches[id]? with
  | none => exact .refl
  | some cache => exact deeds_setErrorListeners found _

theorem deeds_obey (attended : world.Attended) {command : Command}
    (plain : command.isPlain = true) :
    world.Deeds none command.clears? (world.obey command) := by
  have connects : ∀ {connection : Connection Ensemble CacheId},
      connection.parties = world.connection.parties →
        world.Deeds none none { world with connection } := by
    intro connection parties
    exact (deed_connect fun id member => parties ▸ member).single
  cases command with
  | step | round | advance | readToken | cancelToken => cases plain
  | create | setData | delete => exact deeds_change attended _
  | replaceSilently | failReads | healReads | refuseSessions | hold =>
      exact (deed_setEnsemble world _).single
  | announce state =>
      exact deeds_foldl (fun _ attended _ _ => deeds_deliverEvent attended _) attended
  | expireSessions => exact deeds_expireSessions attended
  | release hold => exact deeds_release world hold
  | occur event => exact deeds_occur attended event
  | startConnection => exact connects (world.connection.parties_openSession world.now)
  | acquire => exact connects (world.connection.parties_acquire world.now)
  | closeConnection =>
      exact (deed_connect fun _ member => world.connection.parties_close world.now member).single
  | pollFailure | readCounters => exact connects rfl
  | build path calls => exact deeds_build world path calls
  | start id => exact deeds_start world id
  | closeCache id => exact deeds_closeCache world id
  | refresh id path => exact deeds_refresh world id path
  | refreshAll id => exact deeds_refreshAll world id
  | listen id listener => exact deeds_listen world id listener
  | unlisten id registration => exact deeds_unlisten world id registration
  | onError id listener => exact deeds_onError world id listener
  | offError id registration => exact deeds_offError world id registration
  | get id path => exact deeds_get world id path
  | clear id path => exact deeds_clear world id path
  | clearAll id => exact deeds_clearAll world id
  | clearDataIf id path version => exact deeds_clearDataIf world id path version

/-- An incident that neither runs a task nor touches a token is a chain of deeds. -/
theorem deeds_undergo (attended : world.Attended) {incident : Incident}
    (plain : incident.isPlain = true) :
    world.Deeds none incident.clears? (world.undergo incident) := by
  cases incident with
  | command given single => exact deeds_obey attended plain
  | turn ensemble => exact (deed_setEnsemble world ensemble).single
  | elapse span =>
      have elapsed : world.Deed none none { world with now := world.now + span } :=
        .pass rfl rfl rfl (.refl _) (.refl world) rfl rfl fun _ member => Or.inl member
      exact elapsed.single
  | requeue => exact deeds_requeue world

/-! ## Every incident -/

/-- Whoever uses a token leaves all but channels as it is. -/
theorem exists_readToken (world : World) (token : ChannelId) :
    ∃ channels, (world.readToken token).2 = { world with channels } := by
  unfold readToken
  split
  · exact ⟨world.channels, rfl⟩
  · exact ⟨_, rfl⟩

/-- An incident uses a token, or runs a task of a refresh, or is a chain of deeds. -/
theorem undergo_cases (attended : world.Attended) (incident : Incident) :
    (∃ channels, world.undergo incident = { world with channels }) ∨
      (∃ task tasks refresh, incident = .step ∧ world.queue = task :: tasks ∧
        task.refresh? = some refresh ∧
          ({ world with queue := tasks } : World).Handles refresh world.step) ∨
      world.Deeds none incident.clears? (world.undergo incident) := by
  rcases incident.eq_or_isPlain with rfl | ⟨token, rfl⟩ | ⟨token, rfl⟩ | plain
  · right
    cases queue : world.queue with
    | nil =>
        right
        change world.Deeds none none world.step
        rw [step, queue]
        exact .refl
    | cons task tasks =>
        cases isFor : task.refresh? with
        | none => exact Or.inr (deeds_step_of_no_refresh queue isFor)
        | some refresh =>
            exact Or.inl ⟨task, tasks, refresh, rfl, rfl, isFor, handles_step queue isFor⟩
  · exact Or.inl (exists_readToken world token)
  · exact Or.inl ⟨_, rfl⟩
  · exact Or.inr (Or.inr (deeds_undergo attended plain))

theorem Attended.of_stays (attended : first.Attended)
    (parties : second.connection.parties = first.connection.parties)
    (stays : ∀ (id : CacheId) (cache : Cache), first.caches[id]? = some cache →
      ∃ later, second.caches[id]? = some later ∧ Stays later cache running) :
    second.Attended := by
  intro id member
  obtain ⟨cache, found, notLatent⟩ := attended id (parties ▸ member)
  obtain ⟨later, laterFound, staying⟩ := stays id cache found
  exact ⟨later, laterFound, staying.started notLatent⟩

theorem Commits.attended (commits : first.Commits second) (attended : first.Attended) :
    second.Attended := by
  have stays : ∀ (id : CacheId) (cache : Cache), first.caches[id]? = some cache →
      ∃ later, second.caches[id]? = some later ∧ Stays later cache none :=
    fun _ _ found => commits.stays found
  refine attended.of_stays ?_ stays
  rcases commits with rfl | ⟨other, cache, node, epoch, found, rfl⟩
  · rfl
  · rw [connection_of_quiet (quiet_dispatchAll _ _ _)]
    rfl

theorem Course.attended (course : first.Course refresh second) (attended : first.Attended) :
    second.Attended := by
  obtain ⟨before, after, earlier, _, commits, later⟩ := course
  exact later.attended (commits.attended (earlier.attended attended))

theorem Handles.attended (handles : first.Handles refresh second) (attended : first.Attended) :
    second.Attended := by
  obtain ⟨last, course, counted | ⟨suspension, _, waits⟩⟩ := handles
  · rw [counted]
    exact (course.attended attended).of_quiet (quiet_countDown last refresh)
  · rw [waits]
    exact course.attended attended

theorem Attended.undergo (attended : world.Attended) (incident : Incident) :
    (world.undergo incident).Attended := by
  rcases undergo_cases attended incident with ⟨channels, same⟩ |
    ⟨task, tasks, refresh, rfl, _, _, handles⟩ | deeds
  · rw [same]
    exact attended
  · exact handles.attended attended
  · exact deeds.attended attended

theorem attended_ofConfig (config : ConnectionConfig) : (ofConfig config).Attended :=
  fun _ member => absurd member List.not_mem_nil

theorem attended_of_reached (config : ConnectionConfig) (incidents : List Incident) :
    ((ofConfig config).undergoAll incidents).Attended := by
  induction incidents using List.reverseRecOn with
  | nil => exact attended_ofConfig config
  | append_singleton others last inductionHypothesis =>
      rw [undergoAll_concat]
      exact inductionHypothesis.undergo last

end World

end WatchedTree
