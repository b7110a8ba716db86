import WatchedTree.Proofs.World.Lasting

/-!
# After the close of a cache

A closed cache holds nothing, tells nothing and has no fetch queued any more, whatever still runs on
its behalf: a fetch that was queued before finds it closed, one that waited for an answer commits in
vain, and the end of a refresh goes by in silence.
-/
namespace WatchedTree

/-- Holds of the caches that are not closed, and of those that hold nothing. -/
def Cache.IsSpent (cache : Cache) : Prop := cache.phase = .closed → cache.store.entries = []

theorem Cache.isLasting_isSpent : IsLasting IsSpent where
  new := fun _ _ _ => rfl
  dwindles := by
    intro before after fewer spent closed
    rcases fewer.closing closed with wasClosed | empty
    · exact fewer.within.empty (spent wasClosed)
    · exact empty

/-- A closed cache takes no node. -/
theorem Cache.commit_of_closed {cache : Cache} (closed : cache.phase = .closed) (now : Moment)
    (node : Node) (epoch : Epoch) : cache.commit now node epoch = (none, cache) := by
  have isClosed : cache.isClosed = true := by
    rw [Cache.isClosed, closed]
    rfl
  rw [Cache.commit, if_pos isClosed]

theorem Cache.IsSpent.commit {cache : Cache} (spent : cache.IsSpent) (now : Moment) (node : Node)
    (epoch : Epoch) : (cache.commit now node epoch).2.IsSpent := by
  intro closed
  rw [Cache.phase_commit] at closed
  rw [commit_of_closed closed]
  exact spent closed

/-- There is nothing to remove from a cache that holds nothing. -/
theorem Cache.events_of_empty {cache : Cache} (empty : cache.store.entries = []) (now : Moment)
    (paths : List Path) : (removeSubtrees now paths cache).1 = [] := by
  induction paths generalizing cache with
  | nil => rfl
  | cons path others inductionHypothesis =>
      have none : cache.store.doomed path = [] := by
        rw [Store.doomed, empty]
        rfl
      have removed : cache.removeSubtree now path =
          ([], { cache with store := (cache.store.removeSubtree now path).2 }) := by
        rw [removeSubtree, Store.removeSubtree, none]
        rfl
      have stillEmpty : (cache.store.removeSubtree now path).2.entries = [] :=
        (Store.within_removeSubtree cache.store now path).empty empty
      rw [removeSubtrees, removed]
      exact inductionHypothesis stillEmpty

namespace World

variable {world first second third : World} {running : Option RefreshId}
  {cleared : Option CacheId} {id other : CacheId} {cache before after : Cache}
  {refresh : RefreshId}

/-- Holds of a world in which a cache is closed and holds nothing. -/
def IsOver (world : World) (id : CacheId) : Prop :=
  ∃ cache, world.caches[id]? = some cache ∧ cache.phase = .closed ∧ cache.store.entries = []

/-- The fetches of a cache that wait to begin, in the order of their turns. -/
def fetchesOf (world : World) (id : CacheId) : List Fetch :=
  world.fetches.filter fun fetch => fetch.cache = id

/-- A cache that was over still is. It has told nothing new, and the same fetches wait. -/
structure Rests (after before : World) (id : CacheId) : Prop where
  isOver : after.IsOver id
  journal : after.journal id = before.journal id
  fetches : after.fetchesOf id = before.fetchesOf id

theorem Rests.trans (left : second.Rests first id) (right : third.Rests second id) :
    third.Rests first id where
  isOver := right.isOver
  journal := right.journal.trans left.journal
  fetches := right.fetches.trans left.fetches

/-! ## Small changes -/

theorem fetches_quiet (world : World) : world.quiet.fetches = world.fetches := by
  have kept : ∀ tasks : List Task, (tasks.filter fun task => !task.isDelivery).filterMap
      Task.fetch? = tasks.filterMap Task.fetch? := by
    intro tasks
    rw [List.filterMap_filter]
    refine congrArg (fun work => tasks.filterMap work) (funext fun task => ?_)
    cases task <;> rfl
  change ((world.queue.filter _) ++ (world.deferred.filter _)).filterMap Task.fetch? = _
  rw [List.filterMap_append, kept, kept, ← List.filterMap_append]
  rfl

theorem fetchesOf_of_quiet (same : second.quiet = first.quiet) (id : CacheId) :
    second.fetchesOf id = first.fetchesOf id := by
  rw [fetchesOf, ← fetches_quiet, same, fetches_quiet]
  rfl

theorem IsOver.of_quiet (isOver : first.IsOver id)
    (same : second.quiet.caches = first.quiet.caches) : second.IsOver id := by
  obtain ⟨cache, found, closed, empty⟩ := isOver
  obtain ⟨later, laterFound, alike⟩ := exists_of_quiet_caches same found
  exact ⟨later, laterFound, (Cache.phase_of_quiet alike).trans closed,
    (congrArg Store.entries (Cache.store_of_quiet alike)).trans empty⟩

theorem rests_of_quiet (isOver : first.IsOver id) (same : second.quiet = first.quiet)
    (journal : second.journal id = first.journal id) : second.Rests first id where
  isOver := isOver.of_quiet (congrArg caches same)
  journal := journal
  fetches := fetchesOf_of_quiet same id

theorem rests_of_caches (isOver : first.IsOver id) (caches : second.caches = first.caches)
    (fetches : second.fetches = first.fetches) : second.Rests first id where
  isOver := by
    obtain ⟨cache, found, rest⟩ := isOver
    exact ⟨cache, caches ▸ found, rest⟩
  journal := journal_of_caches caches id
  fetches := by rw [fetchesOf, fetches, fetchesOf]

theorem Rests.refl (isOver : world.IsOver id) : world.Rests world id :=
  rests_of_caches isOver rfl rfl

theorem rests_setCache (isOver : world.IsOver id) (found : world.caches[other]? = some before)
    (journal : after.feed.journal = before.feed.journal)
    (stays : before.phase = .closed → before.store.entries = [] →
      after.phase = .closed ∧ after.store.entries = []) :
    (world.setCache other after).Rests world id where
  isOver := by
    obtain ⟨cache, place, closed, empty⟩ := isOver
    by_cases same : id = other
    · subst same
      rw [found] at place
      cases place
      exact ⟨after, getElem?_setCache found after, stays closed empty⟩
    · refine ⟨cache, ?_, closed, empty⟩
      rw [setCache, List.getElem?_set_ne (Ne.symm same)]
      exact place
  journal := journal_setCache_of_journal found journal
  fetches := rfl

/-! ## The end of a refresh -/

theorem journal_refreshed_of_over (isOver : world.IsOver id) (path : Path) (cancelled : Bool) :
    (world.refreshed other path cancelled).journal id = world.journal id := by
  unfold refreshed
  cases found : world.caches[other]? with
  | none => rfl
  | some cache =>
      have counted : (world.setCache other
          { cache with refreshCount := cache.refreshCount + 1 }).journal id = world.journal id :=
        journal_setCache_of_feed found rfl
      simp only
      split
      next tells =>
        have apart : id ≠ other := by
          rintro rfl
          obtain ⟨closed, place, isClosed, _⟩ := isOver
          rw [found] at place
          cases place
          simp [Cache.isClosed, isClosed] at tells
        have inPlace := getElem?_setCache found
          { cache with refreshCount := cache.refreshCount + 1 }
        rw [journal_dispatch inPlace, if_neg apart, counted]
      · exact counted

theorem journal_countDown_of_over (isOver : world.IsOver id) (refresh : RefreshId) :
    (world.countDown refresh).journal id = world.journal id := by
  have finished : ∀ (state : World) (given : Refresh), state.IsOver id →
      (state.finish given).journal id = state.journal id := by
    intro state given stateOver
    unfold finish
    split
    · exact journal_refreshed_of_over stateOver _ _
    · simp only
      split
      · exact journal_refreshed_of_over stateOver _ _
      · exact journal_refreshed_of_over stateOver _ _
  unfold countDown
  split
  · rfl
  next given _ =>
    simp only
    split
    · exact finished _ given isOver
    · rfl

theorem rests_countDown (isOver : world.IsOver id) (refresh : RefreshId) :
    (world.countDown refresh).Rests world id :=
  rests_of_quiet isOver (quiet_countDown world refresh) (journal_countDown_of_over isOver refresh)

/-! ## Deeds -/

theorem rests_dispatchAll (isOver : world.IsOver id) (present : world.caches[other]? = some cache)
    {events : List CacheEvent} (silent : id = other → events = []) :
    (world.dispatchAll other events).Rests world id := by
  refine rests_of_quiet isOver (quiet_dispatchAll world other events) ?_
  by_cases same : id = other
  · rw [silent same]
    rfl
  · exact journal_dispatchAll_of_ne present same events

/-- A fetch is queued for no cache but a started one. -/
theorem rests_spawn (isOver : world.IsOver id) (fetch : Fetch) :
    (world.spawn fetch).Rests world id := by
  have counted : (world.countUp fetch.refresh).Rests world id := rests_of_caches isOver rfl rfl
  unfold spawn
  simp only
  split
  · exact counted.trans (rests_countDown counted.isOver fetch.refresh)
  next cache found =>
    split
    next isStarted =>
      have apart : fetch.cache ≠ id := by
        rintro rfl
        obtain ⟨closed, place, isClosed, _⟩ := counted.isOver
        rw [found] at place
        cases place
        rw [isStarted] at isClosed
        cases isClosed
      refine counted.trans ⟨counted.isOver, rfl, ?_⟩
      unfold fetchesOf fetches enqueue
      simp [Task.fetch?, apart]
    · exact counted.trans (rests_countDown counted.isOver fetch.refresh)

theorem rests_launch (isOver : world.IsOver id) (place : CacheId) (path : Path) (full : Bool)
    (channel : Option ChannelId) : (world.launch place path full channel).Rests world id := by
  have added : (world.addRefresh place path channel).2.Rests world id :=
    rests_of_caches isOver rfl rfl
  exact added.trans (rests_spawn added.isOver _)

theorem Deed.rests (deed : first.Deed running cleared second) (isOver : first.IsOver id) :
    second.Rests first id := by
  cases deed with
  | pass caches _ _ _ _ fetches => exact rests_of_caches isOver caches fetches
  | tend found tended =>
      refine rests_setCache isOver found tended.journal
        fun closed empty => ⟨?_, tended.store ▸ empty⟩
      rcases tended.phase with same | ⟨latent, _⟩
      · exact same.trans closed
      · rw [latent] at closed
        cases closed
  | keep found tended =>
      exact rests_setCache isOver found rfl fun closed empty => ⟨closed, tended.within.empty empty⟩
  | clear found cleared =>
      refine rests_setCache isOver found cleared.journal
        fun closed empty => ⟨?_, cleared.empty empty⟩
      rcases cleared.phase with same | ⟨isClosed, _⟩
      · exact same.trans closed
      · exact isClosed
  | @remove _ _ other cache found paths =>
      have fewer := cache.dwindles_removeSubtrees first.now paths
      have feed := congrArg Cache.feed (Cache.removeSubtrees_eq cache first.now paths)
      have phase := congrArg Cache.phase (Cache.removeSubtrees_eq cache first.now paths)
      have removed : (first.setCache other
          (Cache.removeSubtrees first.now paths cache).2).Rests first id :=
        rests_setCache isOver found (congrArg Feed.journal feed)
          fun closed empty => ⟨phase.trans closed, fewer.within.empty empty⟩
      refine removed.trans (rests_dispatchAll removed.isOver (getElem?_setCache found _) ?_)
      rintro rfl
      obtain ⟨held, place, _, empty⟩ := isOver
      rw [found] at place
      cases place
      exact Cache.events_of_empty empty first.now paths
  | spawn fetch => exact rests_spawn isOver fetch
  | launch _ _ path full => exact rests_launch isOver _ path full none
  | request _ _ path full =>
      have opened : (first.addChannel {}).2.Rests first id := rests_of_caches isOver rfl rfl
      exact opened.trans (rests_launch opened.isOver _ path full _)
  | settle => exact rests_of_caches isOver rfl rfl
  | build options =>
      refine ⟨?_, journal_build options, rfl⟩
      obtain ⟨cache, found, rest⟩ := isOver
      exact ⟨cache, (List.getElem?_append_left (List.getElem?_eq_some_iff.mp found).1).trans found,
        rest⟩

theorem Deeds.rests (deeds : first.Deeds running cleared second) (isOver : first.IsOver id) :
    second.Rests first id := by
  induction deeds with
  | refl => exact .refl isOver
  | tail _ deed inductionHypothesis =>
      exact inductionHypothesis.trans (deed.rests inductionHypothesis.isOver)

/-! ## Tasks -/

theorem Commits.rests (commits : first.Commits second) (isOver : first.IsOver id) :
    second.Rests first id := by
  rcases commits with rfl | ⟨other, cache, node, epoch, found, rfl⟩
  · exact .refl isOver
  · have feed : (cache.commit first.now node epoch).2.feed = cache.feed := by
      unfold Cache.commit
      split <;> rfl
    have committed : (first.setCache other (cache.commit first.now node epoch).2).Rests first id :=
      rests_setCache isOver found (congrArg Feed.journal feed) fun closed empty => by
        rw [Cache.commit_of_closed closed]
        exact ⟨closed, empty⟩
    refine committed.trans (rests_dispatchAll committed.isOver (getElem?_setCache found _) ?_)
    rintro rfl
    obtain ⟨held, place, closed, _⟩ := isOver
    rw [found] at place
    cases place
    rw [Cache.commit_of_closed closed]
    rfl

theorem Handles.rests (handles : first.Handles refresh second) (isOver : first.IsOver id) :
    second.Rests first id := by
  obtain ⟨last, ⟨begun, committed, earlier, _, commits, later⟩, ends⟩ := handles
  have begins := earlier.rests isOver
  have commits := begins.trans (commits.rests begins.isOver)
  have reached := commits.trans (later.rests commits.isOver)
  rcases ends with rfl | ⟨suspension, _, rfl⟩
  · exact reached.trans (rests_countDown reached.isOver refresh)
  · exact reached.trans (rests_of_caches reached.isOver rfl rfl)

/-! ## Incidents -/

/-- The fetch of a cache that an incident begins. -/
def begins (world : World) (id : CacheId) : Incident → List Fetch
  | .command .step _ =>
    (world.queue.head?.bind Task.fetch?).toList.filter fun fetch => fetch.cache = id
  | _ => []

/-- The fetches of a cache that incidents begin, one after the other. -/
def beginsAll (world : World) (id : CacheId) : List Incident → List Fetch
  | [] => []
  | incident :: others =>
    world.begins id incident ++ (world.undergo incident).beginsAll id others

/-- What becomes of a cache that is over: it tells nothing, and every fetch that was waiting has
begun or still waits. -/
structure Ceases (after before : World) (id : CacheId) (begun : List Fetch) : Prop where
  isOver : after.IsOver id
  journal : after.journal id = before.journal id
  fetches : before.fetchesOf id = begun ++ after.fetchesOf id

theorem Rests.ceases (rests : second.Rests first id) : second.Ceases first id [] :=
  ⟨rests.isOver, rests.journal, rests.fetches.symm⟩

theorem begins_step (world : World) (id : CacheId) :
    world.begins id .step =
      (world.queue.head?.bind Task.fetch?).toList.filter fun fetch => fetch.cache = id := rfl

theorem begins_of_no_step {incident : Incident} (noTask : incident ≠ .step) :
    world.begins id incident = [] := by
  cases incident with
  | turn | elapse | requeue => rfl
  | command given single => cases given <;> first | rfl | exact absurd rfl noTask

theorem fetchesOf_popped {task : Task} {tasks : List Task} (queue : world.queue = task :: tasks) :
    world.fetchesOf id =
      world.begins id .step ++ ({ world with queue := tasks } : World).fetchesOf id := by
  have begun : world.begins id .step =
      task.fetch?.toList.filter fun fetch => fetch.cache = id := by
    rw [begins_step, queue]
    rfl
  have split : world.fetches =
      task.fetch?.toList ++ ({ world with queue := tasks } : World).fetches := by
    unfold fetches
    rw [queue, List.cons_append]
    cases isFetch : task.fetch? with
    | none => rw [List.filterMap_cons_none isFetch]; rfl
    | some fetch => rw [List.filterMap_cons_some isFetch]; rfl
  rw [fetchesOf, split, List.filter_append, begun]
  rfl

theorem ceases_step (isOver : world.IsOver id) :
    world.step.Ceases world id (world.begins id .step) := by
  cases queue : world.queue with
  | nil =>
      have idle : world.begins id .step = [] := by
        rw [begins_step, queue]
        rfl
      rw [idle, step, queue]
      exact (Rests.refl isOver).ceases
  | cons task tasks =>
      have popped : world.fetchesOf id = _ := fetchesOf_popped queue
      have stillOver : ({ world with queue := tasks } : World).IsOver id := isOver
      have rests : world.step.Rests { world with queue := tasks } id := by
        cases isFor : task.refresh? with
        | some refresh => exact (handles_step queue isFor).rests stillOver
        | none =>
            rw [step, queue]
            cases task with
            | fetch | resume => cases isFor
            | deliver place subscriber =>
                have delivered : World.Deeds { world with queue := tasks } none none _ :=
                  deeds_deliver _ place subscriber
                exact delivered.rests stillOver
      exact ⟨rests.isOver, rests.journal, rests.fetches ▸ popped⟩

theorem ceases_undergo (attended : world.Attended) (isOver : world.IsOver id)
    (incident : Incident) :
    (world.undergo incident).Ceases world id (world.begins id incident) := by
  by_cases isStep : incident = .step
  · subst isStep
    exact ceases_step isOver
  · rw [begins_of_no_step isStep]
    rcases undergo_cases attended incident with ⟨channels, same⟩ | ⟨_, _, _, runs, _⟩ | deeds
    · have rests : World.Rests { world with channels } world id := rests_of_caches isOver rfl rfl
      rw [same]
      exact rests.ceases
    · exact absurd runs isStep
    · exact (deeds.rests isOver).ceases

theorem ceases_undergoAll (attended : world.Attended) (isOver : world.IsOver id)
    (incidents : List Incident) :
    (world.undergoAll incidents).Ceases world id (world.beginsAll id incidents) := by
  induction incidents generalizing world with
  | nil => exact (Rests.refl isOver).ceases
  | cons incident others inductionHypothesis =>
      have first := ceases_undergo attended isOver incident
      have rest := inductionHypothesis (attended.undergo incident) first.isOver
      refine ⟨rest.isOver, rest.journal.trans first.journal, ?_⟩
      rw [beginsAll, List.append_assoc, undergoAll_cons, ← rest.fetches]
      exact first.fetches

/-! ## The close -/

/-- Whatever was closed holds nothing. -/
theorem spent_of_reached (config : ConnectionConfig) (incidents : List Incident) (id : CacheId) :
    ((ofConfig config).undergoAll incidents).Meets id Cache.IsSpent := by
  induction incidents using List.reverseRecOn with
  | nil => exact fun _ found => nomatch found
  | append_singleton others last inductionHypothesis =>
      have attended := attended_of_reached config others
      rw [undergoAll_concat]
      generalize (ofConfig config).undergoAll others = world at attended inductionHypothesis ⊢
      rcases inductionHypothesis.undergo Cache.isLasting_isSpent attended last with
        rfl | ⟨path, version, rfl⟩ | kept
      · exact inductionHypothesis.step Cache.isLasting_isSpent
          fun _ now node epoch spent => spent.commit now node epoch
      · change (world.clearDataIf id path version).2.Meets id Cache.IsSpent
        unfold clearDataIf
        cases found : world.caches[id]? with
        | none => exact inductionHypothesis
        | some cache =>
            exact inductionHypothesis.setCache found fun _ spent closed =>
              Store.empty_update cache.store world.now path _ (spent closed)
      · exact kept

/-- The close itself tells nothing either, and queues no fetch. -/
theorem ceases_closeCache (found : world.caches[id]? = some cache)
    (spent : world.Meets id Cache.IsSpent) : (world.closeCache id).Ceases world id [] := by
  unfold closeCache
  simp only [found]
  split
  next isClosed =>
    have closed : cache.phase = .closed := by
      simpa [Cache.isClosed] using isClosed
    exact (Rests.refl ⟨cache, found, closed, spent cache found closed⟩).ceases
  · have deliveries : ∀ state : World, (state.enqueue
        (cache.feed.idle.map (Task.deliver id))).fetches = state.fetches := by
      intro state
      rw [← fetches_quiet, quiet_enqueue_deliveries, fetches_quiet]
    have stillFound : ∀ connection : Connection Ensemble CacheId,
        ({ world with connection } : World).caches[id]? = some cache := fun _ => found
    have journal : ∀ connection : Connection Ensemble CacheId,
        (({ world with connection } : World).setCache id cache.close).journal id =
          world.journal id := fun connection =>
      journal_setCache_of_journal (stillFound connection) rfl
    refine ⟨⟨cache.close, getElem?_setCache (stillFound _) cache.close, rfl, rfl⟩, ?_, ?_⟩
    · exact journal _
    · rw [List.nil_append, fetchesOf, fetchesOf, deliveries]
      rfl

/-! ## Calls on a closed cache -/

theorem readToken_settledToken (world : World) (outcome : Outcome) :
    ((world.settledToken outcome).2.readToken (world.settledToken outcome).1).1 =
      some outcome := by
  simp [settledToken, addChannel, readToken, Channel.settled, Channel.read]

theorem refresh_of_over (isOver : world.IsOver id) (path : Path) :
    world.refresh id path = world.settledToken (.error .closed) := by
  obtain ⟨cache, found, closed, _⟩ := isOver
  unfold refresh
  simp only [found, closed]

theorem refreshAll_of_over (isOver : world.IsOver id) :
    world.refreshAll id = world.settledToken (.error .closed) := by
  obtain ⟨cache, found, rest⟩ := isOver
  unfold refreshAll
  simp only [found]
  exact refresh_of_over ⟨cache, found, rest⟩ cache.options.basePath

theorem start_of_over (isOver : world.IsOver id) (runtime : world.hasRuntime = true) :
    world.start id = (.error .closed, world) := by
  obtain ⟨cache, found, closed, _⟩ := isOver
  unfold start
  simp only [found, runtime, closed, Bool.not_true, Bool.false_eq_true, if_false]

theorem hasRuntime_of_quiet (same : second.quiet = first.quiet) :
    second.hasRuntime = first.hasRuntime := by
  have runtime := congrArg World.hasRuntime same
  exact runtime

theorem hasRuntime_spawn (world : World) (fetch : Fetch) :
    (world.spawn fetch).hasRuntime = world.hasRuntime := by
  have runtime := congrArg World.hasRuntime (quiet_spawn world fetch)
  split at runtime
  · exact runtime
  · exact runtime

theorem Deeds.hasRuntime_eq (deeds : first.Deeds running cleared second) :
    second.hasRuntime = first.hasRuntime := by
  induction deeds with
  | refl => rfl
  | tail _ deed inductionHypothesis =>
      rw [← inductionHypothesis]
      cases deed with
      | pass _ _ _ _ _ _ runtime => exact runtime
      | remove => exact (hasRuntime_of_quiet (quiet_dispatchAll _ _ _)).trans rfl
      | spawn fetch => exact hasRuntime_spawn _ fetch
      | launch | request => exact hasRuntime_spawn _ _
      | tend | keep | clear | settle | build => rfl

theorem Handles.hasRuntime_eq (handles : first.Handles refresh second) :
    second.hasRuntime = first.hasRuntime := by
  obtain ⟨last, ⟨begun, committed, earlier, _, commits, later⟩, ends⟩ := handles
  have during : committed.hasRuntime = begun.hasRuntime := by
    rcases commits with rfl | ⟨id, cache, node, epoch, _, rfl⟩
    · rfl
    · exact (hasRuntime_of_quiet (quiet_dispatchAll _ _ _)).trans rfl
  have reached := (later.hasRuntime_eq.trans during).trans earlier.hasRuntime_eq
  rcases ends with rfl | ⟨suspension, _, rfl⟩
  · exact (hasRuntime_of_quiet (quiet_countDown last refresh)).trans reached
  · exact reached

theorem hasRuntime_undergo (attended : world.Attended) (incident : Incident) :
    (world.undergo incident).hasRuntime = world.hasRuntime := by
  rcases undergo_cases attended incident with ⟨channels, same⟩ |
    ⟨task, tasks, refresh, rfl, _, _, handles⟩ | deeds
  · rw [same]
  · exact handles.hasRuntime_eq
  · exact deeds.hasRuntime_eq

theorem hasRuntime_undergoAll (attended : world.Attended) (incidents : List Incident) :
    (world.undergoAll incidents).hasRuntime = world.hasRuntime := by
  induction incidents generalizing world with
  | nil => rfl
  | cons incident others inductionHypothesis =>
      exact (inductionHypothesis (attended.undergo incident)).trans
        (hasRuntime_undergo attended incident)

/-- Whatever befalls a world after the close of a cache, at whatever point it was closed: the cache
stays closed and holds nothing, it tells nothing from the close on, and the fetches that waited for
it then have begun or still wait, with no other one among them. A start is refused, and every token
of a refresh says that the cache is closed. -/
theorem over_of_closed (config : ConnectionConfig) (earlier later : List Incident) {id : CacheId}
    {cache : Cache} (found : ((ofConfig config).undergoAll earlier).caches[id]? = some cache) :
    let opened := (ofConfig config).undergoAll earlier
    let world := (opened.closeCache id).undergoAll later
    (∃ closed, world.caches[id]? = some closed ∧ closed.phase = .closed ∧
      closed.store.entries = []) ∧
    world.journal id = opened.journal id ∧
    opened.fetchesOf id = (opened.closeCache id).beginsAll id later ++ world.fetchesOf id ∧
    world.start id = (.error .closed, world) ∧
    (∀ path, let (token, after) := world.refresh id path
      (after.readToken token).1 = some (.error .closed)) ∧
    let (token, after) := world.refreshAll id
    (after.readToken token).1 = some (.error .closed) := by
  intro opened world
  have attended : opened.Attended := attended_of_reached config earlier
  have closes := ceases_closeCache found (spent_of_reached config earlier id)
  have stillAttended : (opened.closeCache id).Attended :=
    attended.undergo (.command (.closeCache id) rfl)
  have ceases := ceases_undergoAll stillAttended closes.isOver later
  have runtime : world.hasRuntime = true := by
    rw [hasRuntime_undergoAll stillAttended, (deeds_closeCache opened id).hasRuntime_eq,
      hasRuntime_undergoAll (attended_ofConfig config)]
    rfl
  refine ⟨ceases.isOver, ceases.journal.trans closes.journal, closes.fetches.trans ceases.fetches,
    start_of_over ceases.isOver runtime, ?_, ?_⟩
  · intro path
    rw [refresh_of_over ceases.isOver]
    exact readToken_settledToken world (.error .closed)
  · rw [refreshAll_of_over ceases.isOver]
    exact readToken_settledToken world (.error .closed)

/-- The first fetch of a cache waits for the release of a hold, and a second one is queued. -/
def halfway : List Incident :=
  [Command.startConnection, .announce .syncConnected, .create ['/', 'a'] [1] 0,
    .build ['/', 'a'] [.singleNode .statAndData], .hold ['/', 'a'], .start 0, .step,
    .refresh 0 ['/', 'a']].flatMap Command.incidents

/-- Both fetches run to their ends, and the node changes. -/
def aftermath : List Incident :=
  [Command.release 0, .setData ['/', 'a'] [2], .step, .step].flatMap Command.incidents

/-- The world in which the cache is closed between the read and the commit of the first fetch, and
before the second one. -/
def closedHalfway : World :=
  (((ofConfig defaultConfig).undergoAll halfway).closeCache 0).undergoAll aftermath

theorem over_of_closed_halfway :
    (((ofConfig defaultConfig).undergoAll halfway).suspended.map Suspension.hold = [0] ∧
      ((ofConfig defaultConfig).undergoAll halfway).fetchesOf 0 =
        [{ cache := 0, refresh := 1, path := ['/', 'a'], full := true }]) ∧
      (∃ closed, closedHalfway.caches[0]? = some closed ∧ closed.store.entries = []) ∧
      closedHalfway.journal 0 = ((ofConfig defaultConfig).undergoAll halfway).journal 0 ∧
      closedHalfway.fetchesOf 0 = [] ∧
      closedHalfway.start 0 = (.error .closed, closedHalfway) := by
  have isThere : (((ofConfig defaultConfig).undergoAll halfway).caches[0]?).isSome = true := by
    decide +kernel
  obtain ⟨cache, found⟩ := Option.isSome_iff_exists.mp isThere
  obtain ⟨⟨closed, place, _, empty⟩, silent, fetches, start, _, _⟩ :=
    over_of_closed defaultConfig halfway aftermath found
  have waited : ((ofConfig defaultConfig).undergoAll halfway).fetchesOf 0 =
      [{ cache := 0, refresh := 1, path := ['/', 'a'], full := true }] := by decide +kernel
  have begun : (((ofConfig defaultConfig).undergoAll halfway).closeCache 0).beginsAll 0
      aftermath = [{ cache := 0, refresh := 1, path := ['/', 'a'], full := true }] := by
    decide +kernel
  have none : closedHalfway.fetchesOf 0 = [] := by
    rw [waited, begun] at fetches
    exact List.self_eq_append_right.mp fetches
  have waits : ((ofConfig defaultConfig).undergoAll halfway).suspended.map Suspension.hold =
      [0] := by
    decide +kernel
  exact ⟨⟨waits, waited⟩, ⟨closed, place, empty⟩, silent, none, start⟩

end World

end WatchedTree
