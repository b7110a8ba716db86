import WatchedTree.Proofs.World.Journal
import WatchedTree.Proofs.World.Outcome

/-!
# The count of a refresh

A fetch tells of what it changed and counts up its refresh for each fetch that it queues; at its end
it counts down. The last one to count down notes the end of the refresh and resolves its channel.
-/
namespace WatchedTree

/-- A refresh that waits for so many more fetches. -/
def Refresh.raised (fetches : Nat) (refresh : Refresh) : Refresh :=
  { refresh with
    refresher := { refresh.refresher with count := refresh.refresher.count + fetches } }

namespace World

variable {world : World} {id : CacheId} {refresh : RefreshId} {cache : Cache} {visit : Visit}

/-- The later world has told some more events of a cache, and counts some more fetches for a
refresh. -/
structure Adds (after before : World) (id : CacheId) (refresh : RefreshId)
    (events : List CacheEvent) (fetches : Nat) : Prop where
  journal : after.journal id = before.journal id ++ events
  refreshes : after.refreshes = before.refreshes.modify refresh (Refresh.raised fetches)
  channels : after.channels = before.channels

theorem modify_raised_zero (refreshes : List Refresh) (refresh : RefreshId) :
    refreshes.modify refresh (Refresh.raised 0) = refreshes := by
  have nothing : Refresh.raised 0 = id := by
    funext refresh
    simp [Refresh.raised]
  rw [nothing]
  exact List.modify_id _ _

theorem Adds.of_same {after : World} (journal : after.journal id = world.journal id)
    (refreshes : after.refreshes = world.refreshes) (channels : after.channels = world.channels) :
    after.Adds world id refresh [] 0 where
  journal := by rw [journal, List.append_nil]
  refreshes := by rw [refreshes, modify_raised_zero]
  channels := channels

theorem Adds.trans {first second third : World} {events earlier : List CacheEvent}
    {fetches before : Nat} (left : first.Adds second id refresh events fetches)
    (right : second.Adds third id refresh earlier before) :
    first.Adds third id refresh (earlier ++ events) (before + fetches) where
  journal := by rw [left.journal, right.journal, List.append_assoc]
  refreshes := by
    rw [left.refreshes, right.refreshes, List.modify_modify_eq]
    congr 1
    funext refresh
    simp [Refresh.raised, Int.add_assoc]
  channels := left.channels.trans right.channels

theorem adds_setCache (refresh : RefreshId) (found : world.caches[id]? = some cache) {after : Cache}
    (feed : after.feed = cache.feed) : (world.setCache id after).Adds world id refresh [] 0 :=
  Adds.of_same (journal_setCache_of_feed found feed) rfl rfl

theorem adds_dispatch (found : world.caches[id]? = some cache) (event : CacheEvent) :
    (world.dispatch id event).Adds world id refresh [event] 0 where
  journal := by rw [journal_dispatch found, if_pos rfl]
  refreshes := by
    rw [modify_raised_zero, dispatch, found]
    rfl
  channels := by
    rw [dispatch, found]
    rfl

theorem adds_dispatchAll (found : world.caches[id]? = some cache) (events : List CacheEvent) :
    (world.dispatchAll id events).Adds world id refresh events 0 := by
  induction events generalizing world cache with
  | nil => exact Adds.of_same rfl rfl rfl
  | cons event others inductionHypothesis =>
      obtain ⟨held, stillFound, _⟩ := exists_of_same_quiet (quiet_dispatch world id event) found
      exact (inductionHypothesis stillFound).trans (adds_dispatch found event)

theorem adds_spawn {fetch : Fetch} (found : world.caches[fetch.cache]? = some cache)
    (isStarted : cache.phase = .started) :
    (world.spawn fetch).Adds world id fetch.refresh [] 1 := by
  have counted : (world.countUp fetch.refresh).caches[fetch.cache]? = some cache := found
  unfold spawn
  simp only [counted, isStarted, if_true]
  exact
    { journal := (List.append_nil _).symm
      refreshes := rfl
      channels := rfl }

theorem adds_spawnAll {fetches : List Fetch} (found : world.caches[id]? = some cache)
    (isStarted : cache.phase = .started)
    (own : ∀ fetch ∈ fetches, fetch.cache = id ∧ fetch.refresh = refresh) :
    (world.spawnAll fetches).Adds world id refresh [] fetches.length := by
  induction fetches generalizing world with
  | nil => exact Adds.of_same rfl rfl rfl
  | cons fetch others inductionHypothesis =>
      obtain ⟨isId, isRefresh⟩ := own fetch List.mem_cons_self
      subst isId isRefresh
      have counted : (world.countUp fetch.refresh).caches[fetch.cache]? = some cache := found
      have spawned : (world.spawn fetch).caches[fetch.cache]? = some cache := by
        unfold spawn
        simp only [counted, isStarted, if_true]
        exact found
      have rest := inductionHypothesis spawned
        fun other member => own other (List.mem_cons_of_mem _ member)
      have both := rest.trans (adds_spawn found isStarted)
      rw [List.length_cons, Nat.add_comm]
      exact both

theorem adds_removeSubtree (refresh : RefreshId) (found : world.caches[id]? = some cache)
    (path : Path) :
    (world.removeSubtree id path).Adds world id refresh
      (cache.removeSubtree world.now path).1 0 := by
  unfold World.removeSubtree
  simp only [found]
  have dropped := getElem?_setCache found (cache.removeSubtree world.now path).2
  have kept : (world.setCache id (cache.removeSubtree world.now path).2).Adds world id refresh
      [] 0 := adds_setCache refresh found rfl
  exact (adds_dispatchAll dropped _).trans kept

theorem adds_commit (refresh : RefreshId) (found : world.caches[visit.cache]? = some cache)
    (node : Node) :
    (world.commit visit node).Adds world visit.cache refresh
      (cache.quiet.said world.now visit.action node visit.epoch) 0 := by
  unfold commit Cache.said
  by_cases isStored : visit.action.isStored = true
  · have said : (cache.quiet.commit world.now node visit.epoch).1 =
        (cache.commit world.now node visit.epoch).1 := by
      unfold Cache.commit
      rw [Cache.quiet_isClosed]
      split <;> rfl
    have feed : (cache.commit world.now node visit.epoch).2.feed = cache.feed := by
      unfold Cache.commit
      split <;> rfl
    simp only [isStored, found, said, Bool.not_true, Bool.false_eq_true, if_false, if_true]
    have inPlace := getElem?_setCache found (cache.commit world.now node visit.epoch).2
    exact (adds_dispatchAll inPlace _).trans (adds_setCache refresh found feed)
  · simp only [isStored, Bool.not_false, if_true, Bool.false_eq_true, if_false]
    exact Adds.of_same rfl rfl rfl

theorem adds_reconcileChildren (found : world.caches[visit.cache]? = some cache)
    (isStarted : cache.phase = .started) (names : List Text) :
    (world.reconcileChildren visit names).Adds world visit.cache visit.fetch.refresh
      (Cache.removeSubtrees world.now (cache.quiet.vanished world.now visit.path names)
        cache.quiet).1
      ((cache.quiet.reconciled world.now visit.path names).wantedChildren world.now
        visit.fetch.full visit.path names).length := by
  obtain ⟨sameEvents, sameCache⟩ := removeSubtrees_quiet world.now
    (cache.vanished world.now visit.path names) cache
  have removal := Cache.removeSubtrees_eq cache world.now
    (cache.vanished world.now visit.path names)
  have isReconciled : cache.quiet.reconciled world.now visit.path names =
      (Cache.removeSubtrees world.now (cache.vanished world.now visit.path names)
        cache).2.quiet := sameCache
  have isSaid : (Cache.removeSubtrees world.now (cache.quiet.vanished world.now visit.path names)
      cache.quiet).1 =
        (Cache.removeSubtrees world.now (cache.vanished world.now visit.path names) cache).1 :=
    sameEvents
  rw [isReconciled, isSaid]
  unfold reconcileChildren
  simp only [found]
  generalize Cache.removeSubtrees world.now (cache.vanished world.now visit.path names) cache =
    outcome at removal ⊢
  have phase : outcome.2.phase = .started := by rw [removal, isStarted]
  have feed : outcome.2.feed = cache.feed := by rw [removal]
  have dropped := getElem?_setCache found outcome.2
  obtain ⟨held, heldFound, isHeld⟩ :=
    exists_of_same_quiet (quiet_dispatchAll (world.setCache visit.cache outcome.2) visit.cache
      outcome.1) dropped
  have heldPhase : held.phase = .started := (Cache.phase_of_quiet isHeld).trans phase
  have own : ∀ fetch ∈ (outcome.2.wantedChildren world.now visit.fetch.full visit.path
      names).map (fun path => { visit.fetch with path }),
        fetch.cache = visit.cache ∧ fetch.refresh = visit.fetch.refresh := by
    intro fetch member
    obtain ⟨path, _, rfl⟩ := List.mem_map.mp member
    exact ⟨rfl, rfl⟩
  have spawned := adds_spawnAll heldFound heldPhase own
  rw [List.length_map] at spawned
  have told := (adds_dispatchAll dropped outcome.1).trans
    (adds_setCache visit.fetch.refresh found feed)
  have both := spawned.trans told
  rw [List.append_nil, Nat.zero_add] at both
  exact both

/-! ## Whole fetches -/

/-- The later world is at the end of a visit, which has told some events, and has queued so many
fetches for its refresh. -/
def EndsWith (after before : World) (visit : Visit) (cache : Cache) (events : List CacheEvent)
    (fetches : Nat) : Prop :=
  ∃ (last : World) (held : Cache), after = last.endVisit visit none ∧
    last.Adds before visit.cache visit.fetch.refresh events fetches ∧
    last.caches[visit.cache]? = some held ∧ held.options = cache.options ∧
    held.phase = cache.phase

theorem endsWith_visitRead_some (found : world.caches[visit.cache]? = some cache)
    (isStarted : cache.phase = .started) (stat : Option Stat) (data : Option Payload)
    (names : List Text)
    (free : (cache.quiet.received world.now visit.action (visit.gathered stat data names)
      visit.epoch).store.deletedSince visit.path visit.epoch = false) :
    let kept := cache.quiet.received world.now visit.action (visit.gathered stat data names)
      visit.epoch
    (world.visitRead visit stat data (some names)).EndsWith world visit cache
      (cache.quiet.said world.now visit.action (visit.gathered stat data names) visit.epoch ++
        if visit.traverse then
          (Cache.removeSubtrees world.now (kept.vanished world.now visit.path names) kept).1
        else [])
      (if visit.traverse then
        ((kept.reconciled world.now visit.path names).wantedChildren world.now
          visit.fetch.full visit.path names).length
      else 0) := by
  intro kept
  have committed := quiet_commit found (visit.gathered stat data names)
  have adds := adds_commit visit.fetch.refresh found (visit.gathered stat data names)
  have inPlace : (world.commit visit (visit.gathered stat data names)).quiet.caches[visit.cache]? =
      some kept := by
    rw [committed]
    exact getElem?_setCache (quiet_found found) kept
  obtain ⟨other, otherFound, isKept⟩ := exists_of_quiet inPlace
  have sameTime : (world.commit visit (visit.gathered stat data names)).now = world.now := by
    rw [← quiet_now, committed]
    rfl
  have options : other.options = cache.options := by
    rw [← Cache.quiet_options, isKept]
    exact Cache.options_received cache.quiet _ _ _ _
  have phase : other.phase = cache.phase := by
    rw [← Cache.quiet_phase, isKept]
    exact Cache.phase_received cache.quiet _ _ _ _
  have spared : other.store.deletedSince visit.path visit.epoch = false := by
    rw [← Cache.quiet_store, isKept]
    exact free
  rw [visitRead_some]
  generalize world.commit visit (visit.gathered stat data names) = after at *
  simp only [otherFound, spared, Bool.not_false, Bool.and_true]
  cases visit.traverse with
  | false =>
      simp only [Bool.false_eq_true, if_false, List.append_nil]
      exact ⟨after, other, rfl, adds, otherFound, options, phase⟩
  | true =>
      simp only [if_true]
      have isStartedOther := phase.trans isStarted
      have reconciles := adds_reconcileChildren otherFound isStartedOther names
      have quietly := quiet_reconcileChildren otherFound isStartedOther names
      rw [isKept, sameTime] at reconciles
      have lastPlace : (after.reconcileChildren visit names).quiet.caches[visit.cache]? =
          some (kept.reconciled world.now visit.path names) := by
        rw [quietly, ← isKept, ← sameTime]
        exact getElem?_setCache (quiet_found otherFound) _
      obtain ⟨held, heldFound, isHeld⟩ := exists_of_quiet lastPlace
      refine ⟨_, held, rfl, ?_, heldFound, ?_, ?_⟩
      · have both := reconciles.trans adds
        rw [Nat.zero_add] at both
        exact both
      · rw [← Cache.quiet_options, isHeld, Cache.options_reconciled, ← isKept,
          Cache.quiet_options, options]
      · rw [← Cache.quiet_phase, isHeld, Cache.phase_reconciled, ← isKept,
          Cache.quiet_phase, phase]

theorem endsWith_visitRead_none (world : World) (visit : Visit)
    (found : world.caches[visit.cache]? = some cache)
    (stat : Option Stat) (data : Option Payload) :
    (world.visitRead visit stat data none).EndsWith world visit cache
      (cache.quiet.said world.now visit.action { path := visit.path, stat, data } visit.epoch)
      0 := by
  have committed := quiet_commit found { path := visit.path, stat, data }
  have inPlace : (world.commit visit { path := visit.path, stat, data }).quiet.caches[visit.cache]? =
      some (cache.quiet.received world.now visit.action { path := visit.path, stat, data }
        visit.epoch) := by
    rw [committed]
    exact getElem?_setCache (quiet_found found) _
  obtain ⟨held, heldFound, isHeld⟩ := exists_of_quiet inPlace
  refine ⟨_, held, visitRead_none world visit stat data,
    adds_commit visit.fetch.refresh found _, heldFound, ?_, ?_⟩
  · rw [← Cache.quiet_options, isHeld]
    exact Cache.options_received cache.quiet _ _ _ _
  · rw [← Cache.quiet_phase, isHeld]
    exact Cache.phase_received cache.quiet _ _ _ _

/-- All that a visit tells and queues after its reads, if it found its node. -/
theorem endsWith_visitRead (world : World) (visit : Visit)
    (found : world.caches[visit.cache]? = some cache)
    (isStarted : cache.phase = .started) (stat : Option Stat) (data : Option Payload)
    (names : List Text)
    (free : (cache.quiet.received world.now visit.action (visit.gathered stat data names)
      visit.epoch).store.deletedSince visit.path visit.epoch = false) :
    let kept := cache.quiet.received world.now visit.action (visit.gathered stat data names)
      visit.epoch
    (world.visitRead visit stat data
        (if visit.action.wantsChildren || visit.traverse then some names else none)).EndsWith
      world visit cache
      (cache.quiet.said world.now visit.action (visit.gathered stat data names) visit.epoch ++
        if visit.traverse then
          (Cache.removeSubtrees world.now (kept.vanished world.now visit.path names) kept).1
        else [])
      (if visit.traverse then
        ((kept.reconciled world.now visit.path names).wantedChildren world.now
          visit.fetch.full visit.path names).length
      else 0) := by
  by_cases lists : (visit.action.wantsChildren || visit.traverse) = true
  · rw [if_pos lists]
    exact endsWith_visitRead_some found isStarted stat data names free
  · rw [if_neg lists]
    have none := endsWith_visitRead_none world visit found stat data
    simp only [Bool.or_eq_true, not_or, Bool.not_eq_true] at lists
    simp only [Visit.gathered, lists.1, lists.2, Bool.false_eq_true, if_false, List.append_nil]
    exact none

/-- A visit that found no node, where the node is still missing. -/
theorem endsWith_visitAbsent (world : World) (visit : Visit)
    (found : world.caches[visit.cache]? = some cache)
    (answers : world.ensemble.Answers visit.session visit.path)
    (absent : world.ensemble.nodes.get? visit.path = none) :
    (world.visitAbsent visit).EndsWith world visit cache
      (cache.removeSubtree world.now visit.path).1 0 := by
  obtain ⟨held, heldFound, isHeld⟩ := exists_of_removeSubtree found visit.path
  have removed := adds_removeSubtree visit.fetch.refresh found visit.path
  refine ⟨_, held, visitAbsent_of_absent world visit found answers absent, ?_, heldFound, ?_, ?_⟩
  · exact
      { journal := removed.journal
        refreshes := removed.refreshes
        channels := removed.channels }
  · rw [← Cache.quiet_options, isHeld]
    rfl
  · rw [← Cache.quiet_phase, isHeld]
    rfl

section Ready

variable {fetch : Fetch} {action : Action} {traverse : Bool} {session : SessionId}
  {connection : Connection Ensemble CacheId}

/-- What was told and queued by the visit of a fetch was so by the fetch. -/
theorem EndsWith.of_visiting {after : World} {events : List CacheEvent} {fetches : Nat}
    {ensemble : Ensemble} (found : world.caches[fetch.cache]? = some cache)
    (ends : after.EndsWith ((world.visiting fetch cache connection).setEnsemble ensemble)
      (visitOf fetch cache action traverse session) cache.begun events fetches) :
    after.EndsWith world (visitOf fetch cache action traverse session) cache events fetches := by
  obtain ⟨last, held, isLast, adds, heldFound, options, phase⟩ := ends
  have place : ({ world with connection } : World).caches[fetch.cache]? = some cache := found
  have begun : (world.visiting fetch cache connection).journal fetch.cache =
      world.journal fetch.cache := journal_setCache_of_feed place rfl
  refine ⟨last, held, isLast, ?_, heldFound, options, phase⟩
  exact
    { journal := adds.journal.trans (congrArg (· ++ events) begun)
      refreshes := adds.refreshes
      channels := adds.channels }

variable (ready : world.Ready fetch cache action traverse session connection)

include ready

/-- What a fetch tells and queues that finds its node. -/
theorem Ready.endsWith_of_present {remote : RemoteNode}
    (present : connection.remote.nodes.get? fetch.path = some remote) :
    let names := cache.listing connection.remote fetch.path
    let node := nodeOf fetch.path action remote names
    (world.runFetch fetch).EndsWith world (visitOf fetch cache action traverse session) cache
      (visitEvents cache.quiet world.now action traverse node names)
      (if traverse then
        ((visited cache.quiet world.now action traverse node names).wantedChildren world.now
          fetch.full fetch.path names).length
      else 0) := by
  intro names node
  have begun := beginVisit_of_present (world.visiting fetch cache connection)
    (visitOf fetch cache action traverse session) ready.visiting_found ready.answers present
  have remembers : cache.quiet.store.Remembers := ready.remembers
  have free := Cache.deletedSince_received remembers world.now action node fetch.path
  have read := endsWith_visitRead ((world.visiting fetch cache connection).setEnsemble
    (connection.remote.surveyed session fetch.path action traverse))
    (visitOf fetch cache action traverse session) ready.visiting_found ready.isStarted
    (if action.wantsStat then some remote.stat else none)
    (if action.wantsData then some remote.data else none) names free
  rw [ready.runFetch, begun]
  have ends := EndsWith.of_visiting ready.found read
  cases traverse with
  | true => exact ends
  | false => exact ends

/-- What a fetch tells that finds no node. -/
theorem Ready.endsWith_of_absent
    (absent : connection.remote.nodes.get? fetch.path = none)
    (reads : (action.wantsStat || action.wantsChildren || traverse) = true) :
    (world.runFetch fetch).EndsWith world (visitOf fetch cache action traverse session) cache
      (cache.begun.removeSubtree world.now fetch.path).1 0 := by
  have begun := beginVisit_of_absent (world.visiting fetch cache connection)
    (visitOf fetch cache action traverse session) ready.answers absent reads
  obtain ⟨answers, still⟩ := ready.missed absent
  have dropped := endsWith_visitAbsent ((world.visiting fetch cache connection).setEnsemble
    (connection.remote.missed session fetch.path action))
    (visitOf fetch cache action traverse session) ready.visiting_found answers still
  rw [ready.runFetch, begun]
  exact EndsWith.of_visiting ready.found dropped

/-- A fetch that has nothing to read tells nothing. -/
theorem Ready.endsWith_of_no_reads (noStat : action.wantsStat = false)
    (noChildren : action.wantsChildren = false) (noTraversal : traverse = false) :
    (world.runFetch fetch).EndsWith world (visitOf fetch cache action traverse session) cache
      [] 0 := by
  have notStored : action.isStored = false := action.not_isStored_of_no_reads noStat noChildren
  have begun := beginVisit_of_no_reads (world.visiting fetch cache connection)
    (visitOf fetch cache action traverse session) noStat noChildren noTraversal
  have read := endsWith_visitRead_none
    ((world.visiting fetch cache connection).setEnsemble connection.remote)
    (visitOf fetch cache action traverse session) ready.visiting_found none none
  have silent : ∀ node, cache.begun.quiet.said world.now action node cache.store.epoch = [] := by
    intro node
    rw [Cache.said, notStored]
    rfl
  rw [ready.runFetch, begun, ← silent]
  exact EndsWith.of_visiting ready.found read

end Ready

/-! ## The end of a fetch -/

/-- A refresh under way with a token, for which so many fetches have yet to end. -/
structure Awaits (world : World) (id : CacheId) (refresh : RefreshId) (channel : ChannelId)
    (path : Path) (fetches : Nat) : Prop where
  refresh : world.refreshes[refresh]? =
    some { cache := id, refresher := { path, count := fetches }, channel := some channel }
  channel : world.channels[channel]? = some {}

section Awaits

variable {channel : ChannelId} {path : Path} {fetches : Nat}

theorem Awaits.adds {after : World} {events : List CacheEvent} {more : Nat}
    (awaits : world.Awaits id refresh channel path fetches)
    (adds : after.Adds world id refresh events more) :
    after.Awaits id refresh channel path (fetches + more) where
  refresh := by
    rw [adds.refreshes, List.getElem?_modify_eq, awaits.refresh]
    simp [Refresh.raised]
  channel := by rw [adds.channels, awaits.channel]

theorem Awaits.of_same {after : World} (awaits : world.Awaits id refresh channel path fetches)
    (refreshes : after.refreshes = world.refreshes) (channels : after.channels = world.channels) :
    after.Awaits id refresh channel path fetches where
  refresh := by rw [refreshes, awaits.refresh]
  channel := by rw [channels, awaits.channel]

theorem countDown_of_more (awaits : world.Awaits id refresh channel path (fetches + 2)) :
    (world.countDown refresh).Awaits id refresh channel path (fetches + 1) ∧
      (world.countDown refresh).journal id = world.journal id := by
  obtain ⟨inRange, _⟩ := List.getElem?_eq_some_iff.mp awaits.refresh
  have goesOn : ¬ ((fetches + 2 : Nat) : Int) - 1 ≤ 0 := by omega
  have count : ((fetches + 2 : Nat) : Int) - 1 = (fetches + 1 : Nat) := by omega
  unfold countDown
  simp only [awaits.refresh, Refresher.decrement, goesOn, decide_false, Bool.false_and,
    Bool.false_eq_true, if_false, Bool.or_false]
  refine ⟨⟨?_, awaits.channel⟩, rfl⟩
  simp only [count, List.getElem?_set_self inRange]

theorem channels_refreshed (world : World) (id : CacheId) (path : Path) (cancelled : Bool) :
    (world.refreshed id path cancelled).channels = world.channels := by
  unfold refreshed
  cases world.caches[id]? with
  | none => rfl
  | some cache =>
      simp only
      split
      · unfold dispatch
        split <;> rfl
      · rfl

theorem journal_refreshed (found : world.caches[id]? = some cache)
    (isStarted : cache.phase = .started) :
    (world.refreshed id path false).journal id =
      world.journal id ++ if cache.options.sendRefreshEvents then [.refreshed path] else [] := by
  have counted : (world.setCache id
      { cache with refreshCount := cache.refreshCount + 1 }).journal id = world.journal id :=
    journal_setCache_of_feed found rfl
  have inPlace := getElem?_setCache found { cache with refreshCount := cache.refreshCount + 1 }
  have notClosed : cache.isClosed = false := by
    rw [Cache.isClosed, isStarted]
    rfl
  unfold refreshed
  simp only [found, notClosed, Bool.not_false, Bool.true_and, Bool.and_true]
  split
  · rw [journal_dispatch inPlace, if_pos rfl, counted]
  · rw [counted, List.append_nil]

theorem countDown_of_last (awaits : world.Awaits id refresh channel path 1)
    (found : world.caches[id]? = some cache) (isStarted : cache.phase = .started) :
    (world.countDown refresh).channels[channel]? = some { slot := .resolved (.ok ()) } ∧
      (world.countDown refresh).journal id = world.journal id ++
        if cache.options.sendRefreshEvents then [.refreshed path] else [] := by
  have ends : ((1 : Nat) : Int) - 1 ≤ 0 := by omega
  have notCancelled : ∀ refreshes,
      ({ world with refreshes } : World).isCancelled channel = false := by
    intro refreshes
    simp [isCancelled, awaits.channel]
  unfold countDown finish
  simp only [awaits.refresh, Refresher.decrement, ends, decide_true, Bool.true_and, Bool.not_false,
    if_true, notCancelled, Bool.false_eq_true, if_false]
  generalize world.refreshes.set refresh _ = refreshes
  have place : ({ world with refreshes } : World).caches[id]? = some cache := found
  have channels := channels_refreshed { world with refreshes } id path false
  refine ⟨?_, journal_refreshed place isStarted⟩
  change (List.modify _ _ _)[channel]? = _
  rw [channels, List.getElem?_modify_eq, awaits.channel]
  rfl

/-- A fetch that is not the last one of its refresh. -/
theorem EndsWith.of_more {after : World} {events : List CacheEvent} {more : Nat}
    (ends : after.EndsWith world visit cache events more)
    (awaits : world.Awaits visit.cache visit.fetch.refresh channel path (fetches + 1))
    (goesOn : fetches + more ≠ 0) :
    after.Awaits visit.cache visit.fetch.refresh channel path (fetches + more) ∧
      after.journal visit.cache = world.journal visit.cache ++ events := by
  obtain ⟨last, held, rfl, adds, heldFound, _, _⟩ := ends
  obtain ⟨others, isMore⟩ := Nat.exists_eq_succ_of_ne_zero goesOn
  have counted := awaits.adds adds
  have isCount : fetches + 1 + more = others + 2 := by omega
  rw [isCount] at counted
  have ended : (last.updateCache visit.cache (Cache.ended · visit.epoch)).Awaits visit.cache
        visit.fetch.refresh channel path (others + 2) := counted.of_same rfl rfl
  have sameJournal : (last.updateCache visit.cache (Cache.ended · visit.epoch)).journal
      visit.cache = last.journal visit.cache := journal_updateCache_of_feed fun _ => rfl
  obtain ⟨still, journal⟩ := countDown_of_more ended
  rw [isMore]
  exact ⟨still, journal.trans (sameJournal.trans adds.journal)⟩

/-- The last fetch of a refresh. -/
theorem EndsWith.of_last {after : World} {events : List CacheEvent}
    (ends : after.EndsWith world visit cache events 0)
    (awaits : world.Awaits visit.cache visit.fetch.refresh channel path 1)
    (isStarted : cache.phase = .started) :
    after.channels[channel]? = some { slot := .resolved (.ok ()) } ∧
      after.journal visit.cache = world.journal visit.cache ++ events ++
        if cache.options.sendRefreshEvents then [.refreshed path] else [] := by
  obtain ⟨last, held, rfl, adds, heldFound, options, phase⟩ := ends
  have counted : (last.updateCache visit.cache (Cache.ended · visit.epoch)).Awaits visit.cache
        visit.fetch.refresh channel path 1 := (awaits.adds adds).of_same rfl rfl
  have place : (last.updateCache visit.cache (Cache.ended · visit.epoch)).caches[visit.cache]? =
        some (held.ended visit.epoch) := by
    rw [← setCache_eq_updateCache _ heldFound]
    exact getElem?_setCache heldFound _
  have sameJournal : (last.updateCache visit.cache (Cache.ended · visit.epoch)).journal
      visit.cache = last.journal visit.cache := journal_updateCache_of_feed fun _ => rfl
  have sameOptions : (held.ended visit.epoch).options = cache.options := options
  obtain ⟨resolved, journal⟩ := countDown_of_last counted place (phase.trans isStarted)
  rw [sameJournal, adds.journal, sameOptions] at journal
  exact ⟨resolved, journal⟩

end Awaits

end World

end WatchedTree
