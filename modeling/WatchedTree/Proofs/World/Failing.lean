import WatchedTree.Proofs.World.Reading
import WatchedTree.Proofs.World.Reconciling
import WatchedTree.Proofs.World.Transcript
import WatchedTree.Proofs.World.Untouched

/-!
# Fetches that fail

Until its last read a fetch changes nothing that shows. So a fetch that ends in an error has done
nothing but to tell of it and to count down, except that it may have dropped the base. That holds of
any answers.
-/
namespace WatchedTree

namespace World

variable {world after before : World} {id : CacheId} {cache : Cache} {refresh : RefreshId}
  {visit : Visit} {fetch : Fetch}

/-! ## Fetches that are queued -/

/-- How many fetches a refresh waits for. -/
def counted (world : World) (refresh : RefreshId) : Option Int :=
  world.refreshes[refresh]?.map fun given => given.refresher.count

/-- Some fetches have been queued for a refresh, which counts them. -/
structure Queues (after before : World) (refresh : RefreshId) (queued : List Fetch) : Prop where
  calls : after.calls = before.calls
  fetches : after.queue.filterMap Task.fetch? = before.queue.filterMap Task.fetch? ++ queued
  own : ∀ fetch ∈ queued, fetch.refresh = refresh
  counts : ∀ other, after.counted other =
    (before.counted other).map fun count =>
      count + if other = refresh then (queued.length : Int) else 0

theorem Queues.of_same (ledger : after.ledger = before.ledger)
    (queue : (after.queue.filter fun task => !task.isDelivery) =
      before.queue.filter fun task => !task.isDelivery) : after.Queues before refresh [] where
  calls := calls_of_ledger ledger
  fetches := by
    rw [← filterMap_fetch_quiet after.queue, queue, filterMap_fetch_quiet, List.append_nil]
  own := by simp
  counts other := by
    simp [counted, refreshes_of_ledger ledger, Function.comp_def]

theorem Queues.trans {first second third : World} {queued earlier : List Fetch}
    (left : first.Queues second refresh queued) (right : second.Queues third refresh earlier) :
    first.Queues third refresh (earlier ++ queued) where
  calls := left.calls.trans right.calls
  fetches := by rw [left.fetches, right.fetches, List.append_assoc]
  own fetch member := (List.mem_append.mp member).elim (right.own fetch) (left.own fetch)
  counts other := by
    rw [left.counts, right.counts, Option.map_map]
    congr 1
    funext count
    by_cases isRefresh : other = refresh
    · simp [isRefresh, Int.add_assoc]
    · simp [isRefresh]

theorem queues_of_bare (same : after.bare = before.bare) : after.Queues before refresh [] :=
  .of_same (ledger_of_bare same) (isUntouched_of_bare same).queue

theorem queues_tell (found : world.caches[id]? = some cache) {other : Cache}
    (same : other.address = cache.address) (events : List CacheEvent) :
    ((world.setCache id other).dispatchAll id events).Queues world refresh [] := by
  refine .of_same ((ledger_dispatchAll _ id events).trans (ledger_setCache found same)) ?_
  exact congrArg World.queue (quiet_dispatchAll (world.setCache id other) id events)

theorem counted_countUp (world : World) (refresh other : RefreshId) :
    (world.countUp refresh).counted other =
      (world.counted other).map fun count => count + if other = refresh then 1 else 0 := by
  unfold counted countUp
  rw [List.getElem?_modify]
  by_cases isRefresh : refresh = other
  · subst isRefresh
    cases world.refreshes[refresh]? <;> simp [Refresher.increment]
  · have apart : other ≠ refresh := Ne.symm isRefresh
    cases world.refreshes[other]? <;> simp [isRefresh, apart]

theorem counted_countDown (world : World) (refresh other : RefreshId) :
    (world.countDown refresh).counted other =
      (world.counted other).map fun count => count - if other = refresh then 1 else 0 := by
  unfold counted
  rw [refreshes_countDown, List.getElem?_modify]
  by_cases isRefresh : refresh = other
  · subst isRefresh
    cases world.refreshes[refresh]? <;> simp [Refresh.lowered, Refresher.decrement]
  · have apart : other ≠ refresh := Ne.symm isRefresh
    cases world.refreshes[other]? <;> simp [isRefresh, apart]

/-- What is counted and not queued counts as done. -/
theorem queues_refused (world : World) (refresh : RefreshId) :
    ((world.countUp refresh).countDown refresh).Queues world refresh [] where
  calls := calls_countDown _ refresh
  fetches := by
    have quietly := congrArg World.queue (quiet_countDown (world.countUp refresh) refresh)
    rw [List.append_nil, ← filterMap_fetch_quiet]
    exact (congrArg (List.filterMap Task.fetch?) quietly).trans (filterMap_fetch_quiet _)
  own := by simp
  counts other := by
    rw [counted_countDown, counted_countUp, Option.map_map]
    congr 1
    funext count
    by_cases isRefresh : other = refresh
    · simp [isRefresh]
    · simp [isRefresh]

theorem queues_spawn (world : World) (fetch : Fetch) :
    ∃ queued, (world.spawn fetch).Queues world fetch.refresh queued := by
  have queued : ((world.countUp fetch.refresh).enqueue [.fetch fetch]).Queues world fetch.refresh
      [fetch] :=
    { calls := rfl
      fetches := List.filterMap_append
      own := by simp
      counts := counted_countUp world fetch.refresh }
  unfold spawn
  simp only
  split
  · exact ⟨[], queues_refused world fetch.refresh⟩
  · split
    · exact ⟨[fetch], queued⟩
    · exact ⟨[], queues_refused world fetch.refresh⟩

theorem queues_spawnAll {fetches : List Fetch} (own : ∀ fetch ∈ fetches, fetch.refresh = refresh)
    (world : World) : ∃ queued, (world.spawnAll fetches).Queues world refresh queued := by
  induction fetches generalizing world with
  | nil => exact ⟨[], .of_same rfl rfl⟩
  | cons fetch others inductionHypothesis =>
      have isOwn := own fetch List.mem_cons_self
      subst isOwn
      obtain ⟨first, spawned⟩ := queues_spawn world fetch
      obtain ⟨rest, spawns⟩ := inductionHypothesis
        (fun other member => own other (List.mem_cons_of_mem _ member)) (world.spawn fetch)
      exact ⟨first ++ rest, spawns.trans spawned⟩

theorem queues_removeSubtree (world : World) (id : CacheId) (path : Path) :
    (world.removeSubtree id path).Queues world refresh [] :=
  .of_same (ledger_removeSubtree world id path)
    (congrArg World.queue (quiet_removeSubtree world id path))

theorem queues_commit (world : World) (visit : Visit) (node : Node) :
    (world.commit visit node).Queues world refresh [] := by
  unfold commit
  split
  · exact .of_same rfl rfl
  · cases found : world.caches[visit.cache]? with
    | none => exact .of_same rfl rfl
    | some cache =>
        have kept : (cache.commit world.now node visit.epoch).2.address = cache.address := by
          unfold Cache.commit
          split <;> rfl
        exact queues_tell found kept _

theorem queues_reconcileChildren (world : World) (visit : Visit) (names : List Text) :
    ∃ queued, (world.reconcileChildren visit names).Queues world visit.fetch.refresh queued := by
  unfold reconcileChildren
  cases found : world.caches[visit.cache]? with
  | none => exact ⟨[], .of_same rfl rfl⟩
  | some cache =>
      have told := Cache.removeSubtrees_eq cache world.now
        (cache.vanished world.now visit.path names)
      simp only
      generalize Cache.removeSubtrees world.now (cache.vanished world.now visit.path names) cache =
        outcome at told ⊢
      have own : ∀ fetch ∈ (outcome.2.wantedChildren world.now visit.fetch.full visit.path
          names).map (fun path => { visit.fetch with path }),
            fetch.refresh = visit.fetch.refresh := by
        intro fetch member
        obtain ⟨path, _, rfl⟩ := List.mem_map.mp member
        rfl
      have same : outcome.2.address = cache.address := by rw [told]; rfl
      obtain ⟨queued, spawned⟩ := queues_spawnAll own
        ((world.setCache visit.cache outcome.2).dispatchAll visit.cache outcome.1)
      exact ⟨[] ++ queued, spawned.trans (queues_tell found same outcome.1)⟩

theorem queues_complete (world : World) (visit : Visit) (stat : Option Stat)
    (data : Option Payload) (children : Option (List Text)) :
    ∃ queued, (Answering.complete world visit stat data children).Queues world
      visit.fetch.refresh queued := by
  unfold Answering.complete
  simp only
  generalize isNode : ({ path := visit.path, stat, data, children := _ } : Node) = node
  have committed : (world.commit visit node).Queues world visit.fetch.refresh [] :=
    queues_commit world visit node
  split
  · split
    · obtain ⟨queued, reconciled⟩ := queues_reconcileChildren (world.commit visit node) visit _
      exact ⟨[] ++ queued, reconciled.trans committed⟩
    · exact ⟨[], committed⟩
  · exact ⟨[], committed⟩

end World

/-! ## Where a fetch stops -/

namespace Answering

variable {answering : Answering} {world before : World} {visit : Visit} {fetch : Fetch}
  {gives : Stop → Prop} {leg : Leg}

/-- The reads of a visit that is under way do not show. -/
theorem Underway.bare (underway : answering.Underway world leg visit before) :
    before.bare = world.bare := by
  induction underway with
  | begins begins =>
      cases begins with
      | @session cache _ _ _ connection found =>
          have inPlace : ({ world with connection } : World).caches[_]? = some cache := found
          exact World.bare_setCache_of_bare inPlace rfl
  | answered => rfl
  | read _ _ inductionHypothesis => exact inductionHypothesis

/-- What has been done by the time a fetch stops: nothing that shows if it waits or fails, but for
the base that may be gone. The error is one that was given. -/
def Halts (before : World) (fetch : Fetch) (gives : Stop → Prop) : Stop × World → Prop
  | (.done, after) => ∃ queued, after.Queues before fetch.refresh queued
  | (.waits, after) => ∃ suspension : Suspension, suspension.visit.fetch = fetch ∧
      ∃ last : World, last.bare = before.bare ∧
        after = { last with suspended := last.suspended ++ [suspension] }
  | (.refused failure, after) => gives (.refused failure) ∧ after.bare = before.bare
  | (.failed fault, after) => gives (.failed fault) ∧ after.bare = before.bare
  | (.unwatched fault, after) => gives (.unwatched fault) ∧
      (before.caches[fetch.cache]?).map (fun cache => cache.options.basePath) = some fetch.path ∧
      after.bare = (before.removeSubtree fetch.cache fetch.path).bare

theorem halts_complete (same : world.bare = before.bare) (visit : Visit) (stat : Option Stat)
    (data : Option Payload) (children : Option (List Text)) :
    Halts before visit.fetch gives (.done, complete world visit stat data children) := by
  obtain ⟨queued, completed⟩ := World.queues_complete world visit stat data children
  exact ⟨[] ++ queued, completed.trans (World.queues_of_bare same)⟩

theorem halts_absent (same : world.bare = before.bare)
    (given : ∀ fault, (answering.stat world.ensemble visit.session visit.path).1 = .error fault →
      gives (.unwatched fault)) :
    Halts before visit.fetch gives (answering.absent world visit) := by
  -- The reads so far do not show, so the base is removed as it would be without them.
  have removed := World.removeSubtree_of_bare same visit.cache visit.path
  have queues : (world.removeSubtree visit.cache visit.path).Queues before visit.fetch.refresh
      ([] ++ []) := (World.queues_removeSubtree world _ _).trans (World.queues_of_bare same)
  have ledger : (world.removeSubtree visit.cache visit.path).ledger = before.ledger :=
    (World.ledger_removeSubtree world _ _).trans (World.ledger_of_bare same)
  have ensemble : (world.removeSubtree visit.cache visit.path).ensemble = world.ensemble :=
    congrArg Connection.remote (World.connection_removeSubtree world visit.cache visit.path)
  unfold absent
  simp only
  rw [← ensemble] at given
  generalize world.removeSubtree visit.cache visit.path = dropped
    at removed queues ledger given ⊢
  cases found : dropped.caches[visit.cache]? with
  | none => exact ⟨[], queues⟩
  | some cache =>
      have base := World.basePath_of_ledger ledger visit.cache
      rw [found, Option.map_some] at base
      by_cases isOther : visit.path ≠ cache.options.basePath
      · simp only [if_pos isOther]
        exact ⟨[], queues⟩
      · simp only [if_neg isOther]
        cases answered : answering.stat dropped.ensemble visit.session visit.path with
        | mk answer ensemble =>
            have read : (dropped.setEnsemble ensemble).Queues dropped visit.fetch.refresh [] :=
              World.queues_of_bare rfl
            have kept := read.trans queues
            rcases answer with fault | _ | stat
            · refine ⟨given fault (congrArg Prod.fst answered), ?_, removed⟩
              exact base.symm.trans (congrArg some (not_not.mp isOther).symm)
            · exact ⟨_, kept⟩
            · obtain ⟨queued, spawned⟩ := World.queues_spawn (dropped.setEnsemble ensemble)
                { visit.fetch with full := true }
              exact ⟨_, spawned.trans kept⟩

/-- That the store forgets a visit does not show. -/
theorem Halts.leave {result : Stop × World} (halts : Halts before visit.fetch gives result) :
    Halts before visit.fetch gives (visit.leave result) := by
  obtain ⟨stop, after⟩ := result
  have forgotten := World.bare_updateStore after visit.cache
    (fun store => (rfl : (store.endFetch visit.epoch).bare = store.bare))
  cases stop with
  | waits => exact halts
  | done =>
      obtain ⟨queued, queues⟩ := halts
      exact ⟨queued ++ [], (World.queues_of_bare forgotten).trans queues⟩
  | refused failure => exact ⟨halts.1, forgotten.trans halts.2⟩
  | failed fault => exact ⟨halts.1, forgotten.trans halts.2⟩
  | unwatched fault => exact ⟨halts.1, halts.2.1, forgotten.trans halts.2.2⟩

theorem Runs.halts {result : Stop × World} (runs : answering.Runs world leg result) :
    Halts world leg.fetch (answering.Gives world leg) result := by
  cases runs with
  | unwanted => exact ⟨[], .of_same rfl rfl⟩
  | refused gives => exact ⟨gives, rfl⟩
  | @waits _ visit before _ _ ensemble begins =>
      have underway : answering.Underway world (.turn _) visit (before.setEnsemble ensemble) :=
        .read (.begins begins) ensemble
      exact ⟨_, begins.fetch_eq, _, underway.bare, rfl⟩
  | @faulty _ visit _ after faults isOther =>
      have halts : Halts world visit.fetch (answering.Gives world leg) (.failed _, after) :=
        ⟨.faulty faults isOther, faults.underway.bare⟩
      exact faults.underway.fetch_eq ▸ halts.leave
  | @unseen _ visit before _ ensemble begins noData wantsStat answered =>
      have gives := Gives.unseen begins noData wantsStat (congrArg Prod.fst answered)
      have underway : answering.Underway world (.turn _) visit before := .begins begins
      have halts : Halts world visit.fetch (answering.Gives world (.turn _))
          (.failed _, before.setEnsemble ensemble) := ⟨gives, underway.bare⟩
      exact underway.fetch_eq ▸ halts.leave
  | @absent _ visit after misses =>
      have halts : Halts world visit.fetch (answering.Gives world leg)
          (answering.absent after visit) :=
        halts_absent misses.underway.bare fun _ => .unwatched misses
      exact misses.underway.fetch_eq ▸ halts.leave
  | @complete _ visit stat data children _ collects =>
      have halts : Halts world visit.fetch (answering.Gives world leg) _ :=
        halts_complete collects.underway.bare visit stat data children
      exact collects.underway.fetch_eq ▸ halts.leave

end Answering

/-! ## The end of a fetch -/

namespace World

variable {world after base : World} {fetch : Fetch} {cache : Cache}

/-- The error listeners have been told of a failure, each of them once, and the refresh has counted
one fetch as done. Nothing waits that did not. -/
structure Reports (after before : World) (fetch : Fetch) (cache : Cache) (failure : Failure) :
    Prop where
  calls : after.calls = before.calls ++ cache.errorListeners.snapshot.map fun listener =>
    { label := listener.label, heard := .failure "Background fetch failed".toList failure
      failed := listener.fails }
  refreshes : after.refreshes = before.refreshes.modify fetch.refresh Refresh.lowered
  suspended : after.suspended = before.suspended

/-- The end of a fetch that fails tells and counts, and changes nothing else. -/
theorem reports_of_bare (found : world.caches[fetch.cache]? = some cache)
    (ledger : base.ledger = world.ledger) (suspended : base.suspended = world.suspended)
    (same : after.bare = base.bare) (failure : Failure) :
    let ended := (after.report fetch.cache "Background fetch failed" failure).countDown
      fetch.refresh
    ended.IsUntouched base ∧ ended.Reports world fetch cache failure := by
  intro ended
  have sameLedger : after.ledger = world.ledger := (ledger_of_bare same).trans ledger
  have address := address_of_ledger sameLedger fetch.cache
  rw [found, Option.map_some] at address
  obtain ⟨held, heldFound, isHeld⟩ := Option.map_eq_some_iff.mp address
  have listeners : held.errorListeners = cache.errorListeners := congrArg Prod.snd isHeld
  have quietly : ended.quiet = after.quiet := by simp [ended]
  refine ⟨?_, ?_, ?_, ?_⟩
  · have silent : ∀ id, ended.nodeEvents id = after.nodeEvents id := by
      intro id
      rw [nodeEvents_countDown]
      exact nodeEvents_of_journal (journal_report _ _ _)
    exact (isUntouched_of_quiet quietly silent).trans (isUntouched_of_bare same)
  · have told := calls_report heldFound "Background fetch failed" failure
    rw [listeners, calls_of_ledger sameLedger] at told
    exact (calls_countDown _ _).trans told
  · obtain ⟨calls, reported⟩ :=
      exists_report after fetch.cache "Background fetch failed" failure
    refine (refreshes_countDown _ _).trans ?_
    rw [reported, ← refreshes_of_ledger sameLedger]
  · have waiting := congrArg (fun world => world.suspended) quietly
    have before := congrArg (fun world => world.suspended) same
    exact (waiting.trans before).trans suspended

/-- Wherever a fetch is taken up, and whatever it is answered: if it ends in an error, which is the
answer to its request for a session or a fault of one of its reads, nothing is stored, removed, told
of nodes or queued; only where the base turned out to be missing, and just the read failed that
follows, has the base been removed with all below it. Each error listener is told once, and the
refresh counts down once, as it does for a fetch that is done. -/
theorem settle_all_or_nothing (answering : Answering) {world : World} {leg : Leg} {cache : Cache}
    (found : world.caches[leg.fetch.cache]? = some cache) :
    world.perform leg.task = leg.fetch.settle (Answering.ofEnsemble.run world leg) ∧
    let after := leg.fetch.settle (answering.run world leg)
    match (answering.run world leg).1 with
    | .refused failure =>
        answering.Gives world leg (.refused failure) ∧ after.IsUntouched world ∧
          after.Reports world leg.fetch cache failure
    | .failed fault =>
        answering.Gives world leg (.failed fault) ∧ after.IsUntouched world ∧
          after.Reports world leg.fetch cache (.fetchFailed leg.fetch.path fault)
    | .unwatched fault =>
        answering.Gives world leg (.unwatched fault) ∧
          leg.fetch.path = cache.options.basePath ∧
          after.IsUntouched (world.removeSubtree leg.fetch.cache cache.options.basePath) ∧
          after.Reports world leg.fetch cache (.fetchFailed leg.fetch.path fault)
    | .waits =>
        after.IsUntouched world ∧ after.calls = world.calls ∧ after.refreshes = world.refreshes ∧
          ∃ suspension : Suspension, suspension.visit.fetch = leg.fetch ∧
            after.suspended = world.suspended ++ [suspension]
    | .done =>
        after.calls = world.calls ∧ ∃ queued : List Fetch,
          after.queue.filterMap Task.fetch? = world.queue.filterMap Task.fetch? ++ queued ∧
          (∀ fetch ∈ queued, fetch.refresh = leg.fetch.refresh) ∧
          ∀ refresh, after.counted refresh = (world.counted refresh).map fun count =>
            count + if refresh = leg.fetch.refresh then (queued.length : Int) - 1 else 0 := by
  refine ⟨Answering.perform_eq_settle world leg, ?_⟩
  -- All that is left is what the end of the fetch adds to where its run stopped.
  have halts := (answering.runs_run world leg).halts
  generalize answering.run world leg = result at halts ⊢
  obtain ⟨stop, last⟩ := result
  cases stop with
  | refused failure =>
      obtain ⟨gives, same⟩ := halts
      exact ⟨gives, reports_of_bare found rfl rfl same failure⟩
  | failed fault =>
      obtain ⟨gives, same⟩ := halts
      exact ⟨gives, reports_of_bare found rfl rfl same _⟩
  | unwatched fault =>
      obtain ⟨gives, base, same⟩ := halts
      rw [found, Option.map_some] at base
      have isBase : cache.options.basePath = leg.fetch.path := Option.some.inj base
      have suspended := congrArg (fun world => world.suspended)
        (quiet_removeSubtree world leg.fetch.cache leg.fetch.path)
      rw [isBase]
      exact ⟨gives, rfl, reports_of_bare found (ledger_removeSubtree _ _ _) suspended same _⟩
  | waits =>
      obtain ⟨suspension, isOwn, held, same, rfl⟩ := halts
      have untouched := isUntouched_of_bare same
      refine ⟨⟨untouched.entries, untouched.nodeEvents, untouched.queue, untouched.deferred⟩,
        congrArg (fun world => world.calls) same, congrArg (fun world => world.refreshes) same,
        suspension, isOwn, ?_⟩
      exact congrArg (· ++ [suspension]) (congrArg (fun world => world.suspended) same)
  | done =>
      obtain ⟨queued, queues⟩ := halts
      have quietly := congrArg World.queue (quiet_countDown last leg.fetch.refresh)
      refine ⟨(calls_countDown last _).trans queues.calls, queued, ?_, queues.own, ?_⟩
      · rw [← queues.fetches, ← filterMap_fetch_quiet last.queue]
        exact (filterMap_fetch_quiet _).symm.trans (congrArg (List.filterMap Task.fetch?) quietly)
      · intro refresh
        refine (counted_countDown last leg.fetch.refresh refresh).trans ?_
        rw [queues.counts, Option.map_map]
        congr 1
        funext count
        by_cases isRefresh : refresh = leg.fetch.refresh
        · simp [isRefresh, Int.add_sub_assoc]
        · simp [isRefresh]

theorem settle_all_or_nothing_of_lost_list :
    let child : Path := ['/', 'a', '/', 'b']
    let commands : List Command :=
      [.startConnection, .announce .syncConnected, .create ['/', 'a'] [] 0, .create child [1] 0,
        .build ['/', 'a'] [], .onError 0 { label := ['e'] }, .start 0, .step, .step,
        .refresh 0 child]
    let answering : Answering :=
      { Answering.ofEnsemble with
        data := fun ensemble _ _ => (.ok ([2], { mzxid := 9 }), none, ensemble)
        children := fun ensemble _ _ => (.error .connectionLoss, ensemble) }
    let leg : Leg := .turn { cache := 0, refresh := 1, path := child, full := true }
    let reached := (ofConfig defaultConfig).obeyAll commands
    let world := { reached with queue := [] }
    let after := leg.fetch.settle (answering.run world leg)
    reached.queue.filterMap Task.fetch? = [leg.fetch] ∧ (world.cached 0 child).isSome ∧
      (answering.run world leg).1 = .failed .connectionLoss ∧ after.IsUntouched world ∧
      after.calls =
        [{ label := ['e']
           heard := .failure "Background fetch failed".toList (.fetchFailed child .connectionLoss)
           failed := false }] ∧
      world.counted 1 = some 1 ∧ after.counted 1 = some 0 := by
  intro child commands answering leg reached world after
  have queued : reached.queue.filterMap Task.fetch? = [leg.fetch] := by decide +kernel
  have live : (world.cached 0 child).isSome := by decide +kernel
  have waits : world.counted 1 = some 1 := by decide +kernel
  have stops : (answering.run world leg).1 = .failed .connectionLoss := by decide +kernel
  have addressed : (world.caches[leg.fetch.cache]?).map
      (fun cache => cache.errorListeners.snapshot) = some [{ label := ['e'] }] := by decide +kernel
  have silent : world.calls = [] := by decide +kernel
  have counts : after.counted 1 = some 0 := by decide +kernel
  have isChild : leg.fetch.path = child := rfl
  clear_value world leg answering
  obtain ⟨cache, found, listeners⟩ := Option.map_eq_some_iff.mp addressed
  have ends := (settle_all_or_nothing answering found).2
  simp only [stops] at ends
  obtain ⟨_, untouched, reports⟩ := ends
  refine ⟨queued, live, stops, untouched, ?_, waits, counts⟩
  rw [reports.calls, listeners, silent, isChild]
  rfl

end World

end WatchedTree
