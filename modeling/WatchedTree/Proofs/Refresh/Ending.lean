import WatchedTree.Proofs.Refresh.Tally

/-!
# How a refresh ends

The last fetch of a refresh that counts down ends it: the cache counts it, tells of it if it is to
be told, and the token is resolved. Whatever a fetch does before that, it tells of nodes only, and
neither fires a refresh nor touches a token.
-/
namespace WatchedTree

/-- The refresh once it has fired. -/
def Refresh.finished (refresh : Refresh) : Refresh :=
  { refresh with refresher := { refresh.refresher with count := 0, fired := true } }

namespace World

variable {world first second third : World} {running : Option RefreshId}
  {cleared : Option CacheId} {id : CacheId} {cache : Cache} {refresh : RefreshId} {given : Refresh}

/-! ## The last count -/

/-- Whether the token of a refresh was cancelled. -/
def isGivenUp (world : World) (given : Refresh) : Bool := given.channel.any world.isCancelled

/-- Whether listeners are told of the end of a refresh. -/
def announces (world : World) (given : Refresh) : Bool :=
  match world.caches[given.cache]? with
  | none => false
  | some cache =>
    !world.isGivenUp given && cache.options.sendRefreshEvents && !cache.isClosed

/-- What the end of a refresh does to a world. -/
structure Finishes (after before : World) (given : Refresh) : Prop where
  refreshes : after.refreshes = before.refreshes
  pending : after.pending.Perm before.pending
  counts : after.caches.map Cache.refreshCount =
    (before.caches.map Cache.refreshCount).modify given.cache (· + 1)
  channels : after.channels =
    match given.channel with
    | none => before.channels
    | some channel =>
      if before.isCancelled channel then before.channels
      else before.channels.modify channel (Channel.complete · (.ok ()))
  journal : ∀ id, after.journal id = before.journal id ++
    if id = given.cache ∧ before.announces given = true then [.refreshed given.refresher.path]
    else []

theorem counts_refreshed (found : world.caches[id]? = some cache) :
    ((world.setCache id { cache with refreshCount := cache.refreshCount + 1 }).caches.map
      Cache.refreshCount) = (world.caches.map Cache.refreshCount).modify id (· + 1) := by
  rw [setCache, List.map_set]
  apply List.ext_getElem?
  intro index
  rw [List.getElem?_set, List.getElem?_modify, List.getElem?_map]
  obtain ⟨inRange, isCache⟩ := List.getElem?_eq_some_iff.mp found
  by_cases isId : id = index
  · subst isId
    simp [inRange, isCache]
  · simp [isId]

theorem refreshed_spec (found : world.caches[id]? = some cache) (path : Path) (cancelled : Bool) :
    let after := world.refreshed id path cancelled
    after.refreshes = world.refreshes ∧ after.channels = world.channels ∧
      after.pending.Perm world.pending ∧
      after.caches.map Cache.refreshCount =
        (world.caches.map Cache.refreshCount).modify id (· + 1) ∧
      ∀ other, after.journal other = world.journal other ++
        if other = id ∧
            (!cancelled && cache.options.sendRefreshEvents && !cache.isClosed) = true then
          [.refreshed path]
        else [] := by
  intro after
  have counts := counts_refreshed found
  have inPlace := getElem?_setCache found
    { cache with refreshCount := cache.refreshCount + 1 }
  have journal : ∀ other, (world.setCache id
      { cache with refreshCount := cache.refreshCount + 1 }).journal other =
        world.journal other := fun _ => journal_setCache_of_feed found rfl
  have isAfter : after = world.refreshed id path cancelled := rfl
  clear_value after
  unfold refreshed at isAfter
  simp only [found] at isAfter
  split at isAfter
  next told =>
    subst isAfter
    have books := sameBooks_dispatch (world.setCache id
      { cache with refreshCount := cache.refreshCount + 1 }) id (.refreshed path)
    refine ⟨books.refreshes, books.channels, books.pending, books.counts.trans counts, ?_⟩
    intro other
    rw [journal_dispatch inPlace, journal]
    by_cases isId : other = id
    · simp [isId, told]
    · simp [isId]
  next silent =>
    subst isAfter
    refine ⟨rfl, rfl, .refl _, counts, ?_⟩
    intro other
    rw [journal, if_neg fun both => silent both.2, List.append_nil]

theorem finishes_finish (found : world.caches[given.cache]? = some cache) :
    (world.finish given).Finishes world given := by
  have announced : world.announces given =
      (!world.isGivenUp given && cache.options.sendRefreshEvents && !cache.isClosed) := by
    rw [announces, found]
  have told := refreshed_spec found given.refresher.path (world.isGivenUp given)
  simp only at told
  rw [← announced] at told
  obtain ⟨refreshes, channels, pending, counts, journal⟩ := told
  unfold finish
  cases isChannel : given.channel with
  | none =>
      have free : world.isGivenUp given = false := by rw [isGivenUp, isChannel]; rfl
      rw [free] at refreshes channels pending counts journal
      exact
        { refreshes, pending, counts, journal
          channels := by rw [isChannel]; exact channels }
  | some channel =>
      have same : world.isGivenUp given = world.isCancelled channel := by
        rw [isGivenUp, isChannel]
        rfl
      rw [same] at refreshes channels pending counts journal
      simp only
      cases isCancelled : world.isCancelled channel with
      | true =>
          rw [isCancelled] at refreshes channels pending counts journal
          simp only [if_true]
          exact
            { refreshes, pending, counts, journal
              channels := by simpa [isChannel, isCancelled] using channels }
      | false =>
          rw [isCancelled] at refreshes channels pending counts journal
          simp only [Bool.false_eq_true, if_false]
          exact
            { refreshes, pending, counts, journal
              channels := by simp [isChannel, isCancelled, updateChannel, channels] }

/-- What the running refresh does when its fetch counts down. -/
theorem countDown_of_running (tally : world.Tally (some refresh)) :
    ∃ given, world.refreshes[refresh]? = some given ∧ given.refresher.fired = false ∧
      world.countDown refresh =
        if world.outstanding refresh = 0 then
          ({ world with refreshes := world.refreshes.set refresh given.finished } : World).finish
            given
        else
          { world with
            refreshes :=
              world.refreshes.set refresh (given.counting (world.outstanding refresh)) } := by
  obtain ⟨given, found, unfired, count⟩ := tally.of_running
  refine ⟨given, found, unfired, ?_⟩
  unfold countDown Refresh.finished Refresh.counting
  simp only [found, Refresher.decrement, unfired, count]
  by_cases last : world.outstanding refresh = 0
  · simp [last]
  · have more : ¬ (world.outstanding refresh : Int) + 1 - 1 ≤ 0 := by omega
    simp [last]

/-! ## The tally at the end of a fetch -/

theorem tally_of_popped {task : Task} {tasks : List Task} (tally : world.Tally none)
    (queue : world.queue = task :: tasks) (isFor : task.refresh? = some refresh) :
    ({ world with queue := tasks } : World).Tally (some refresh) := by
  have pending : world.pending = refresh :: ({ world with queue := tasks } : World).pending := by
    rw [pending_popped queue, isFor]
    rfl
  refine ⟨?_, ?_, tally.owned, tally.ended⟩
  · intro other given found
    have active : world.active none other =
        ({ world with queue := tasks } : World).active (some refresh) other := by
      rw [active, active, outstanding, outstanding, pending, List.count_cons]
      simp
    rw [← active]
    exact tally.counts other given found
  · intro other member
    apply tally.known
    rw [pending]
    exact member

theorem tally_of_suspended (tally : world.Tally (some refresh)) {suspension : Suspension}
    (isOwn : suspension.visit.fetch.refresh = refresh) :
    ({ world with suspended := world.suspended ++ [suspension] } : World).Tally none := by
  have pending : ({ world with suspended := world.suspended ++ [suspension] } : World).pending =
      world.pending ++ [refresh] := by
    simp [World.pending, isOwn]
  refine ⟨?_, ?_, tally.owned, tally.ended⟩
  · intro other given found
    have active : ({ world with suspended := world.suspended ++ [suspension] } : World).active
        none other = world.active (some refresh) other := by
      rw [active, active, outstanding, outstanding, pending, List.count_append]
      simp [List.count_cons]
    rw [active]
    exact tally.counts other given found
  · intro other member
    apply tally.known
    rw [pending] at member
    simpa [or_comm] using member

/-- Who has fired is counted with its cache. -/
theorem ended_of_set (found : first.refreshes[refresh]? = some given)
    (unfired : given.refresher.fired = false) {later : Refresh}
    (isLater : later.cache = given.cache)
    (refreshes : second.refreshes = first.refreshes.set refresh later) (id : CacheId) :
    second.ended id =
      first.ended id + if later.refresher.fired = true ∧ given.cache = id then 1 else 0 := by
  obtain ⟨inRange, isGiven⟩ := List.getElem?_eq_some_iff.mp found
  rw [World.ended, refreshes, List.countP_set inRange, isGiven, unfired, isLater, World.ended]
  simp [and_comm]

/-- The refresh that was running waits for the others only. -/
theorem tally_of_counted (tally : first.Tally (some refresh))
    (found : first.refreshes[refresh]? = some given) (unfired : given.refresher.fired = false)
    (later : Refresh) (isLater : later.cache = given.cache)
    (count : later.refresher.count = first.outstanding refresh)
    (fired : later.refresher.fired = true ↔ first.outstanding refresh = 0)
    (refreshes : second.refreshes = first.refreshes.set refresh later)
    (pending : second.pending.Perm first.pending)
    (counts : second.caches.map Cache.refreshCount =
      if later.refresher.fired then
        (first.caches.map Cache.refreshCount).modify given.cache (· + 1)
      else first.caches.map Cache.refreshCount) : second.Tally none := by
  have inRange := (List.getElem?_eq_some_iff.mp found).1
  have outstanding : second.outstanding = first.outstanding := by
    funext other
    rw [World.outstanding, World.outstanding, pending.count_eq]
  have size : second.caches.length = first.caches.length := by
    have same := congrArg List.length counts
    split at same
    · rwa [List.length_map, List.length_modify, List.length_map] at same
    · rwa [List.length_map, List.length_map] at same
  refine ⟨?_, ?_, ?_, ?_⟩
  · intro other held heldFound
    rw [refreshes, List.getElem?_set] at heldFound
    rw [active, outstanding]
    by_cases isOther : refresh = other
    · subst isOther
      simp only [inRange, if_true, Option.some.injEq] at heldFound
      subst heldFound
      exact ⟨by simp [count], by simp [fired]⟩
    · rw [if_neg isOther] at heldFound
      have counted := tally.counts other held heldFound
      rw [active] at counted
      simpa [isOther] using counted
  · intro other member
    rw [refreshes, List.length_set]
    apply tally.known
    have isPending : other ∈ second.pending := by simpa using member
    exact List.mem_append_right _ (pending.mem_iff.mp isPending)
  · intro held member
    rw [size]
    rw [refreshes] at member
    rcases List.mem_or_eq_of_mem_set member with isOld | isNew
    · exact tally.owned held isOld
    · rw [isNew, isLater]
      exact tally.owned given (List.mem_of_getElem? found)
  · intro id total inPlace
    rw [ended_of_set found unfired isLater refreshes]
    rw [counts] at inPlace
    cases isFired : later.refresher.fired with
    | false =>
        rw [isFired] at inPlace
        simpa using tally.ended id total inPlace
    | true =>
        rw [isFired, if_pos rfl, List.getElem?_modify] at inPlace
        obtain ⟨old, oldFound, isTotal⟩ := Option.map_eq_some_iff.mp inPlace
        have before := tally.ended id old oldFound
        subst isTotal
        by_cases isCache : given.cache = id
        · simp [isCache, before]
        · simp [isCache, before]

/-- What the end of its last fetch, and of any other, makes of a refresh. -/
inductive CountsDown (world : World) (refresh : RefreshId) (after : World) : Prop where
  | waits (given : Refresh) (found : world.refreshes[refresh]? = some given)
      (unfired : given.refresher.fired = false) (more : world.outstanding refresh ≠ 0)
      (isAfter : after = { world with
        refreshes :=
          world.refreshes.set refresh (given.counting (world.outstanding refresh)) })
  | fires (given : Refresh) (found : world.refreshes[refresh]? = some given)
      (unfired : given.refresher.fired = false) (last : world.outstanding refresh = 0)
      (finishes : after.Finishes
        { world with refreshes := world.refreshes.set refresh given.finished } given)

theorem Tally.countsDown (tally : world.Tally (some refresh)) :
    world.CountsDown refresh (world.countDown refresh) := by
  obtain ⟨given, found, unfired, counted⟩ := countDown_of_running tally
  rw [counted]
  by_cases last : world.outstanding refresh = 0
  · rw [if_pos last]
    have owned := tally.owned given (List.mem_of_getElem? found)
    exact .fires given found unfired last (finishes_finish (List.getElem?_eq_getElem owned))
  · rw [if_neg last]
    exact .waits given found unfired last rfl

theorem CountsDown.tally (counts : first.CountsDown refresh second)
    (tally : first.Tally (some refresh)) : second.Tally none := by
  cases counts with
  | waits given found unfired more isAfter =>
      subst isAfter
      refine tally_of_counted tally found unfired (given.counting (first.outstanding refresh)) rfl
        rfl ?_ rfl (.refl _) ?_
      · simp [Refresh.counting, unfired, more]
      · simp [Refresh.counting, unfired]
  | fires given found unfired last finishes =>
      refine tally_of_counted tally found unfired given.finished rfl ?_ ?_ finishes.refreshes
        finishes.pending ?_
      · rw [last]
        rfl
      · simp [Refresh.finished, last]
      · simpa [Refresh.finished] using finishes.counts

/-! ## What goes on before -/

/-- The later world has told some more events of nodes, and of nothing else. -/
def TellsOfNodes (after before : World) (id : CacheId) : Prop :=
  ∃ told, after.journal id = before.journal id ++ told ∧
    ∀ event ∈ told, event.node?.isSome = true

theorem TellsOfNodes.of_same (same : second.journal id = first.journal id) :
    second.TellsOfNodes first id := by
  refine ⟨[], ?_, fun _ member => absurd member List.not_mem_nil⟩
  rw [same, List.append_nil]

theorem TellsOfNodes.trans (left : second.TellsOfNodes first id)
    (right : third.TellsOfNodes second id) : third.TellsOfNodes first id := by
  obtain ⟨earlier, isEarlier, earlierNodes⟩ := left
  obtain ⟨later, isLater, laterNodes⟩ := right
  refine ⟨earlier ++ later, ?_, ?_⟩
  · rw [isLater, isEarlier, List.append_assoc]
  · intro event member
    exact (List.mem_append.mp member).elim (earlierNodes event) (laterNodes event)

theorem tellsOfNodes_dispatchAll {other : CacheId} (found : world.caches[other]? = some cache)
    {events : List CacheEvent} (nodes : ∀ event ∈ events, event.node?.isSome = true)
    (id : CacheId) : (world.dispatchAll other events).TellsOfNodes world id := by
  by_cases isId : id = other
  · subst isId
    exact ⟨events, journal_dispatchAll found events, nodes⟩
  · exact .of_same (journal_dispatchAll_of_ne found isId events)

/-- What deeds leave as it is: what has fired, whose refresh it is, what was told; while a fetch
runs, also the other refreshes, the channels, and the phases of caches. -/
structure Proceeds (after before : World) (running : Option RefreshId) : Prop where
  kept : ∀ (refresh : RefreshId) (given : Refresh), before.refreshes[refresh]? = some given →
    ∃ count, after.refreshes[refresh]? = some (given.counting count) ∧
      (running ≠ some refresh → count = given.refresher.count)
  fresh : ∀ (refresh : RefreshId) (given : Refresh), after.refreshes[refresh]? = some given →
    before.refreshes[refresh]? = none → given.refresher.fired = false
  journal : ∀ id : CacheId, after.TellsOfNodes before id
  standing : ∀ (id : CacheId) (cache : Cache), before.caches[id]? = some cache →
    ∃ later, after.caches[id]? = some later ∧ Stays later cache running
  channels : running ≠ none → after.channels = before.channels

theorem Proceeds.trans (left : second.Proceeds first running)
    (right : third.Proceeds second running) : third.Proceeds first running where
  kept := by
    intro refresh given found
    obtain ⟨middle, middleFound, sameMiddle⟩ := left.kept refresh given found
    obtain ⟨count, lastFound, same⟩ := right.kept refresh _ middleFound
    exact ⟨count, lastFound, fun other => (same other).trans (sameMiddle other)⟩
  fresh := by
    intro refresh given found new
    cases middle : second.refreshes[refresh]? with
    | none => exact right.fresh refresh given found middle
    | some held =>
        obtain ⟨count, lastFound, _⟩ := right.kept refresh held middle
        rw [found] at lastFound
        cases lastFound
        exact left.fresh refresh held middle new
  journal := fun id => (left.journal id).trans (right.journal id)
  standing := by
    intro id cache found
    obtain ⟨middle, middleFound, earlier⟩ := left.standing id cache found
    obtain ⟨last, lastFound, later⟩ := right.standing id middle middleFound
    exact ⟨last, lastFound, earlier.trans later⟩
  channels := fun runs => (right.channels runs).trans (left.channels runs)

theorem Booking.kept (booking : first.Booking running second)
    (found : first.refreshes[refresh]? = some given) :
    ∃ count, second.refreshes[refresh]? = some (given.counting count) ∧
      (running ≠ some refresh → count = given.refresher.count) := by
  cases booking with
  | same books =>
      refine ⟨given.refresher.count, ?_, fun _ => rfl⟩
      rw [books.refreshes]
      exact found
  | @raise own _ refreshes _ _ _ =>
      rw [refreshes, List.getElem?_modify, found]
      by_cases isOwn : own = refresh
      · refine ⟨given.refresher.count + 1, ?_, fun other => absurd (congrArg some isOwn) other⟩
        simp [isOwn, Refresh.raised, Refresh.counting]
      · refine ⟨given.refresher.count, ?_, fun _ => rfl⟩
        simp [isOwn, Refresh.counting]
  | opens _ _ _ refreshes =>
      refine ⟨given.refresher.count, ?_, fun _ => rfl⟩
      rw [refreshes, List.getElem?_append_left (List.getElem?_eq_some_iff.mp found).1]
      exact found
  | settle => exact ⟨given.refresher.count, found, fun _ => rfl⟩
  | build => exact ⟨given.refresher.count, found, fun _ => rfl⟩

theorem Booking.fresh (booking : first.Booking running second)
    (found : second.refreshes[refresh]? = some given)
    (new : first.refreshes[refresh]? = none) : given.refresher.fired = false := by
  cases booking with
  | same books =>
      rw [books.refreshes, new] at found
      cases found
  | raise refreshes =>
      rw [refreshes, List.getElem?_modify, new] at found
      cases found
  | opens fired _ _ refreshes =>
      rw [refreshes] at found
      rcases getElem?_concat_cases found with isOld | ⟨_, rfl⟩
      · rw [new] at isOld
        cases isOld
      · exact fired
  | settle | build =>
      have old : first.refreshes[refresh]? = some given := found
      rw [new] at old
      cases old

theorem Deed.tellsOfNodes (deed : first.Deed running cleared second) (tally : first.Tally running)
    (id : CacheId) : second.TellsOfNodes first id := by
  cases deed with
  | pass caches => exact .of_same (journal_of_caches caches id)
  | tend found tended => exact .of_same (journal_setCache_of_journal found tended.journal)
  | keep found _ => exact .of_same (journal_setCache_of_feed found rfl)
  | clear found cleared => exact .of_same (journal_setCache_of_journal found cleared.journal)
  | @remove _ _ other cache found paths =>
      have feed := congrArg Cache.feed (Cache.removeSubtrees_eq cache first.now paths)
      have dropped : (first.setCache other
          (Cache.removeSubtrees first.now paths cache).2).TellsOfNodes first id :=
        .of_same (journal_setCache_of_feed found feed)
      exact dropped.trans (tellsOfNodes_dispatchAll (getElem?_setCache found _)
        (fun _ member => Cache.node_of_mem_removeSubtrees member) id)
  | spawn fetch =>
      rcases spawn_of_running tally rfl with refused | queued
      · exact .of_same (by rw [refused])
      · exact .of_same (by rw [queued]; rfl)
  | launch found isStarted path full =>
      rw [launch_eq found isStarted]
      exact .of_same rfl
  | @request _ other cache found isStarted path full =>
      have stillFound : (first.addChannel {}).2.caches[other]? = some cache := found
      rw [launch_eq stillFound isStarted]
      exact .of_same rfl
  | settle => exact .of_same rfl
  | build options => exact .of_same (journal_build options)

theorem Commits.tellsOfNodes (commits : first.Commits second) (id : CacheId) :
    second.TellsOfNodes first id := by
  rcases commits with rfl | ⟨other, cache, node, epoch, found, rfl⟩
  · exact .of_same rfl
  · have feed : (cache.commit first.now node epoch).2.feed = cache.feed := by
      unfold Cache.commit
      split <;> rfl
    have stored : (first.setCache other (cache.commit first.now node epoch).2).TellsOfNodes
        first id := .of_same (journal_setCache_of_feed found feed)
    exact stored.trans (tellsOfNodes_dispatchAll (getElem?_setCache found _)
      (fun _ member => Cache.node_of_mem_commit member) id)

/-! ### Whole courses -/

theorem Deed.proceeds (deed : first.Deed running cleared second) (tally : first.Tally running) :
    second.Proceeds first running where
  kept := fun _ _ found => (deed.booking tally).kept found
  fresh := fun _ _ found new => (deed.booking tally).fresh found new
  journal := deed.tellsOfNodes tally
  standing := fun _ _ found => deed.stays found
  channels := by
    intro runs
    cases deed.booking tally with
    | same books => exact books.channels
    | raise _ channels => exact channels
    | opens | settle | build => exact absurd rfl runs

theorem Proceeds.of_same (caches : second.caches = first.caches)
    (refreshes : second.refreshes = first.refreshes)
    (channels : running ≠ none → second.channels = first.channels) :
    second.Proceeds first running where
  kept := fun _ given found => ⟨given.refresher.count, refreshes ▸ found, fun _ => rfl⟩
  fresh := by
    intro refresh given found new
    rw [refreshes, new] at found
    cases found
  journal := fun id => .of_same (journal_of_caches caches id)
  standing := fun _ cache found => ⟨cache, caches ▸ found, .of_phase rfl rfl running⟩
  channels := channels

theorem Deeds.proceeds (deeds : first.Deeds running cleared second)
    (tally : first.Tally running) : second.Proceeds first running := by
  induction deeds with
  | refl => exact .of_same rfl rfl fun _ => rfl
  | tail earlier deed inductionHypothesis =>
      exact inductionHypothesis.trans (deed.proceeds (Deeds.tally earlier tally))

theorem Commits.proceeds (commits : first.Commits second) :
    second.Proceeds first running where
  kept := by
    intro refresh given found
    rw [commits.sameBooks.refreshes]
    exact ⟨given.refresher.count, found, fun _ => rfl⟩
  fresh := by
    intro refresh given found new
    rw [commits.sameBooks.refreshes, new] at found
    cases found
  journal := commits.tellsOfNodes
  standing := fun _ _ found => commits.stays found
  channels := fun _ => commits.sameBooks.channels

/-- While a fetch runs, the tally holds with it, and nothing is fired. -/
theorem Course.proceeds (course : first.Course refresh second)
    (tally : first.Tally (some refresh)) :
    second.Tally (some refresh) ∧ second.Proceeds first (some refresh) := by
  obtain ⟨before, after, earlier, _, commits, later⟩ := course
  have beforeTally := earlier.tally tally
  have afterTally := commits.sameBooks.tally beforeTally
  exact ⟨later.tally afterTally,
    ((earlier.proceeds tally).trans commits.proceeds).trans (later.proceeds afterTally)⟩

end World

end WatchedTree
