import WatchedTree.Proofs.Refresh.Ending

/-!
# Every refresh ends once

Between any two incidents the count of a refresh is the number of its fetches that are still to be
done, and it has fired exactly if there are none. The step that ends its last fetch fires it, tells
of it last, and nothing else ever does.
-/
namespace WatchedTree

namespace World

variable {world first second third : World} {running : Option RefreshId} {id : CacheId}
  {cache : Cache} {refresh : RefreshId} {given : Refresh} {token : ChannelId}

/-! ## Tokens of refreshes under way -/

/-- Every token stands for one refresh, and nothing was sent to it before that has fired. -/
structure Pledged (world : World) : Prop where
  known : ∀ (refresh : RefreshId) (given : Refresh) (token : ChannelId),
    world.refreshes[refresh]? = some given → given.channel = some token →
      token < world.channels.length
  own : ∀ (refresh other : RefreshId) (given held : Refresh) (token : ChannelId),
    world.refreshes[refresh]? = some given → world.refreshes[other]? = some held →
      given.channel = some token → held.channel = some token → refresh = other
  waiting : ∀ (refresh : RefreshId) (given : Refresh) (token : ChannelId),
    world.refreshes[refresh]? = some given → given.refresher.fired = false →
      given.channel = some token →
        ∃ channel, world.channels[token]? = some channel ∧ channel.slot = .waiting

/-- The refreshes of the later world are those of the earlier one, with their tokens, and what has
fired has fired. -/
def Carries (after before : World) : Prop :=
  ∀ (refresh : RefreshId) (later : Refresh), after.refreshes[refresh]? = some later →
    ∃ given, before.refreshes[refresh]? = some given ∧ later.channel = given.channel ∧
      (later.refresher.fired = false → given.refresher.fired = false)

theorem carries_of_same (same : second.refreshes = first.refreshes) : second.Carries first :=
  fun _ later found => ⟨later, same ▸ found, rfl, fun unfired => unfired⟩

theorem carries_set (found : first.refreshes[refresh]? = some given) (later : Refresh)
    (channel : later.channel = given.channel) (unfired : given.refresher.fired = false)
    (refreshes : second.refreshes = first.refreshes.set refresh later) :
    second.Carries first := by
  intro other held heldFound
  rw [refreshes, List.getElem?_set] at heldFound
  by_cases isOther : refresh = other
  · subst isOther
    obtain ⟨inRange, _⟩ := List.getElem?_eq_some_iff.mp found
    simp only [inRange, if_true, Option.some.injEq] at heldFound
    subst heldFound
    exact ⟨given, found, channel, fun _ => unfired⟩
  · rw [if_neg isOther] at heldFound
    exact ⟨held, heldFound, rfl, fun unfired => unfired⟩

theorem Pledged.carried (pledged : first.Pledged) (carries : second.Carries first)
    (longer : first.channels.length ≤ second.channels.length)
    (waits : ∀ (refresh : RefreshId) (later : Refresh) (token : ChannelId) (channel : Channel),
      second.refreshes[refresh]? = some later → later.refresher.fired = false →
        later.channel = some token → first.channels[token]? = some channel →
          channel.slot = .waiting →
            ∃ other, second.channels[token]? = some other ∧ other.slot = .waiting) :
    second.Pledged where
  known := by
    intro refresh later token found isToken
    obtain ⟨given, givenFound, channel, _⟩ := carries refresh later found
    exact Nat.lt_of_lt_of_le
      (pledged.known refresh given token givenFound (channel ▸ isToken)) longer
  own := by
    intro refresh other later held token found heldFound isToken isHeld
    obtain ⟨given, givenFound, channel, _⟩ := carries refresh later found
    obtain ⟨old, oldFound, oldChannel, _⟩ := carries other held heldFound
    exact pledged.own refresh other given old token givenFound oldFound (channel ▸ isToken)
      (oldChannel ▸ isHeld)
  waiting := by
    intro refresh later token found unfired isToken
    obtain ⟨given, givenFound, channel, before⟩ := carries refresh later found
    obtain ⟨channel, channelFound, isWaiting⟩ :=
      pledged.waiting refresh given token givenFound (before unfired) (channel ▸ isToken)
    exact waits refresh later token channel found unfired isToken channelFound isWaiting

theorem length_channels_le (kept : ∀ (token : ChannelId) (channel : Channel),
    first.channels[token]? = some channel → second.channels[token]? = some channel) :
    first.channels.length ≤ second.channels.length := by
  by_contra shorter
  have inRange := Nat.lt_of_not_le shorter
  have present := kept _ _ (List.getElem?_eq_getElem inRange)
  rw [List.getElem?_eq_none (Nat.le_refl _)] at present
  cases present

theorem Pledged.of_channels (pledged : first.Pledged) (carries : second.Carries first)
    (kept : ∀ (token : ChannelId) (channel : Channel), first.channels[token]? = some channel →
      second.channels[token]? = some channel) : second.Pledged :=
  pledged.carried carries (length_channels_le kept)
    fun _ _ token channel _ _ _ found waiting => ⟨channel, kept token channel found, waiting⟩

/-- A booking leaves the channels that there are as they are. -/
theorem Booking.channel (booking : first.Booking running second) {channel : Channel}
    (found : first.channels[token]? = some channel) :
    second.channels[token]? = some channel := by
  have inRange := (List.getElem?_eq_some_iff.mp found).1
  cases booking with
  | same books => exact books.channels ▸ found
  | raise _ channels _ _ => exact channels ▸ found
  | settle outcome => exact (List.getElem?_append_left inRange).trans found
  | build => exact found
  | opens _ _ _ _ channels =>
      rcases channels with ⟨_, same⟩ | ⟨_, more⟩
      · exact same ▸ found
      · rw [more, List.getElem?_append_left inRange]
        exact found

/-- The token of a new refresh, if it has one, is new, and nothing was sent to it. -/
theorem token_of_opens
    (channels : given.channel = none ∧ second.channels = first.channels ∨
      given.channel = some first.channels.length ∧
        second.channels = first.channels ++ [{ slot := .waiting }])
    (isToken : given.channel = some token) :
    token = first.channels.length ∧ second.channels[token]? = some { slot := .waiting } := by
  rcases channels with ⟨none, _⟩ | ⟨isLast, more⟩
  · rw [none] at isToken
    cases isToken
  · rw [isLast] at isToken
    cases isToken
    exact ⟨rfl, by simp [more]⟩

theorem pledged_of_opens (pledged : first.Pledged)
    (refreshes : second.refreshes = first.refreshes ++ [given])
    (channels : given.channel = none ∧ second.channels = first.channels ∨
      given.channel = some first.channels.length ∧
        second.channels = first.channels ++ [{ slot := .waiting }])
    (kept : ∀ (token : ChannelId) (channel : Channel), first.channels[token]? = some channel →
      second.channels[token]? = some channel) : second.Pledged := by
  have old : ∀ (refresh : RefreshId) (held : Refresh) (token : ChannelId),
      first.refreshes[refresh]? = some held → held.channel = some token →
        given.channel ≠ some token := by
    intro refresh held token found isToken isFresh
    have known := pledged.known refresh held token found isToken
    rw [(token_of_opens channels isFresh).1] at known
    exact Nat.lt_irrefl _ known
  refine ⟨?_, ?_, ?_⟩
  · intro refresh held token found isToken
    rw [refreshes] at found
    rcases getElem?_concat_cases found with isOld | ⟨_, rfl⟩
    · have known := pledged.known refresh held token isOld isToken
      exact Nat.lt_of_lt_of_le known (length_channels_le kept)
    · exact (List.getElem?_eq_some_iff.mp (token_of_opens channels isToken).2).1
  · intro refresh other left right token leftFound rightFound isLeft isRight
    rw [refreshes] at leftFound rightFound
    rcases getElem?_concat_cases leftFound with leftOld | ⟨leftNew, rfl⟩
    · rcases getElem?_concat_cases rightFound with rightOld | ⟨rightNew, rfl⟩
      · exact pledged.own refresh other left right token leftOld rightOld isLeft isRight
      · exact absurd isRight (old refresh left token leftOld isLeft)
    · rcases getElem?_concat_cases rightFound with rightOld | ⟨rightNew, _⟩
      · exact absurd isLeft (old other right token rightOld isRight)
      · rw [leftNew, rightNew]
  · intro refresh held token found unfired isToken
    rw [refreshes] at found
    rcases getElem?_concat_cases found with isOld | ⟨_, rfl⟩
    · obtain ⟨channel, channelFound, isWaiting⟩ :=
        pledged.waiting refresh held token isOld unfired isToken
      exact ⟨channel, kept token channel channelFound, isWaiting⟩
    · exact ⟨_, (token_of_opens channels isToken).2, rfl⟩

theorem Booking.pledged (booking : first.Booking running second) (pledged : first.Pledged) :
    second.Pledged := by
  have kept : ∀ (token : ChannelId) (channel : Channel), first.channels[token]? = some channel →
      second.channels[token]? = some channel := fun _ _ found => booking.channel found
  cases booking with
  | same books => exact pledged.of_channels (carries_of_same books.refreshes) kept
  | raise refreshes _ _ _ =>
      refine pledged.of_channels ?_ kept
      intro other later found
      rw [refreshes, List.getElem?_modify] at found
      obtain ⟨old, oldFound, isLater⟩ := Option.map_eq_some_iff.mp found
      subst isLater
      split
      · exact ⟨old, oldFound, rfl, fun unfired => unfired⟩
      · exact ⟨old, oldFound, rfl, fun unfired => unfired⟩
  | settle => exact pledged.of_channels (carries_of_same rfl) kept
  | build => exact pledged.of_channels (carries_of_same rfl) kept
  | opens _ _ _ refreshes channels => exact pledged_of_opens pledged refreshes channels kept

theorem Deeds.pledged {cleared : Option CacheId} (deeds : first.Deeds running cleared second)
    (tally : first.Tally running) (pledged : first.Pledged) : second.Pledged := by
  induction deeds with
  | refl => exact pledged
  | tail earlier deed inductionHypothesis =>
      exact (deed.booking (Deeds.tally earlier tally)).pledged inductionHypothesis

theorem Deeds.channel {cleared : Option CacheId} (deeds : first.Deeds running cleared second)
    (tally : first.Tally running) {channel : Channel}
    (found : first.channels[token]? = some channel) :
    second.channels[token]? = some channel := by
  induction deeds with
  | refl => exact found
  | tail earlier deed inductionHypothesis =>
      exact (deed.booking (Deeds.tally earlier tally)).channel inductionHypothesis

theorem Course.pledged (course : first.Course refresh second)
    (tally : first.Tally (some refresh)) (pledged : first.Pledged) : second.Pledged := by
  obtain ⟨before, after, earlier, _, commits, later⟩ := course
  have beforeTally := earlier.tally tally
  have afterTally := commits.sameBooks.tally beforeTally
  have middle : after.Pledged := by
    have booking : before.Booking (some refresh) after := .same commits.sameBooks
    exact booking.pledged (earlier.pledged tally pledged)
  exact later.pledged afterTally middle

theorem Finishes.channel_of_other (finishes : second.Finishes first given)
    (different : given.channel ≠ some token) :
    second.channels[token]? = first.channels[token]? := by
  rw [finishes.channels]
  split
  · rfl
  next completed isCompleted =>
    have apart : completed ≠ token := fun same => different (same ▸ isCompleted)
    split
    · rfl
    · simp [apart]

/-- A channel is completed only for the refresh that has fired. -/
theorem CountsDown.pledged (counts : first.CountsDown refresh second) (pledged : first.Pledged) :
    second.Pledged := by
  cases counts with
  | waits given found unfired more isAfter =>
      subst isAfter
      exact pledged.of_channels
        (carries_set found (given.counting (first.outstanding refresh)) rfl unfired rfl)
        fun _ _ found => found
  | fires given found unfired last finishes =>
      have carries : second.Carries first :=
        carries_set found given.finished rfl unfired finishes.refreshes
      have fired : ∀ later, second.refreshes[refresh]? = some later →
          later.refresher.fired = true := by
        intro later laterFound
        rw [finishes.refreshes,
          List.getElem?_set_self (List.getElem?_eq_some_iff.mp found).1] at laterFound
        cases laterFound
        rfl
      have channels := finishes.channels
      have longer : first.channels.length ≤ second.channels.length := by
        rw [channels]
        split
        · exact Nat.le_refl _
        · split
          · exact Nat.le_refl _
          · rw [List.length_modify]
      refine pledged.carried carries longer ?_
      intro other later token channel laterFound stillOpen isToken channelFound isWaiting
      refine ⟨channel, ?_, isWaiting⟩
      have different : given.channel ≠ some token := by
        intro same
        obtain ⟨held, heldFound, heldChannel, _⟩ := carries other later laterFound
        have isOther := pledged.own refresh other given held token found heldFound same
          (heldChannel ▸ isToken)
        subst isOther
        rw [fired later laterFound] at stillOpen
        cases stillOpen
      exact (finishes.channel_of_other different).trans channelFound

theorem slot_read_of_waiting {channel : Channel} (waiting : channel.slot = .waiting) :
    channel.read.2 = channel := by
  unfold Channel.read
  rw [waiting]
  split <;> rfl

theorem pledged_readToken (pledged : world.Pledged) (token : ChannelId) :
    (world.readToken token).2.Pledged := by
  unfold readToken
  cases found : world.channels[token]? with
  | none => exact pledged
  | some channel =>
      refine pledged.carried (carries_of_same rfl) (by simp) ?_
      intro _ _ other held _ _ _ heldFound isWaiting
      refine ⟨held, ?_, isWaiting⟩
      by_cases isOther : token = other
      · subst isOther
        rw [found] at heldFound
        cases heldFound
        simp only
        rw [slot_read_of_waiting isWaiting,
          List.getElem?_set_self (List.getElem?_eq_some_iff.mp found).1]
      · simp only
        rw [List.getElem?_set_ne isOther]
        exact heldFound

theorem pledged_cancelToken (pledged : world.Pledged) (token : ChannelId) :
    (world.cancelToken token).Pledged := by
  refine pledged.carried (carries_of_same rfl) (by simp [cancelToken, updateChannel]) ?_
  intro _ _ other held _ _ _ heldFound isWaiting
  simp only [cancelToken, updateChannel, List.getElem?_modify, heldFound]
  by_cases isOther : token = other
  · exact ⟨held.cancel, by simp [isOther], isWaiting⟩
  · exact ⟨held, by simp [isOther], isWaiting⟩

theorem Tally.of_channels (tally : world.Tally running) (channels : List Channel) :
    ({ world with channels } : World).Tally running :=
  ⟨tally.counts, tally.known, tally.owned, tally.ended⟩

/-! ## What holds between incidents -/

structure Orderly (world : World) : Prop where
  attended : world.Attended
  tally : world.Tally none
  pledged : world.Pledged

theorem orderly_ofConfig (config : ConnectionConfig) : (ofConfig config).Orderly where
  attended := attended_ofConfig config
  tally :=
    { counts := fun _ _ found => nomatch found
      known := fun _ member => absurd member List.not_mem_nil
      owned := fun _ member => absurd member List.not_mem_nil
      ended := fun _ _ found => nomatch found }
  pledged :=
    { known := fun _ _ _ found => nomatch found
      own := fun _ _ _ _ _ found => nomatch found
      waiting := fun _ _ _ found => nomatch found }

/-- A step that handles a refresh, up to the point where it counts down or waits. -/
theorem Orderly.course (orderly : world.Orderly) {task : Task} {tasks : List Task}
    (queue : world.queue = task :: tasks) (isFor : task.refresh? = some refresh) :
    ∃ last : World, last.Tally (some refresh) ∧ last.Pledged ∧
      last.Proceeds world (some refresh) ∧
      (world.step = last.countDown refresh ∨
        ∃ suspension : Suspension, suspension.visit.fetch.refresh = refresh ∧
          world.step = { last with suspended := last.suspended ++ [suspension] }) := by
  have tally := tally_of_popped orderly.tally queue isFor
  have pledged : ({ world with queue := tasks } : World).Pledged :=
    orderly.pledged.of_channels (carries_of_same rfl) fun _ _ found => found
  obtain ⟨last, course, ends⟩ := handles_step queue isFor
  obtain ⟨lastTally, proceeds⟩ := course.proceeds tally
  have popped : ({ world with queue := tasks } : World).Proceeds world (some refresh) := by
    refine Proceeds.of_same ?_ ?_ fun _ => ?_ <;> rfl
  exact ⟨last, lastTally, course.pledged tally pledged, popped.trans proceeds, ends⟩

/-- The refresh that the task at the front of the queue works for. -/
def front (world : World) : Option RefreshId := world.queue.head?.bind Task.refresh?

theorem front_of_queue {task : Task} {tasks : List Task} (queue : world.queue = task :: tasks) :
    world.front = task.refresh? := by
  rw [front, queue]
  rfl

theorem mem_pending_of_front (isFront : world.front = some refresh) : refresh ∈ world.pending := by
  cases queue : world.queue with
  | nil =>
      rw [front, queue] at isFront
      cases isFront
  | cons task tasks =>
      rw [front_of_queue queue] at isFront
      rw [pending_popped queue, isFront]
      exact List.mem_append_left _ (List.mem_singleton.mpr rfl)

/-- What a step comes to: it works for no refresh, or it leaves a fetch that waits for the release
of its read, or it ends a fetch and counts down. -/
inductive Turn (world : World) : Prop where
  | idle (isFront : world.front = none) (deeds : world.Deeds none none world.step)
  | waits (refresh : RefreshId) (isFront : world.front = some refresh)
      (proceeds : world.step.Proceeds world (some refresh))
      (more : world.step.outstanding refresh ≠ 0)
  | ends (refresh : RefreshId) (last : World) (isFront : world.front = some refresh)
      (pledged : last.Pledged) (proceeds : last.Proceeds world (some refresh))
      (counts : last.CountsDown refresh world.step)

theorem Orderly.turn (orderly : world.Orderly) : world.Turn := by
  cases queue : world.queue with
  | nil =>
      refine .idle (by rw [front, queue]; rfl) ?_
      rw [World.step, queue]
      exact .refl
  | cons task tasks =>
      have isFront := front_of_queue queue
      cases isFor : task.refresh? with
      | none => exact .idle (isFront.trans isFor) (deeds_step_of_no_refresh queue isFor)
      | some refresh =>
          obtain ⟨last, tally, pledged, proceeds, counted | ⟨suspension, isOwn, waits⟩⟩ :=
            orderly.course queue isFor
          · refine .ends refresh last (isFront.trans isFor) pledged proceeds ?_
            rw [counted]
            exact tally.countsDown
          · have suspends : ({ last with suspended := last.suspended ++ [suspension] } :
                World).Proceeds last (some refresh) := by
              refine Proceeds.of_same ?_ ?_ fun _ => ?_ <;> rfl
            refine .waits refresh (isFront.trans isFor) ?_ ?_
            · rw [waits]
              exact proceeds.trans suspends
            · rw [waits, outstanding, pending]
              simp [isOwn]

theorem Orderly.step (orderly : world.Orderly) : world.step.Orderly := by
  have attended : world.step.Attended := orderly.attended.undergo .step
  cases queue : world.queue with
  | nil =>
      rw [World.step, queue]
      exact orderly
  | cons task tasks =>
      cases isFor : task.refresh? with
      | none =>
          have deeds : world.Deeds none none world.step := deeds_step_of_no_refresh queue isFor
          exact ⟨attended, deeds.tally orderly.tally, deeds.pledged orderly.tally orderly.pledged⟩
      | some refresh =>
          obtain ⟨last, tally, pledged, _, counted | ⟨suspension, isOwn, waits⟩⟩ :=
            orderly.course queue isFor
          · rw [counted] at attended ⊢
            exact ⟨attended, tally.countsDown.tally tally, tally.countsDown.pledged pledged⟩
          · rw [waits] at attended ⊢
            exact ⟨attended, tally_of_suspended tally isOwn,
              pledged.of_channels (carries_of_same rfl) fun _ _ found => found⟩

theorem Orderly.undergo (orderly : world.Orderly) (incident : Incident) :
    (world.undergo incident).Orderly := by
  rcases incident.eq_or_isPlain with rfl | ⟨token, rfl⟩ | ⟨token, rfl⟩ | plain
  · exact orderly.step
  · obtain ⟨channels, isRead⟩ := exists_readToken world token
    have pledged := pledged_readToken orderly.pledged token
    rw [isRead] at pledged
    change (world.readToken token).2.Orderly
    rw [isRead]
    exact ⟨orderly.attended, orderly.tally.of_channels channels, pledged⟩
  · exact ⟨orderly.attended, orderly.tally.of_channels _, pledged_cancelToken orderly.pledged token⟩
  · have deeds := deeds_undergo orderly.attended plain
    exact ⟨deeds.attended orderly.attended, deeds.tally orderly.tally,
      deeds.pledged orderly.tally orderly.pledged⟩

theorem orderly_of_reached (config : ConnectionConfig) (incidents : List Incident) :
    ((ofConfig config).undergoAll incidents).Orderly := by
  induction incidents using List.reverseRecOn with
  | nil => exact orderly_ofConfig config
  | append_singleton others last inductionHypothesis =>
      rw [undergoAll_concat]
      exact inductionHypothesis.undergo last

/-! ## The end of a refresh -/

def HasFired (world : World) (refresh : RefreshId) : Prop :=
  ∃ given, world.refreshes[refresh]? = some given ∧ given.refresher.fired = true

/-- The refresh, if any, whose last fetch is ended by an incident. -/
def finishing (world : World) : Incident → Option RefreshId
  | .command .step _ => world.front.filter fun refresh => world.step.outstanding refresh = 0
  | _ => none

/-- What a cache tells of the end of a refresh. -/
def announcement (world : World) (refresh : RefreshId) (id : CacheId) : List CacheEvent :=
  match world.refreshes[refresh]? with
  | none => []
  | some given =>
    if id = given.cache ∧ world.announces given = true then [.refreshed given.refresher.path]
    else []

/-- What an incident makes of refreshes and journals. -/
structure Concludes (after before : World) (finishing : Option RefreshId) : Prop where
  fired : ∀ refresh, after.HasFired refresh ↔ before.HasFired refresh ∨ finishing = some refresh
  once : ∀ refresh, finishing = some refresh → ¬ before.HasFired refresh
  told : ∀ id, ∃ told, (∀ event ∈ told, event.node?.isSome = true) ∧
    after.journal id = before.journal id ++ told ++
      finishing.toList.flatMap (before.announcement · id)

theorem Proceeds.hasFired (proceeds : second.Proceeds first running) (refresh : RefreshId) :
    second.HasFired refresh ↔ first.HasFired refresh := by
  constructor
  · rintro ⟨later, laterFound, fired⟩
    cases found : first.refreshes[refresh]? with
    | none =>
        rw [proceeds.fresh refresh later laterFound found] at fired
        cases fired
    | some given =>
        obtain ⟨count, same, _⟩ := proceeds.kept refresh given found
        rw [laterFound] at same
        cases same
        exact ⟨given, found, fired⟩
  · rintro ⟨given, found, fired⟩
    obtain ⟨count, laterFound, _⟩ := proceeds.kept refresh given found
    exact ⟨_, laterFound, fired⟩

theorem Proceeds.concludes (proceeds : second.Proceeds first running) :
    second.Concludes first none where
  fired := by
    intro refresh
    rw [proceeds.hasFired]
    simp
  once := fun _ none => nomatch none
  told := by
    intro id
    obtain ⟨told, journal, nodes⟩ := proceeds.journal id
    refine ⟨told, nodes, ?_⟩
    simp [journal]

/-- While a fetch runs, nothing changes that decides whether the end of its refresh is told of. -/
theorem Proceeds.announces (proceeds : second.Proceeds first (some refresh))
    (given : Refresh) (owned : given.cache < first.caches.length) (count : Int) :
    second.announces (given.counting count) = first.announces given := by
  have channels := proceeds.channels (Option.some_ne_none refresh)
  have sameToken : second.isGivenUp (given.counting count) = first.isGivenUp given := by
    have same : second.isCancelled = first.isCancelled := by
      funext token
      rw [isCancelled, isCancelled, channels]
    rw [isGivenUp, isGivenUp, same]
    rfl
  have found := List.getElem?_eq_getElem owned
  obtain ⟨later, laterFound, stays⟩ := proceeds.standing given.cache _ found
  have laterPlace : second.caches[(given.counting count).cache]? = some later := laterFound
  have closed : later.isClosed = (first.caches[given.cache]).isClosed := by
    rw [Cache.isClosed, Cache.isClosed, stays.phase (Option.some_ne_none refresh)]
  rw [World.announces, World.announces, laterPlace, found]
  simp only [sameToken, stays.options, closed]

theorem Proceeds.announcement (proceeds : second.Proceeds first (some refresh))
    (found : first.refreshes[refresh]? = some given)
    (owned : given.cache < first.caches.length) (id : CacheId) :
    second.announcement refresh id = first.announcement refresh id := by
  obtain ⟨count, later, _⟩ := proceeds.kept refresh given found
  rw [World.announcement, World.announcement, found, later]
  simp only [proceeds.announces given owned count]
  rfl

/-- What comes before the end of a refresh may tell of nodes. -/
theorem Concludes.after (concludes : third.Concludes second (some refresh))
    (proceeds : second.Proceeds first (some refresh))
    (same : ∀ id, second.announcement refresh id = first.announcement refresh id) :
    third.Concludes first (some refresh) where
  fired := by
    intro other
    rw [concludes.fired, proceeds.hasFired]
  once := fun other isOther fired =>
    concludes.once other isOther ((proceeds.hasFired other).mpr fired)
  told := by
    intro id
    obtain ⟨later, laterNodes, isLater⟩ := concludes.told id
    obtain ⟨earlier, isEarlier, earlierNodes⟩ := proceeds.journal id
    refine ⟨earlier ++ later, ?_, ?_⟩
    · intro event member
      exact (List.mem_append.mp member).elim (earlierNodes event) (laterNodes event)
    · rw [isLater, isEarlier]
      simp [same]

theorem proceeds_of_waits (found : first.refreshes[refresh]? = some given) (count : Int) :
    ({ first with refreshes := first.refreshes.set refresh (given.counting count) } :
      World).Proceeds first (some refresh) where
  kept := by
    intro other held heldFound
    by_cases isOther : refresh = other
    · subst isOther
      rw [found] at heldFound
      cases heldFound
      refine ⟨count, ?_, fun different => absurd rfl different⟩
      exact List.getElem?_set_self (List.getElem?_eq_some_iff.mp found).1
    · refine ⟨held.refresher.count, ?_, fun _ => rfl⟩
      exact (List.getElem?_set_ne isOther).trans heldFound
  fresh := by
    intro other held heldFound new
    have beyond := List.getElem?_eq_none_iff.mp new
    have inRange := (List.getElem?_eq_some_iff.mp heldFound).1
    rw [List.length_set] at inRange
    exact absurd inRange (Nat.not_lt.mpr beyond)
  journal := fun id => .of_same rfl
  standing := fun _ cache isFound => ⟨cache, isFound, .of_phase rfl rfl _⟩
  channels := fun _ => rfl

theorem concludes_of_fires (found : first.refreshes[refresh]? = some given)
    (unfired : given.refresher.fired = false)
    (finishes : second.Finishes
      { first with refreshes := first.refreshes.set refresh given.finished } given) :
    second.Concludes first (some refresh) where
  fired := by
    intro other
    have inRange := (List.getElem?_eq_some_iff.mp found).1
    rw [HasFired, HasFired, finishes.refreshes]
    by_cases isOther : refresh = other
    · subst isOther
      simp [inRange, Refresh.finished]
    · simp [List.getElem?_set_ne isOther, isOther]
  once := by
    rintro other isOther ⟨held, heldFound, fired⟩
    cases isOther
    rw [found] at heldFound
    cases heldFound
    rw [unfired] at fired
    cases fired
  told := by
    intro id
    refine ⟨[], fun _ member => absurd member List.not_mem_nil, ?_⟩
    rw [finishes.journal id]
    simp only [Option.toList_some, List.flatMap_cons, List.flatMap_nil, List.append_nil,
      announcement, found]
    rfl

theorem finishing_of_front (isFront : world.front = some refresh) :
    world.finishing .step = if world.step.outstanding refresh = 0 then some refresh else none := by
  simp [finishing, Incident.step, isFront, Option.filter]

theorem Orderly.concludes_step (orderly : world.Orderly) :
    world.step.Concludes world (world.finishing .step) := by
  cases orderly.turn with
  | idle isFront deeds =>
      have nothing : world.finishing .step = none := by simp [finishing, Incident.step, isFront]
      rw [nothing]
      exact (deeds.proceeds orderly.tally).concludes
  | waits refresh isFront proceeds more =>
      rw [finishing_of_front isFront, if_neg more]
      exact proceeds.concludes
  | ends refresh last isFront pledged proceeds counts =>
      rw [finishing_of_front isFront]
      cases counts with
      | waits given found unfired more isAfter =>
          have stillMore : world.step.outstanding refresh ≠ 0 := by
            rw [isAfter]
            exact more
          rw [if_neg stillMore, isAfter]
          exact (proceeds.trans (proceeds_of_waits found _)).concludes
      | fires given found unfired done finishes =>
          have nothing : world.step.outstanding refresh = 0 :=
            (finishes.pending.count_eq refresh).trans done
          rw [if_pos nothing]
          have inRange := orderly.tally.known refresh (mem_pending_of_front isFront)
          have present := List.getElem?_eq_getElem inRange
          have owned := orderly.tally.owned _ (List.mem_of_getElem? present)
          exact (concludes_of_fires found unfired finishes).after proceeds
            (proceeds.announcement present owned)

theorem Orderly.concludes (orderly : world.Orderly) (incident : Incident) :
    (world.undergo incident).Concludes world (world.finishing incident) := by
  rcases incident.eq_or_isPlain with rfl | ⟨token, rfl⟩ | ⟨token, rfl⟩ | plain
  · exact orderly.concludes_step
  · obtain ⟨channels, isRead⟩ := exists_readToken world token
    have reads : (world.readToken token).2.Proceeds world none := by
      rw [isRead]
      exact .of_same rfl rfl fun runs => absurd rfl runs
    exact reads.concludes
  · have cancels : (world.cancelToken token).Proceeds world none :=
      .of_same rfl rfl fun runs => absurd rfl runs
    exact cancels.concludes
  · have nothing : world.finishing incident = none := by
      cases incident with
      | command given single =>
          cases given with
          | step => cases plain
          | _ => rfl
      | turn | elapse | requeue => rfl
    rw [nothing]
    exact ((deeds_undergo orderly.attended plain).proceeds orderly.tally).concludes

/-! ## After the end -/

theorem Tally.not_pending_of_fired (tally : world.Tally none)
    (found : world.refreshes[refresh]? = some given) (fired : given.refresher.fired = true) :
    refresh ∉ world.pending := by
  have nothing := (tally.counts refresh given found).2.mp fired
  simpa [active, outstanding, List.count_eq_zero] using nothing

theorem Proceeds.same_of_other (proceeds : second.Proceeds first running)
    (found : first.refreshes[refresh]? = some given) (other : running ≠ some refresh) :
    second.refreshes[refresh]? = some given := by
  obtain ⟨count, later, same⟩ := proceeds.kept refresh given found
  rw [later, same other]
  rfl

theorem CountsDown.same_of_other {other : RefreshId} (counts : first.CountsDown refresh second)
    (different : refresh ≠ other) :
    second.refreshes[other]? = first.refreshes[other]? := by
  cases counts with
  | waits _ _ _ _ isAfter =>
      rw [isAfter]
      exact List.getElem?_set_ne different
  | fires _ _ _ _ finishes =>
      rw [finishes.refreshes]
      exact List.getElem?_set_ne different

theorem Orderly.same_of_fired_step (orderly : world.Orderly)
    (found : world.refreshes[refresh]? = some given) (fired : given.refresher.fired = true) :
    world.step.refreshes[refresh]? = some given := by
  have notPending := orderly.tally.not_pending_of_fired found fired
  have different : ∀ own, world.front = some own → some own ≠ some refresh := by
    intro own isFront same
    exact notPending (Option.some.inj same ▸ mem_pending_of_front isFront)
  cases orderly.turn with
  | idle _ deeds =>
      exact (deeds.proceeds orderly.tally).same_of_other found (Option.some_ne_none refresh).symm
  | waits own isFront proceeds _ => exact proceeds.same_of_other found (different own isFront)
  | ends own last isFront _ proceeds counts =>
      have apart := different own isFront
      rw [counts.same_of_other fun same => apart (congrArg some same)]
      exact proceeds.same_of_other found apart

/-- What has fired stays as it is. -/
theorem Orderly.same_of_fired (orderly : world.Orderly)
    (found : world.refreshes[refresh]? = some given) (fired : given.refresher.fired = true)
    (incident : Incident) : (world.undergo incident).refreshes[refresh]? = some given := by
  rcases incident.eq_or_isPlain with rfl | ⟨token, rfl⟩ | ⟨token, rfl⟩ | plain
  · exact orderly.same_of_fired_step found fired
  · obtain ⟨channels, isRead⟩ := exists_readToken world token
    change (world.readToken token).2.refreshes[refresh]? = some given
    rw [isRead]
    exact found
  · exact found
  · have deeds := deeds_undergo orderly.attended plain
    exact (deeds.proceeds orderly.tally).same_of_other found (Option.some_ne_none refresh).symm

theorem Orderly.undergoAll (orderly : world.Orderly) (incidents : List Incident) :
    (world.undergoAll incidents).Orderly := by
  induction incidents generalizing world with
  | nil => exact orderly
  | cons incident others inductionHypothesis => exact inductionHypothesis (orderly.undergo incident)

theorem Orderly.over_of_fired (orderly : world.Orderly)
    (found : world.refreshes[refresh]? = some given) (fired : given.refresher.fired = true)
    (incidents : List Incident) :
    (world.undergoAll incidents).refreshes[refresh]? = some given ∧
      (world.undergoAll incidents).outstanding refresh = 0 := by
  induction incidents generalizing world with
  | nil =>
      exact ⟨found, List.count_eq_zero.mpr (orderly.tally.not_pending_of_fired found fired)⟩
  | cons incident others inductionHypothesis =>
      exact inductionHypothesis (orderly.undergo incident)
        (orderly.same_of_fired found fired incident)

/-! ## The whole story -/

theorem read_of_waiting {channel : Channel} (found : world.channels[token]? = some channel)
    (waiting : channel.slot = .waiting) (free : world.isCancelled token = false) :
    (world.readToken token).1 = none := by
  have notCancelled : channel.cancelled = false := by
    rw [isCancelled, found] at free
    exact free
  rw [readToken, found]
  simp [Channel.read, notCancelled, waiting]

/-- At any time the count of a refresh is the number of its fetches that are queued or suspended,
and the one that is running. It has fired exactly if there are none, and then stays as it is;
before, its token tells nothing. A cache has counted the refreshes that have fired. A refresh fires
in the step that ends its last fetch, after all that its fetches have told, and never else. -/
theorem refresh_ends_once (config : ConnectionConfig) (incidents : List Incident) :
    let world := (ofConfig config).undergoAll incidents
    (∀ (refresh : RefreshId) (given : Refresh), world.refreshes[refresh]? = some given →
      given.refresher.count = world.outstanding refresh ∧
      (given.refresher.fired = true ↔ world.outstanding refresh = 0) ∧
      (given.refresher.fired = true → ∀ later,
        (world.undergoAll later).refreshes[refresh]? = some given ∧
          (world.undergoAll later).outstanding refresh = 0) ∧
      (given.refresher.fired = false → ∀ token, given.channel = some token →
        world.isCancelled token = false → (world.readToken token).1 = none)) ∧
    (∀ (id : CacheId) (cache : Cache), world.caches[id]? = some cache →
      cache.refreshCount = world.ended id ∧
      ((∀ (refresh : RefreshId) (given : Refresh), world.refreshes[refresh]? = some given →
          given.cache = id → world.outstanding refresh = 0) →
        cache.refreshCount = world.refreshes.countP fun given => given.cache = id)) ∧
    (∀ (task : Task) (tasks : List Task) (refresh : RefreshId), world.queue = task :: tasks →
      task.refresh? = some refresh →
        ∃ last : World, last.Tally (some refresh) ∧ (∀ id, last.TellsOfNodes world id) ∧
          (world.step = last.countDown refresh ∨
            ∃ suspension : Suspension, suspension.visit.fetch.refresh = refresh ∧
              world.step = { last with suspended := last.suspended ++ [suspension] })) ∧
    ∀ incident, (world.undergo incident).Concludes world (world.finishing incident) := by
  intro world
  have orderly : world.Orderly := orderly_of_reached config incidents
  have counted : ∀ (id : CacheId) (cache : Cache), world.caches[id]? = some cache →
      cache.refreshCount = world.ended id := by
    intro id cache found
    apply orderly.tally.ended
    rw [List.getElem?_map, found]
    rfl
  refine ⟨?_, ?_, ?_, orderly.concludes⟩
  · intro refresh given found
    obtain ⟨count, fired⟩ := orderly.tally.counts refresh given found
    have active : world.active none refresh = world.outstanding refresh := by simp [World.active]
    rw [active] at count fired
    refine ⟨count, fired, fun isFired => orderly.over_of_fired found isFired, ?_⟩
    intro unfired token isToken free
    obtain ⟨channel, channelFound, waiting⟩ :=
      orderly.pledged.waiting refresh given token found unfired isToken
    exact read_of_waiting channelFound waiting free
  · intro id cache found
    refine ⟨counted id cache found, ?_⟩
    intro done
    rw [counted id cache found, ended]
    apply List.countP_congr
    intro given member
    obtain ⟨refresh, isGiven⟩ := List.getElem?_of_mem member
    have fired := (orderly.tally.counts refresh given isGiven).2
    by_cases isCache : given.cache = id
    · have nothing : world.active none refresh = 0 := by
        simp [World.active, done refresh given isGiven isCache]
      simp [isCache, fired.mpr nothing]
    · simp [isCache]
  · intro task tasks refresh queue isFor
    obtain ⟨last, tally, _, proceeds, ends⟩ := orderly.course queue isFor
    exact ⟨last, tally, proceeds.journal, ends⟩

/-- The refresh of a start waits for the one read that is held back. The step that goes on with the
read tells of the node, and then of the end of the refresh. -/
theorem refresh_ends_with_held_read :
    let base : Path := ['/', 'a']
    let incidents : List Incident :=
      [Command.startConnection, .announce .syncConnected, .create base [] 0,
        .create (base.child ['b']) [1] 0, .build base [], .hold (base.child ['b']), .start 0, .step,
        .step, .release 0].flatMap Command.incidents
    let world := (ofConfig defaultConfig).undergoAll incidents
    world.outstanding 0 = 1 ∧ ¬ world.HasFired 0 ∧ (world.undergo .step).HasFired 0 ∧
      ((world.undergo .step).journal 0).length = 2 ∧
      ∃ told, (∀ event ∈ told, event.node?.isSome = true) ∧
        (world.undergo .step).journal 0 = world.journal 0 ++ told ++ [.refreshed base] := by
  intro base incidents world
  obtain ⟨_, _, _, concludes⟩ := refresh_ends_once defaultConfig incidents
  have last : world.finishing .step = some 0 := by decide +kernel
  have ends : (world.undergo .step).Concludes world (some 0) := last ▸ concludes .step
  have outstanding : world.outstanding 0 = 1 := by decide +kernel
  have told : ((world.undergo .step).journal 0).length = 2 := by decide +kernel
  have announced : world.announcement 0 0 = [.refreshed base] := by decide +kernel
  refine ⟨outstanding, ends.once 0 rfl, (ends.fired 0).mpr (Or.inr rfl), told, ?_⟩
  obtain ⟨nodes, areNodes, journal⟩ := ends.told 0
  refine ⟨nodes, areNodes, ?_⟩
  rw [journal]
  simp [announced]

end World

end WatchedTree
