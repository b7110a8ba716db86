import WatchedTree.Proofs.Refresh.Completion

/-!
# Tokens and what they stand for

A token stands for the refresh that it was handed out with, and for no other ever after. Once that
refresh has fired, or if there never was one, nothing that is told has to do with the token.
-/
namespace WatchedTree

namespace World

variable {world first second third : World} {running : Option RefreshId} {refresh : RefreshId}
  {given : Refresh} {token : ChannelId}

/-- A refresh has one of the old tokens only if it had it before; what has fired has fired, and what
was cancelled is cancelled. -/
structure KeepsTokens (after before : World) : Prop where
  channels : ∀ (token : ChannelId) (channel : Channel), before.channels[token]? = some channel →
    ∃ later, after.channels[token]? = some later ∧
      (channel.cancelled = true → later.cancelled = true)
  tokens : ∀ (refresh : RefreshId) (later : Refresh) (token : ChannelId),
    after.refreshes[refresh]? = some later → later.channel = some token →
      token < before.channels.length →
        ∃ given, before.refreshes[refresh]? = some given ∧ given.channel = some token ∧
          (given.refresher.fired = true → later.refresher.fired = true)

/-- Channels that are changed one by one, none of them back from being cancelled. -/
theorem exists_of_modify {change : Channel → Channel}
    (kept : ∀ channel, channel.cancelled = true → (change channel).cancelled = true)
    {channels : List Channel} (place : ChannelId) {channel : Channel}
    (found : channels[token]? = some channel) :
    ∃ later, (channels.modify place change)[token]? = some later ∧
      (channel.cancelled = true → later.cancelled = true) := by
  rw [List.getElem?_modify, found]
  by_cases isPlace : place = token
  · exact ⟨change channel, by simp [isPlace], kept channel⟩
  · exact ⟨channel, by simp [isPlace], fun cancelled => cancelled⟩

namespace KeepsTokens

theorem of_refreshes (refreshes : second.refreshes = first.refreshes)
    (channels : ∀ (token : ChannelId) (channel : Channel), first.channels[token]? = some channel →
      ∃ later, second.channels[token]? = some later ∧
        (channel.cancelled = true → later.cancelled = true)) : second.KeepsTokens first where
  channels := channels
  tokens := fun _ later _ found isToken _ =>
    ⟨later, refreshes ▸ found, isToken, fun fired => fired⟩

theorem of_same (refreshes : second.refreshes = first.refreshes)
    (channels : second.channels = first.channels) : second.KeepsTokens first :=
  of_refreshes refreshes fun _ channel found =>
    ⟨channel, channels ▸ found, fun cancelled => cancelled⟩

theorem refl (world : World) : world.KeepsTokens world := of_same rfl rfl

theorem longer (keeps : second.KeepsTokens first) (known : token < first.channels.length) :
    token < second.channels.length := by
  obtain ⟨later, found, _⟩ := keeps.channels token _ (List.getElem?_eq_getElem known)
  exact (List.getElem?_eq_some_iff.mp found).1

theorem isCancelled (keeps : second.KeepsTokens first)
    (cancelled : first.isCancelled token = true) : second.isCancelled token = true := by
  rw [World.isCancelled] at cancelled ⊢
  cases found : first.channels[token]? with
  | none =>
      rw [found] at cancelled
      cases cancelled
  | some channel =>
      rw [found] at cancelled
      obtain ⟨later, laterFound, kept⟩ := keeps.channels token channel found
      rw [laterFound]
      exact kept cancelled

theorem trans (left : second.KeepsTokens first) (right : third.KeepsTokens second) :
    third.KeepsTokens first where
  channels := by
    intro token channel found
    obtain ⟨middle, middleFound, leftKept⟩ := left.channels token channel found
    obtain ⟨later, laterFound, rightKept⟩ := right.channels token middle middleFound
    exact ⟨later, laterFound, fun cancelled => rightKept (leftKept cancelled)⟩
  tokens := by
    intro refresh later token found isToken isOld
    obtain ⟨middle, middleFound, isMiddleToken, rightFired⟩ :=
      right.tokens refresh later token found isToken (left.longer isOld)
    obtain ⟨given, givenFound, isGivenToken, leftFired⟩ :=
      left.tokens refresh middle token middleFound isMiddleToken isOld
    exact ⟨given, givenFound, isGivenToken, fun fired => rightFired (leftFired fired)⟩

end KeepsTokens

theorem Booking.keepsTokens (booking : first.Booking running second) :
    second.KeepsTokens first where
  channels := fun _ channel found => ⟨channel, booking.channel found, fun cancelled => cancelled⟩
  tokens := by
    intro other later token found isToken isOld
    cases booking with
    | same books => exact ⟨later, books.refreshes ▸ found, isToken, fun fired => fired⟩
    | settle | build => exact ⟨later, found, isToken, fun fired => fired⟩
    | raise refreshes =>
        rw [refreshes, List.getElem?_modify] at found
        obtain ⟨given, givenFound, rfl⟩ := Option.map_eq_some_iff.mp found
        refine ⟨given, givenFound, ?_, ?_⟩
        · split at isToken <;> exact isToken
        · intro fired
          split <;> exact fired
    | opens _ _ _ refreshes channels =>
        rw [refreshes] at found
        rcases getElem?_concat_cases found with old | ⟨_, rfl⟩
        · exact ⟨later, old, isToken, fun fired => fired⟩
        · rw [(token_of_opens channels isToken).1] at isOld
          exact absurd isOld (Nat.lt_irrefl _)

theorem Deeds.keepsTokens {cleared : Option CacheId} (deeds : first.Deeds running cleared second)
    (tally : first.Tally running) : second.KeepsTokens first := by
  induction deeds with
  | refl => exact .refl first
  | tail earlier deed inductionHypothesis =>
      exact inductionHypothesis.trans (deed.booking (Deeds.tally earlier tally)).keepsTokens

theorem tokens_of_set (found : first.refreshes[refresh]? = some given)
    (unfired : given.refresher.fired = false) (later : Refresh)
    (channel : later.channel = given.channel)
    (refreshes : second.refreshes = first.refreshes.set refresh later) (other : RefreshId)
    (held : Refresh) (token : ChannelId) (heldFound : second.refreshes[other]? = some held)
    (isToken : held.channel = some token) :
    ∃ given, first.refreshes[other]? = some given ∧ given.channel = some token ∧
      (given.refresher.fired = true → held.refresher.fired = true) := by
  rw [refreshes, List.getElem?_set] at heldFound
  by_cases isOther : refresh = other
  · subst isOther
    rw [if_pos rfl, if_pos (List.getElem?_eq_some_iff.mp found).1] at heldFound
    cases heldFound
    exact ⟨given, found, channel ▸ isToken, fun fired =>
      absurd (unfired.symm.trans fired) Bool.false_ne_true⟩
  · rw [if_neg isOther] at heldFound
    exact ⟨held, heldFound, isToken, fun fired => fired⟩

theorem CountsDown.keepsTokens (counts : first.CountsDown refresh second) :
    second.KeepsTokens first := by
  cases counts with
  | waits given found unfired more isAfter =>
      subst isAfter
      exact ⟨fun _ channel found => ⟨channel, found, fun cancelled => cancelled⟩,
        fun other held token heldFound isToken _ =>
          tokens_of_set found unfired (given.counting (first.outstanding refresh)) rfl rfl other
            held token heldFound isToken⟩
  | fires given found unfired last finishes =>
      refine ⟨?_, fun other held token heldFound isToken _ =>
        tokens_of_set found unfired given.finished rfl finishes.refreshes other held token
          heldFound isToken⟩
      intro token channel channelFound
      rw [finishes.channels]
      split
      · exact ⟨channel, channelFound, fun cancelled => cancelled⟩
      · split
        · exact ⟨channel, channelFound, fun cancelled => cancelled⟩
        · refine exists_of_modify (fun channel => ?_) _ channelFound
          exact (channel.cancelled_complete _).trans

theorem Course.keepsTokens (course : first.Course refresh second)
    (tally : first.Tally (some refresh)) : second.KeepsTokens first := by
  obtain ⟨before, after, earlier, _, commits, later⟩ := course
  have beforeTally := earlier.tally tally
  have committed : before.Booking (some refresh) after := .same commits.sameBooks
  exact ((earlier.keepsTokens tally).trans committed.keepsTokens).trans
    (later.keepsTokens (commits.sameBooks.tally beforeTally))

theorem Orderly.keepsTokens_step (orderly : world.Orderly) : world.step.KeepsTokens world := by
  cases queue : world.queue with
  | nil =>
      rw [World.step, queue]
      exact .refl world
  | cons task tasks =>
      cases isFor : task.refresh? with
      | none =>
          have deeds : world.Deeds none none world.step := deeds_step_of_no_refresh queue isFor
          exact deeds.keepsTokens orderly.tally
      | some refresh =>
          have tally := tally_of_popped orderly.tally queue isFor
          have popped : ({ world with queue := tasks } : World).KeepsTokens world :=
            .of_same rfl rfl
          obtain ⟨last, course, ends⟩ := handles_step queue isFor
          have courseKept := popped.trans (course.keepsTokens tally)
          rcases ends with counted | ⟨suspension, _, waits⟩
          · rw [counted]
            exact courseKept.trans (course.proceeds tally).1.countsDown.keepsTokens
          · rw [waits]
            exact courseKept.trans (.of_same rfl rfl)

theorem Orderly.keepsTokens (orderly : world.Orderly) (incident : Incident) :
    (world.undergo incident).KeepsTokens world := by
  rcases incident.eq_or_isPlain with rfl | ⟨place, rfl⟩ | ⟨place, rfl⟩ | plain
  · exact orderly.keepsTokens_step
  · change (world.readToken place).2.KeepsTokens world
    unfold readToken
    split
    · exact .refl world
    next channel found =>
      refine .of_refreshes rfl ?_
      intro token held heldFound
      by_cases isPlace : place = token
      · subst isPlace
        rw [found] at heldFound
        cases heldFound
        exact ⟨channel.read.2, List.getElem?_set_self (List.getElem?_eq_some_iff.mp found).1,
          channel.cancelled_read.trans⟩
      · exact ⟨held, (List.getElem?_set_ne isPlace).trans heldFound, fun cancelled => cancelled⟩
  · exact .of_refreshes rfl fun _ _ found => exists_of_modify (fun _ _ => rfl) place found
  · exact (deeds_undergo orderly.attended plain).keepsTokens orderly.tally

/-! ## After the end -/

/-- Holds if no refresh is under way that the token stands for. -/
structure IsSpent (world : World) (token : ChannelId) : Prop where
  known : token < world.channels.length
  fired : ∀ (refresh : RefreshId) (given : Refresh), world.refreshes[refresh]? = some given →
    given.channel = some token → given.refresher.fired = true

theorem KeepsTokens.isSpent (keeps : second.KeepsTokens first) (isSpent : first.IsSpent token) :
    second.IsSpent token where
  known := keeps.longer isSpent.known
  fired := by
    intro refresh later found isToken
    obtain ⟨given, givenFound, isGivenToken, fired⟩ :=
      keeps.tokens refresh later token found isToken isSpent.known
    exact fired (isSpent.fired refresh given givenFound isGivenToken)

/-- The refresh, if any, that an incident ends and that a token stands for. -/
def endingOf (world : World) (token : ChannelId) (incident : Incident) : Option RefreshId :=
  (world.finishing incident).filter fun refresh =>
    (world.refreshes[refresh]?).any fun given => given.channel == some token

theorem endingOf_eq_some {incident : Incident} :
    world.endingOf token incident = some refresh ↔ world.finishing incident = some refresh ∧
      ∃ given, world.refreshes[refresh]? = some given ∧ given.channel = some token := by
  rw [endingOf, Option.filter_eq_some_iff, Option.any_eq_true]
  simp only [beq_iff_eq]

theorem Orderly.endingOf_of_isSpent (orderly : world.Orderly) (isSpent : world.IsSpent token)
    (incident : Incident) : world.endingOf token incident = none := by
  by_contra ends
  obtain ⟨refresh, isEnding⟩ := Option.ne_none_iff_exists'.mp ends
  obtain ⟨isFinishing, given, found, isToken⟩ := endingOf_eq_some.mp isEnding
  exact (orderly.concludes incident).once refresh isFinishing
    ⟨given, found, isSpent.fired refresh given found isToken⟩

/-- With the end of its refresh all is over for a token. -/
theorem Orderly.isSpent_of_ending (orderly : world.Orderly) {incident : Incident}
    (isEnding : world.endingOf token incident = some refresh) :
    (world.undergo incident).IsSpent token := by
  obtain ⟨isFinishing, given, found, isToken⟩ := endingOf_eq_some.mp isEnding
  have keeps := orderly.keepsTokens incident
  have known := orderly.pledged.known refresh given token found isToken
  refine ⟨keeps.longer known, ?_⟩
  intro other later laterFound isLaterToken
  obtain ⟨held, heldFound, isHeldToken, _⟩ :=
    keeps.tokens other later token laterFound isLaterToken known
  have isOther := orderly.pledged.own refresh other given held token found heldFound isToken
    isHeldToken
  subst isOther
  obtain ⟨ended, endedFound, fired⟩ :=
    ((orderly.concludes incident).fired refresh).mpr (Or.inr isFinishing)
  rw [laterFound] at endedFound
  cases endedFound
  exact fired

end World

end WatchedTree
