import WatchedTree.Proofs.Refresh.Completion

/-!
# What a token answers

The token of a refresh that is under way answers nothing until the refresh fires, and is told of
success then. That its cache is closed meanwhile makes no difference.
-/
namespace WatchedTree

/-- Holds of the cancelling of a token. -/
def Incident.Cancels (token : ChannelId) (incident : Incident) : Prop :=
  incident = .command (.cancelToken token) rfl

namespace World

variable {world first second : World} {running : Option RefreshId} {refresh own : RefreshId}
  {given : Refresh} {token : ChannelId}

/-- What an incident is answered by a token, if it reads the token and the refresh has ended. -/
def answer (world : World) (token : ChannelId) : Incident → Option Outcome
  | .command (.readToken read) _ => if read = token then (world.readToken token).1 else none
  | _ => none

theorem answer_readToken (world : World) (token : ChannelId) :
    world.answer token (.command (.readToken token) rfl) = (world.readToken token).1 := if_pos rfl

/-- The answers of a token to the incidents that read it. -/
def answers (world : World) (token : ChannelId) : List Incident → List Outcome
  | [] => []
  | incident :: others =>
    (world.answer token incident).toList ++ (world.undergo incident).answers token others

theorem answers_append (world : World) (token : ChannelId) (earlier later : List Incident) :
    world.answers token (earlier ++ later) =
      world.answers token earlier ++ (world.undergoAll earlier).answers token later := by
  induction earlier generalizing world with
  | nil => rfl
  | cons incident others inductionHypothesis =>
      rw [List.cons_append, answers, answers, inductionHypothesis, undergoAll_cons,
        List.append_assoc]

/-! ## The promise -/

/-- The token of a refresh is not cancelled, and has been sent the success of the refresh exactly if
the refresh has fired. -/
inductive Promised (world : World) (refresh : RefreshId) (token : ChannelId) : Prop where
  | due (given : Refresh) (found : world.refreshes[refresh]? = some given)
      (isToken : given.channel = some token) (unfired : given.refresher.fired = false)
      (waiting : world.channels[token]? = some {})
  | kept (given : Refresh) (found : world.refreshes[refresh]? = some given)
      (isToken : given.channel = some token) (fired : given.refresher.fired = true)
      (settled : world.channels[token]? = some (.settled (.ok ())))

theorem Pledged.promised (pledged : world.Pledged) (found : world.refreshes[refresh]? = some given)
    (isToken : given.channel = some token) (unfired : given.refresher.fired = false)
    (free : world.isCancelled token = false) : world.Promised refresh token := by
  obtain ⟨⟨slot, cancelled⟩, channelFound, waiting⟩ :=
    pledged.waiting refresh given token found unfired isToken
  simp only at waiting
  subst waiting
  have notCancelled : cancelled = false := by
    rw [isCancelled, channelFound] at free
    exact free
  subst notCancelled
  exact .due given found isToken unfired channelFound

/-- A promise stands while the refresh is neither counted down nor the token used. -/
theorem Promised.of_proceeds (promised : first.Promised refresh token)
    (proceeds : second.Proceeds first running)
    (channel : ∀ channel, first.channels[token]? = some channel →
      second.channels[token]? = some channel) : second.Promised refresh token := by
  cases promised with
  | due given found isToken unfired waiting =>
      obtain ⟨count, later, _⟩ := proceeds.kept refresh given found
      exact .due (given.counting count) later isToken unfired (channel _ waiting)
  | kept given found isToken fired settled =>
      obtain ⟨count, later, _⟩ := proceeds.kept refresh given found
      exact .kept (given.counting count) later isToken fired (channel _ settled)

theorem Promised.of_channels (promised : world.Promised refresh token) {channels : List Channel}
    (same : channels[token]? = world.channels[token]?) :
    ({ world with channels } : World).Promised refresh token := by
  cases promised with
  | due given found isToken unfired waiting =>
      exact .due given found isToken unfired (same.trans waiting)
  | kept given found isToken fired settled =>
      exact .kept given found isToken fired (same.trans settled)

/-- The end of another refresh says nothing to the token. -/
theorem CountsDown.promised_of_other (counts : first.CountsDown own second)
    (different : own ≠ refresh) (pledged : first.Pledged)
    (promised : first.Promised refresh token) : second.Promised refresh token := by
  have sameRefresh := counts.same_of_other different
  have sameChannel : second.channels[token]? = first.channels[token]? := by
    cases counts with
    | waits _ _ _ _ isAfter => rw [isAfter]
    | fires held heldFound _ _ finishes =>
        refine finishes.channel_of_other fun isHeld => ?_
        cases promised with
        | due given found isToken _ _ =>
            exact different
              (pledged.own own refresh held given token heldFound found isHeld isToken)
        | kept given found isToken _ _ =>
            exact different
              (pledged.own own refresh held given token heldFound found isHeld isToken)
  cases promised with
  | due given found isToken unfired waiting =>
      exact .due given (sameRefresh.trans found) isToken unfired (sameChannel.trans waiting)
  | kept given found isToken fired settled =>
      exact .kept given (sameRefresh.trans found) isToken fired (sameChannel.trans settled)

/-- The token is told of success as its refresh fires, closed cache or not. -/
theorem CountsDown.promised_of_own (counts : first.CountsDown refresh second)
    (promised : first.Promised refresh token) : second.Promised refresh token := by
  obtain ⟨given, found, isToken, waiting⟩ : ∃ given, first.refreshes[refresh]? = some given ∧
      given.channel = some token ∧ (given.refresher.fired = false →
        first.channels[token]? = some {}) := by
    cases promised with
    | due given found isToken _ waiting => exact ⟨given, found, isToken, fun _ => waiting⟩
    | kept given found isToken fired _ =>
        exact ⟨given, found, isToken, fun unfired => absurd (fired.symm.trans unfired) nofun⟩
  have inRange := (List.getElem?_eq_some_iff.mp found).1
  cases counts with
  | waits held heldFound unfired _ isAfter =>
      rw [found] at heldFound
      cases heldFound
      subst isAfter
      exact .due _ (List.getElem?_set_self inRange) isToken unfired (waiting unfired)
  | fires held heldFound unfired _ finishes =>
      rw [found] at heldFound
      cases heldFound
      have free : first.isCancelled token = false := by rw [isCancelled, waiting unfired]
      have settled : second.channels[token]? = some (.settled (.ok ())) := by
        have channels := finishes.channels
        rw [isToken] at channels
        have stillFree : ({ first with refreshes := first.refreshes.set refresh given.finished } :
            World).isCancelled token = false := free
        simp only [stillFree, Bool.false_eq_true, if_false] at channels
        rw [channels, List.getElem?_modify_eq, waiting unfired]
        rfl
      refine .kept given.finished ?_ isToken rfl settled
      rw [finishes.refreshes]
      exact List.getElem?_set_self inRange

theorem Orderly.promised_step (orderly : world.Orderly)
    (promised : world.Promised refresh token) : world.step.Promised refresh token := by
  cases orderly.turn with
  | idle _ deeds =>
      exact promised.of_proceeds (deeds.proceeds orderly.tally)
        fun _ found => deeds.channel orderly.tally found
  | waits own _ proceeds _ =>
      have channels := proceeds.channels (Option.some_ne_none own)
      exact promised.of_proceeds proceeds fun _ found => channels ▸ found
  | ends own last _ pledged proceeds counts =>
      have channels := proceeds.channels (Option.some_ne_none own)
      have lastPromised : last.Promised refresh token :=
        promised.of_proceeds proceeds fun _ found => channels ▸ found
      by_cases isOwn : own = refresh
      · subst isOwn
        exact counts.promised_of_own lastPromised
      · exact counts.promised_of_other isOwn pledged lastPromised

/-- The promise is redeemed by the incident, or stands. -/
theorem Orderly.promised_undergo (orderly : world.Orderly)
    (promised : world.Promised refresh token) {incident : Incident}
    (spares : ¬ incident.Cancels token) :
    world.answer token incident = some (.ok ()) ∨
      world.answer token incident = none ∧ (world.undergo incident).Promised refresh token := by
  rcases incident.eq_or_isPlain with rfl | ⟨other, rfl⟩ | ⟨other, rfl⟩ | plain
  · exact Or.inr ⟨rfl, orderly.promised_step promised⟩
  · by_cases isOther : other = token
    · subst isOther
      cases promised with
      | due given found isToken unfired waiting =>
          refine Or.inr ⟨?_, ?_⟩
          · rw [answer_readToken, readToken, waiting]
            rfl
          · have same : (world.readToken other).2 =
                { world with channels := world.channels.set other {} } := by
              rw [readToken, waiting]
              rfl
            change (world.readToken other).2.Promised refresh other
            rw [same]
            refine .due given found isToken unfired ?_
            exact List.getElem?_set_self (List.getElem?_eq_some_iff.mp waiting).1
      | kept given found isToken fired settled =>
          left
          rw [answer_readToken, readToken, settled]
          rfl
    · refine Or.inr ⟨if_neg isOther, ?_⟩
      change (world.readToken other).2.Promised refresh token
      unfold readToken
      split
      · exact promised
      · exact promised.of_channels (List.getElem?_set_ne isOther)
  · have isOther : other ≠ token := by
      intro same
      exact spares (same ▸ rfl)
    refine Or.inr ⟨rfl, ?_⟩
    have untouched : (world.channels.modify other Channel.cancel)[token]? =
        world.channels[token]? := by simp [isOther]
    exact promised.of_channels untouched
  · have deeds := deeds_undergo orderly.attended plain
    refine Or.inr ⟨?_, ?_⟩
    · cases incident with
      | command given single =>
          cases given with
          | readToken => cases plain
          | _ => rfl
      | turn | elapse | requeue => rfl
    · exact promised.of_proceeds (deeds.proceeds orderly.tally)
        fun _ found => deeds.channel orderly.tally found

theorem Orderly.promised_undergoAll (orderly : world.Orderly)
    (promised : world.Promised refresh token) (incidents : List Incident)
    (spares : ∀ incident ∈ incidents, ¬ incident.Cancels token) :
    (world.answers token incidents).head? = some (.ok ()) ∨
      world.answers token incidents = [] ∧
        (world.undergoAll incidents).Promised refresh token := by
  induction incidents generalizing world with
  | nil => exact Or.inr ⟨rfl, promised⟩
  | cons incident others inductionHypothesis =>
      have spared := spares incident List.mem_cons_self
      rcases orderly.promised_undergo promised spared with told | ⟨silent, stands⟩
      · left
        rw [answers, told]
        rfl
      · have later := inductionHypothesis (orderly.undergo incident) stands
          fun other member => spares other (List.mem_cons_of_mem _ member)
        rw [answers, silent]
        exact later

/-- A token is first answered with success once no fetch of its refresh is left. -/
theorem Orderly.head_answers (orderly : world.Orderly) (promised : world.Promised refresh token)
    {incidents : List Incident} (spares : ∀ incident ∈ incidents, ¬ incident.Cancels token)
    (done : (world.undergoAll incidents).outstanding refresh = 0) :
    (world.answers token (incidents ++ [.command (.readToken token) rfl])).head? =
      some (.ok ()) := by
  rw [answers_append]
  rcases orderly.promised_undergoAll promised incidents spares with told | ⟨silent, stands⟩
  · rw [List.head?_append, told]
    rfl
  · rw [silent, List.nil_append]
    have tally := (orderly.undergoAll incidents).tally
    cases stands with
    | due given found _ unfired _ =>
        have fired := (tally.counts refresh given found).2.mpr (by simpa [active] using done)
        exact absurd (unfired.symm.trans fired) Bool.false_ne_true
    | kept _ _ _ _ settled =>
        have read : (world.undergoAll incidents).answer token (.command (.readToken token) rfl) =
            some (.ok ()) := by
          rw [answer_readToken, readToken, settled]
          rfl
        rw [answers, read]
        rfl

/-! ## Closed caches -/

theorem exists_closed {id : CacheId} {cache : Cache} (found : world.caches[id]? = some cache) :
    ∃ closed, (world.closeCache id).caches[id]? = some closed ∧ closed.isClosed = true := by
  rw [closeCache, found]
  by_cases isClosed : cache.isClosed = true
  · exact ⟨cache, by simp [isClosed, found], isClosed⟩
  · have present : ({ world with connection := world.connection } : World).caches[id]? =
        some cache := found
    simp only [isClosed, Bool.false_eq_true, if_false]
    exact ⟨cache.close, getElem?_setCache present cache.close, rfl⟩

/-- A refresh whose cache is closed while fetches of it are still to be done ends like any other:
once they have been run, its token, unless cancelled, answers that it has succeeded. That the cache
was closed is never reported. -/
theorem head_answers_of_closed (config : ConnectionConfig) (before later : List Incident)
    (found : ((ofConfig config).undergoAll before).refreshes[refresh]? = some given)
    (isToken : given.channel = some token)
    (underWay : ((ofConfig config).undergoAll before).outstanding refresh ≠ 0)
    (free : ((ofConfig config).undergoAll before).isCancelled token = false)
    (spares : ∀ incident ∈ later, ¬ incident.Cancels token)
    (done : ((((ofConfig config).undergoAll before).closeCache given.cache).undergoAll
      later).outstanding refresh = 0) :
    let closed := ((ofConfig config).undergoAll before).closeCache given.cache
    (∃ cache, closed.caches[given.cache]? = some cache ∧ cache.isClosed = true) ∧
      (closed.answers token (later ++ [.command (.readToken token) rfl])).head? =
        some (.ok ()) := by
  have orderly := orderly_of_reached config before
  generalize (ofConfig config).undergoAll before = world at *
  intro closed
  have owned := orderly.tally.owned given (List.mem_of_getElem? found)
  refine ⟨exists_closed (List.getElem?_eq_getElem owned), ?_⟩
  have unfired : given.refresher.fired = false := by
    apply eq_false_of_ne_true
    intro fired
    have nothing := (orderly.tally.counts refresh given found).2.mp fired
    exact underWay (by simpa [active] using nothing)
  have promised := orderly.pledged.promised found isToken unfired free
  let closing : Incident := .command (.closeCache given.cache) rfl
  have stillOrderly : closed.Orderly := orderly.undergo closing
  have spared : ¬ closing.Cancels token := by
    intro cancels
    cases Incident.command.inj cancels
  rcases orderly.promised_undergo promised spared with told | ⟨_, stands⟩
  · cases told
  · exact stillOrderly.head_answers stands spares done

/-- A fetch is held back, the cache is closed, and the token of the refresh answers success as soon
as the fetch is let go. -/
theorem head_answers_of_held :
    let base : Path := ['/', 'a']
    let before : List Incident :=
      [Command.startConnection, .announce .syncConnected, .create base [] 0,
        .create (base.child ['b']) [1] 0, .build base [], .start 0, .step, .step,
        .hold (base.child ['b']), .refreshAll 0, .step, .step].flatMap Command.incidents
    let later : List Incident := [.command (.release 0) rfl, .step]
    let held := (ofConfig defaultConfig).undergoAll before
    let closed := held.closeCache 0
    held.outstanding 1 = 1 ∧ held.suspended.length = 1 ∧
      (closed.caches.map Cache.isClosed) = [true] ∧
      (closed.undergoAll later).outstanding 1 = 0 ∧
      (closed.answers 1 (later ++ [.command (.readToken 1) rfl])).head? = some (.ok ()) := by
  intro base before later held closed
  let given : Refresh :=
    { cache := 0, refresher := { path := base, count := 1 }, channel := some 1 }
  have found : held.refreshes[1]? = some given := by decide +kernel
  have outstanding : held.outstanding 1 = 1 := by decide +kernel
  have underWay : held.outstanding 1 ≠ 0 := by
    rw [outstanding]
    exact Nat.one_ne_zero
  have free : held.isCancelled 1 = false := by decide +kernel
  have spares : ∀ incident ∈ later, ¬ incident.Cancels 1 := by
    intro incident member cancels
    rcases List.mem_pair.mp member with rfl | rfl
    · cases Incident.command.inj cancels
    · cases Incident.command.inj cancels
  have done : (closed.undergoAll later).outstanding 1 = 0 := by decide +kernel
  have suspended : held.suspended.length = 1 := by decide +kernel
  have phases : closed.caches.map Cache.isClosed = [true] := by decide +kernel
  have ends := head_answers_of_closed defaultConfig before later found rfl underWay free spares done
  exact ⟨outstanding, suspended, phases, done, ends.2⟩

end World

end WatchedTree
