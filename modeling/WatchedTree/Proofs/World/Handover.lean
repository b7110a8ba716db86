import WatchedTree.Proofs.World.CutOff
import WatchedTree.Proofs.World.Reading
import WatchedTree.Proofs.World.Waiting

/-!
# From one session to the next

A cache that was told that the connection is gone refreshes its base as soon as a session tells of
a connection, and the fetch of the base reads on the session that is present at its turn. Only a
failure that is still queued then keeps it from reading: whoever asks for the session next takes
it, and here that is the fetch.
-/
namespace WatchedTree

namespace World

variable {world first second third : World} {id : CacheId} {cache : Cache} {event : Event}
  {fetch : Fetch} {session : SessionId} {incident : Incident}

/-! ## Everybody who is told -/

theorem connection_backgroundRefresh (world : World) (id : CacheId) (path : Path) (full : Bool) :
    (world.backgroundRefresh id path full).connection = world.connection :=
  connection_spawn (world.addRefresh id path none).2 _

theorem connection_tell (event : Event) (id : CacheId) (world : World) :
    (tell event id world).connection = world.connection := by
  unfold tell
  split
  · rfl
  · split
    · rfl
    · split
      · simp only
        split
        · rw [connection_backgroundRefresh]
          rfl
        · rfl
      · split
        · rfl
        · split
          · rfl
          · split
            · rfl
            · exact connection_backgroundRefresh _ _ _ _
            · exact connection_backgroundRefresh _ _ _ _
            · exact connection_backgroundRefresh _ _ _ _
            · simp only
              split
              · rw [connection_backgroundRefresh, connection_removeSubtree]
              · exact connection_removeSubtree _ _ _

/-- An event is forwarded to one party after the other. -/
theorem forward_eq_foldl (event : Event) (world : World) :
    Connection.forward (·.connection) (tell event) world =
      world.connection.parties.foldl (fun state id => tell event id state) world := by
  unfold Connection.forward Connection.parties
  cases observer : world.connection.observer with
  | none => rfl
  | some party =>
      simp only
      rw [connection_tell]
      rfl

theorem occur_eq_foldl (event : Event) (world : World) :
    world.occur event = world.connection.parties.foldl (fun state id => tell event id state)
      { world with connection := world.connection.absorb world.now event } := by
  rw [occur, forward_eq_foldl, Connection.parties_absorb]

/-! ## The loss of the connection -/

/-- Holds of the incidents that tell the parties of the connection that it is gone: an event that
does so comes from the present session, or from anywhere past all handlers. -/
def Loses (world : World) : Incident → Prop
  | .command (.occur event) _ => event.isSession = true ∧ event.reconnects = false
  | .command (.announce state) _ =>
    state ≠ .syncConnected ∧
      ∃ session ∈ world.ensemble.openSessions, session.handler = world.connection.generation
  | .command .expireSessions _ =>
    ∃ session ∈ world.ensemble.openSessions, session.handler = world.connection.generation
  | _ => False

/-- A cache that is told of a loss takes note of it. -/
theorem isCutOff_tell (awake : world.Awake id) (isSession : event.isSession = true)
    (noNews : event.reconnects = false) : (tell event id world).IsCutOff id := by
  obtain ⟨cache, found, notLatent⟩ := awake
  have unconnected : (event.state == .syncConnected) = false := by
    rw [Event.reconnects, isSession, Bool.true_and] at noNews
    exact noNews
  unfold tell
  simp only [found, isSession, unconnected, Bool.false_and, Bool.false_eq_true, if_true, if_false]
  by_cases isClosed : cache.isClosed = true
  · rw [if_pos isClosed]
    exact ⟨cache, found, Or.inl (eq_of_beq isClosed)⟩
  · have isStarted : cache.phase = .started :=
      Awake.isStarted ⟨cache, found, notLatent⟩ found (eq_false_of_ne_true isClosed)
    rw [if_neg isClosed]
    exact ⟨_, getElem?_setCache found _, Or.inr ⟨isStarted, rfl⟩⟩

theorem isCutOff_tellEach {listeners : List CacheId} (awake : ∀ other ∈ listeners, world.Awake other)
    (member : id ∈ listeners) (isSession : event.isSession = true)
    (noNews : event.reconnects = false) :
    (listeners.foldl (fun state id => tell event id state) world).IsCutOff id := by
  induction listeners generalizing world with
  | nil => exact absurd member List.not_mem_nil
  | cons other others inductionHypothesis =>
      have told : world.Deeds none none (tell event other world) :=
        deeds_tell (awake other List.mem_cons_self) event
      rcases List.mem_cons.mp member with rfl | later
      · have told : (tell event id world).IsCutOff id :=
          isCutOff_tell (awake id List.mem_cons_self) isSession noNews
        rw [List.foldl_cons]
        exact staysCutOff_foldl (fun world other _ => staysCutOff_tell noNews other world) _ id told
      · exact inductionHypothesis
          (fun party isParty => told.awake (awake party (List.mem_cons_of_mem _ isParty))) later

theorem isCutOff_occur (attended : world.Attended) (member : id ∈ world.connection.parties)
    (isSession : event.isSession = true) (noNews : event.reconnects = false) :
    (world.occur event).IsCutOff id := by
  rw [occur_eq_foldl]
  have awake : ∀ other ∈ world.connection.parties,
      ({ world with connection := world.connection.absorb world.now event } : World).Awake other :=
    attended
  exact isCutOff_tellEach awake member isSession noNews

/-- Of all sessions that are to deliver a loss, the present one is heard. -/
theorem isCutOff_deliverEach (prepare : World → RemoteSession → Ensemble) {state : KeeperState}
    (isLoss : state ≠ .syncConnected) {sessions : List RemoteSession} (attended : world.Attended)
    (member : id ∈ world.connection.parties)
    (live : ∃ session ∈ sessions, session.handler = world.connection.generation) :
    (sessions.foldl (fun current session =>
      (current.setEnsemble (prepare current session)).deliverEvent
        { handler := session.handler, event := .ofSession state }) world).IsCutOff id := by
  have noNews : (Event.ofSession state).reconnects = false := beq_false_of_ne isLoss
  induction sessions generalizing world with
  | nil =>
      obtain ⟨session, nowhere, _⟩ := live
      exact absurd nowhere List.not_mem_nil
  | cons session others inductionHypothesis =>
      have placed : (world.setEnsemble (prepare world session)).Attended := attended
      rw [List.foldl_cons]
      by_cases isLive : session.handler = world.connection.generation
      · have heard : ((world.setEnsemble (prepare world session)).deliverEvent
            { handler := session.handler, event := .ofSession state }).IsCutOff id := by
          have passed : (world.setEnsemble (prepare world session)).deliverEvent
              { handler := session.handler, event := .ofSession state } =
                (world.setEnsemble (prepare world session)).occur (.ofSession state) := by
            rw [deliverEvent]
            exact if_pos isLive
          rw [passed]
          exact isCutOff_occur placed member rfl noNews
        refine staysCutOff_foldl (fun current session _ => ?_) _ id heard
        have prepared : (current.setEnsemble (prepare current session)).StaysCutOff current :=
          staysCutOff_of_caches rfl
        exact prepared.trans (staysCutOff_deliverEvent noNews _)
      · have dropped : (world.setEnsemble (prepare world session)).deliverEvent
            { handler := session.handler, event := .ofSession state } =
              world.setEnsemble (prepare world session) := by
          rw [deliverEvent]
          exact if_neg isLive
        obtain ⟨other, isOther, otherLive⟩ := live
        rcases List.mem_cons.mp isOther with rfl | later
        · exact absurd otherLive isLive
        · rw [dropped]
          exact inductionHypothesis placed member ⟨other, later, otherLive⟩

theorem isCutOff_of_loss (attended : world.Attended) (member : id ∈ world.connection.parties)
    (loses : world.Loses incident) : (world.undergo incident).IsCutOff id := by
  cases incident with
  | command given single =>
      cases given with
      | occur event => exact isCutOff_occur attended member loses.1 loses.2
      | announce state =>
          exact isCutOff_deliverEach (fun current _ => current.ensemble) loses.1 attended member
            loses.2
      | expireSessions =>
          exact isCutOff_deliverEach
            (fun current session => current.ensemble.expireSession session.id) (by decide) attended
            member loses
      | _ => exact False.elim loses
  | _ => exact False.elim loses

/-! ## The news of a connection -/

/-- A cache has issued a full refresh of its base: it is on record with one fetch to be done, and
the fetch is queued. -/
structure Issues (before : World) (id : CacheId) (base : Path) (fetch : Fetch) (after : World) :
    Prop where
  cache : fetch.cache = id
  path : fetch.path = base
  isFull : fetch.full = true
  isNew : before.refreshes.length ≤ fetch.refresh
  isCounted : after.refreshes[fetch.refresh]? =
    some { cache := id, refresher := { path := base, count := 1 }, channel := none }
  isQueued : .fetch fetch ∈ after.queue

theorem KeepsRecords.length_le (keeps : second.KeepsRecords first) :
    first.refreshes.length ≤ second.refreshes.length := by
  by_contra fewer
  have found := List.getElem?_eq_getElem (Nat.lt_of_not_le fewer)
  have kept := keeps _ _ found
  rw [List.getElem?_eq_none (Nat.le_refl _)] at kept
  cases kept

theorem Issues.of_deeds {base : Path} (issues : first.Issues id base fetch second)
    (deeds : second.Deeds none none third) : first.Issues id base fetch third :=
  { issues with
    isCounted := deeds.keepsRecords _ _ issues.isCounted
    isQueued := deeds.keepsQueue _ issues.isQueued }

theorem Issues.later {base : Path} (issues : second.Issues id base fetch third)
    (deeds : first.Deeds none none second) : first.Issues id base fetch third :=
  { issues with isNew := Nat.le_trans deeds.keepsRecords.length_le issues.isNew }

section News

variable (news : event.reconnects = true)

include news

/-- A cache that holds itself cut off refreshes its base when it is told of a connection. -/
theorem issues_tell (found : world.caches[id]? = some cache) (isStarted : cache.phase = .started)
    (cutOff : cache.connected = false) :
    world.Issues id cache.options.basePath
      { cache := id, refresh := world.refreshes.length, path := cache.options.basePath, full := true }
      (tell event id world) := by
  obtain ⟨isSession, isConnected⟩ := Bool.and_eq_true_iff.mp news
  have opened : cache.isClosed = false := by simp [Cache.isClosed, isStarted]
  have noted := getElem?_setCache found { cache with connected := true }
  have launched : tell event id world =
      (world.setCache id { cache with connected := true }).launch id cache.options.basePath true
        none := by
    unfold tell
    simp only [found, opened, isSession, isConnected, cutOff, Bool.not_false, Bool.and_true,
      Bool.false_eq_true, if_true, if_false]
    rfl
  rw [launched, launch_eq noted isStarted]
  refine ⟨rfl, rfl, rfl, Nat.le_refl _, ?_, ?_⟩
  · exact List.getElem?_concat_length
  · exact List.mem_append_right _ List.mem_cons_self

/-- What one cache is told, no other cache notices. -/
theorem tell_of_other {other : CacheId} (isOther : other ≠ id) (awake : world.Awake other) :
    (tell event other world).caches[id]? = world.caches[id]? := by
  obtain ⟨held, found, notLatent⟩ := awake
  obtain ⟨isSession, isConnected⟩ := Bool.and_eq_true_iff.mp news
  unfold tell
  simp only [found, isSession, isConnected, if_true]
  by_cases isClosed : held.isClosed = true
  · rw [if_pos isClosed]
  · have isStarted : held.phase = .started :=
      Awake.isStarted ⟨held, found, notLatent⟩ found (eq_false_of_ne_true isClosed)
    have noted := getElem?_setCache found { held with connected := true }
    have apart : (world.setCache other { held with connected := true }).caches[id]? =
        world.caches[id]? := by
      rw [setCache, List.getElem?_set_ne isOther]
    rw [if_neg isClosed]
    split
    · have launched : (world.setCache other { held with connected := true }).backgroundRefresh other
          held.options.basePath true =
            (world.setCache other { held with connected := true }).launch other
              held.options.basePath true none := rfl
      rw [launched, launch_eq noted isStarted]
      exact apart
    · exact apart

theorem exists_issues_tellEach {listeners : List CacheId}
    (awake : ∀ other ∈ listeners, world.Awake other) (member : id ∈ listeners)
    (found : world.caches[id]? = some cache) (isStarted : cache.phase = .started)
    (cutOff : cache.connected = false) :
    ∃ fetch, world.Issues id cache.options.basePath fetch
      (listeners.foldl (fun state id => tell event id state) world) := by
  induction listeners generalizing world with
  | nil => exact absurd member List.not_mem_nil
  | cons other others inductionHypothesis =>
      have told : world.Deeds none none (tell event other world) :=
        deeds_tell (awake other List.mem_cons_self) event
      have stillAwake : ∀ party ∈ others, (tell event other world).Awake party :=
        fun party isParty => told.awake (awake party (List.mem_cons_of_mem _ isParty))
      rw [List.foldl_cons]
      by_cases isOther : other = id
      · subst isOther
        have issued := issues_tell news found isStarted cutOff
        exact ⟨_, issued.of_deeds (deeds_tellEach stillAwake event)⟩
      · have later : id ∈ others := (List.mem_cons.mp member).resolve_left (Ne.symm isOther)
        have stillFound := (tell_of_other news isOther (awake other List.mem_cons_self)).trans found
        obtain ⟨fetch, issues⟩ := inductionHypothesis stillAwake later stillFound
        exact ⟨fetch, issues.later told⟩

end News

/-- The world after its present session has told of a connection. -/
def regained (world : World) : World :=
  world.deliverEvent
    { handler := world.connection.generation, event := .ofSession .syncConnected }

theorem exists_issues_regained (attended : world.Attended) (member : id ∈ world.connection.parties)
    (found : world.caches[id]? = some cache) (isStarted : cache.phase = .started)
    (cutOff : cache.connected = false) :
    ∃ fetch, world.Issues id cache.options.basePath fetch world.regained := by
  have occurs : world.regained = world.occur (.ofSession .syncConnected) := if_pos rfl
  have awake : ∀ other ∈ world.connection.parties,
      ({ world with
        connection := world.connection.absorb world.now (.ofSession .syncConnected) } :
          World).Awake other := attended
  have news : (Event.ofSession .syncConnected).reconnects = true := rfl
  have absorbed : world.Deed none none { world with
      connection := world.connection.absorb world.now (.ofSession .syncConnected) } := by
    apply deed_connect
    rw [Connection.parties_absorb]
    exact fun _ isParty => isParty
  obtain ⟨fetch, issues⟩ := exists_issues_tellEach news awake member found isStarted cutOff
  rw [occurs, occur_eq_foldl]
  exact ⟨fetch, issues.later absorbed.single⟩

/-! ## A session that is replaced in silence -/

/-- A cache that holds itself connected has nothing to do when it is told of a connection. -/
theorem tell_of_connected (news : event.reconnects = true) (found : world.caches[id]? = some cache)
    (connected : cache.connected = true) : tell event id world = world := by
  obtain ⟨isSession, isConnected⟩ := Bool.and_eq_true_iff.mp news
  unfold tell
  simp only [found, isSession, isConnected, connected, Bool.not_true, Bool.and_false,
    Bool.false_eq_true, if_true, if_false]
  split
  · rfl
  · have same : { cache with connected := true } = cache := by rw [← connected]
    rw [same, setCache_self found]

theorem tellEach_of_connected (news : event.reconnects = true) {listeners : List CacheId}
    (connected : ∀ id ∈ listeners, ∃ cache, world.caches[id]? = some cache ∧
      cache.connected = true) :
    listeners.foldl (fun state id => tell event id state) world = world := by
  induction listeners with
  | nil => rfl
  | cons id others inductionHypothesis =>
      obtain ⟨cache, found, isConnected⟩ := connected id List.mem_cons_self
      rw [List.foldl_cons, tell_of_connected news found isConnected]
      exact inductionHypothesis fun other member =>
        connected other (List.mem_cons_of_mem _ member)

/-- A start of a connection that is connected already replaces the session and tells nobody. So the
caches still hold themselves connected when the new session tells of its connection, and none of
them refreshes: the refreshes and the queue are what they were before the start. -/
theorem unrefreshed_after_restart
    (connected : ∀ id ∈ world.connection.parties, ∃ cache, world.caches[id]? = some cache ∧
      cache.connected = true) :
    (world.obey .startConnection).regained =
      { world with
        connection := (world.connection.openSession world.now).2.absorb world.now
          (.ofSession .syncConnected) } := by
  have parties : (world.obey .startConnection).connection.parties = world.connection.parties :=
    world.connection.parties_openSession world.now
  have occurs : (world.obey .startConnection).regained =
      (world.obey .startConnection).occur (.ofSession .syncConnected) := if_pos rfl
  rw [occurs, occur_eq_foldl, parties]
  exact tellEach_of_connected rfl connected

/-! ## The turn of the fetch -/

/-- A fetch whose turn it is has everything that it needs to read: its cache is started and reads
something of the path, and reads of the path do not fail on the session, which is the present one
and connected. -/
structure IsServed (world : World) (fetch : Fetch) (session : SessionId) : Prop where
  cache : ∃ cache action traverse, world.caches[fetch.cache]? = some cache ∧
    cache.phase = .started ∧ cache.scope fetch.path = some (action, traverse) ∧
      (action.wantsStat || action.wantsChildren || traverse) = true
  present : world.connection.session = some session
  connected : world.connection.isConnected = true
  healthy : world.ensemble.readFault? session fetch.path = none

theorem IsServed.isSteady (served : world.IsServed fetch session)
    (calm : world.connection.pendingFailures = 0) : world.connection.IsSteady session where
  session := served.present
  connected := eq_of_beq served.connected
  calm := List.length_eq_zero_iff.mp calm

/-- The fetch of a base reads at its turn, if no failure is queued. -/
theorem IsServed.hasRead {tasks : List Task} (served : world.IsServed fetch session)
    (front : world.queue = .fetch fetch :: tasks)
    (isBase : ∀ cache, world.caches[fetch.cache]? = some cache →
      fetch.path = cache.options.basePath)
    (calm : world.connection.pendingFailures = 0) :
    world.HasRead fetch session world.step := by
  obtain ⟨cache, action, traverse, found, isStarted, scope, reads⟩ := served.cache
  have acquired := (served.isSteady calm).acquire world.now
  have popped : ({ world with queue := tasks } : World).caches[fetch.cache]? = some cache := found
  have visiting : (({ world with queue := tasks } : World).visiting fetch cache
      world.connection).caches[(visitOf fetch cache action traverse session).cache]? =
        some cache.begun := getElem?_setCache popped cache.begun
  have begun := hasRead_beginVisit visiting (isBase cache found) served.healthy reads
  have isStep : world.step = ({ world with queue := tasks } : World).runFetch fetch := by
    rw [step, front]
    rfl
  rw [isStep, runFetch_of_acquired popped isStarted scope acquired]
  exact begun

/-- The fetch takes the oldest failure that is queued, and then reads nothing. -/
theorem IsServed.takes_failure {tasks : List Task} (served : world.IsServed fetch session)
    (front : world.queue = .fetch fetch :: tasks)
    (waiting : world.connection.pendingFailures ≠ 0) :
    world.step.ensemble = world.ensemble ∧
      world.step.connection.pendingFailures + 1 = world.connection.pendingFailures := by
  obtain ⟨cache, action, traverse, found, isStarted, scope, _⟩ := served.cache
  have opened : cache.isClosed = false := by simp [Cache.isClosed, isStarted]
  obtain ⟨failure, rest, pending⟩ := List.exists_cons_of_ne_nil (List.length_pos_iff.mp
    (Nat.pos_of_ne_zero waiting))
  obtain ⟨connection, acquired, sameRemote, fewer⟩ :=
    Connection.acquire_of_failure pending world.now
  have ends : (world.step).connection = connection := by
    rw [step, front]
    change (World.runFetch { world with queue := tasks } fetch).connection = connection
    unfold runFetch
    simp only [found, opened, scope, acquired, Bool.false_eq_true, if_false]
    rw [connection_of_quiet (quiet_countDown _ _), connection_of_quiet (quiet_report _ _ _ _)]
  rw [ensemble, ends]
  exact ⟨sameRemote, fewer⟩

/-- A fetch has its turn: if it is served it reads, unless a failure is queued, which it takes
instead. -/
structure IsTurn (world : World) (fetch : Fetch) : Prop where
  front : ∃ tasks, world.queue = .fetch fetch :: tasks
  reads : ∀ session, world.IsServed fetch session → world.connection.pendingFailures = 0 →
    world.HasRead fetch session world.step
  fails : ∀ session, world.IsServed fetch session → world.connection.pendingFailures ≠ 0 →
    world.step.ensemble = world.ensemble ∧
      world.step.connection.pendingFailures + 1 = world.connection.pendingFailures

/-- A cache that holds itself cut off, or is told of the loss of the connection, refreshes its base
in full at the first news of a connection. The fetch of the base leaves the queue by its turn
only, and then reads on the present session, unless it takes a failure that is still queued. -/
theorem base_read_after_loss (config : ConnectionConfig) (incidents later : List Incident)
    (id : CacheId) (cache held : Cache) :
    let world := (ofConfig config).undergoAll incidents
    let handed := world.undergoAll later
    world.caches[id]? = some cache → cache.isClosed = false → id ∈ world.connection.parties →
      (cache.connected = false ∨ ∃ loss ∈ later.head?, world.Loses loss) →
      (∀ incident ∈ later, incident.reconnects = false) →
      handed.caches[id]? = some held → held.isClosed = false → id ∈ handed.connection.parties →
      ∃ fetch, handed.Issues id cache.options.basePath fetch handed.regained ∧
        ∀ draining, .fetch fetch ∉ (handed.regained.undergoAll draining).queue →
          ∃ before after, draining = before ++ .step :: after ∧
            (handed.regained.undergoAll before).IsTurn fetch := by
  intro world handed found notClosed member isCut quietly heldFound heldOpen heldMember
  have attended : world.Attended := attended_of_reached config incidents
  have handedAttended : handed.Attended := by
    have reached := attended_of_reached config (incidents ++ later)
    rw [undergoAll_append] at reached
    exact reached
  have isCutOff : handed.IsCutOff id := by
    rcases isCut with unconnected | ⟨loss, isHead, loses⟩
    · have isStarted := (attended id member).isStarted found notClosed
      exact staysCutOff_undergoAll quietly world id
        ⟨cache, found, Or.inr ⟨isStarted, unconnected⟩⟩
    · obtain ⟨others, isLater⟩ := List.head?_eq_some_iff.mp isHead
      have lost := isCutOff_of_loss attended member loses
      change (world.undergoAll later).IsCutOff id
      rw [isLater, undergoAll_cons]
      refine staysCutOff_undergoAll (fun incident isOther => quietly incident ?_) _ id lost
      rw [isLater]
      exact List.mem_cons_of_mem _ isOther
  obtain ⟨other, otherFound, closed | ⟨isStarted, unconnected⟩⟩ := isCutOff
  · rw [heldFound] at otherFound
    cases otherFound
    rw [Cache.isClosed, closed] at heldOpen
    cases heldOpen
  · rw [heldFound] at otherFound
    cases otherFound
    have retained : handed.Retains world := retains_undergoAll attended later
    obtain ⟨_, sameFound, sameOptions⟩ := retained id cache found
    rw [heldFound] at sameFound
    cases sameFound
    have told : handed.Deeds none none handed.regained := deeds_deliverEvent handedAttended _
    have toldAttended := told.attended handedAttended
    obtain ⟨fetch, issues⟩ :=
      exists_issues_regained handedAttended heldMember heldFound isStarted unconnected
    refine ⟨fetch, sameOptions ▸ issues, fun draining gone => ?_⟩
    obtain ⟨before, after, tasks, isSplit, front⟩ :=
      exists_turn toldAttended issues.isQueued gone
    refine ⟨before, after, isSplit, ⟨tasks, front⟩, ?_, ?_⟩
    · intro session served calm
      refine served.hasRead front (fun turned turnedFound => ?_) calm
      have retains := told.retains.trans (retains_undergoAll toldAttended before)
      obtain ⟨_, lastFound, lastOptions⟩ := retains id held heldFound
      rw [issues.cache, lastFound] at turnedFound
      cases turnedFound
      rw [issues.path, lastOptions]
    · exact fun session served waiting => served.takes_failure front waiting

/-- A node is created, and a cache of it is started and filled. -/
def filling : List Incident :=
  [Command.startConnection, .announce .syncConnected, .create ['/', 'a'] [1] 0,
    .build ['/', 'a'] [.singleNode .statAndData], .start 0, .step].flatMap Command.incidents

/-- The session expires, and another one is opened at once. -/
def renewing : List Incident := Command.incidents .expireSessions

/-- The session expires while new ones are refused, and another one is opened later. The failure to
open one at once is still queued then. -/
def reopening : List Incident :=
  [Command.refuseSessions true, .expireSessions, .refuseSessions false,
    .startConnection].flatMap Command.incidents

/-- The filled cache at the end of a handover, before the new session has told of anything. -/
def handedOver (later : List Incident) : World :=
  ((ofConfig defaultConfig).undergoAll filling).undergoAll later

theorem base_read_after_renewal :
    (handedOver renewing).connection.session = some 2 ∧
      (handedOver renewing).regained.HasRead
        { cache := 0, refresh := 1, path := ['/', 'a'], full := true } 2
        (handedOver renewing).regained.step := by
  have isFilled : (((ofConfig defaultConfig).undergoAll filling).caches[0]?).map
      (fun cache => (cache.isClosed, cache.options.basePath)) = some (false, ['/', 'a']) := by
    decide +kernel
  have isHeld : ((handedOver renewing).caches[0]?).map (fun cache => cache.isClosed) =
      some false := by
    decide +kernel
  obtain ⟨cache, found, isCache⟩ := Option.map_eq_some_iff.mp isFilled
  obtain ⟨held, heldFound, heldOpen⟩ := Option.map_eq_some_iff.mp isHeld
  obtain ⟨notClosed, basePath⟩ := Prod.mk.inj isCache
  have loses : ((ofConfig defaultConfig).undergoAll filling).Loses
      (.command .expireSessions rfl) :=
    ⟨{ id := 1, handler := 1, dataWatches := [['/', 'a']] }, by decide +kernel⟩
  obtain ⟨fetch, issues, turns⟩ := base_read_after_loss defaultConfig filling renewing 0 cache held
    found notClosed (by decide +kernel) (Or.inr ⟨_, rfl, loses⟩) (by decide +kernel) heldFound
    heldOpen (by decide +kernel)
  have isFetch : fetch = { cache := 0, refresh := 1, path := ['/', 'a'], full := true } := by
    have onlyOne : (handedOver renewing).regained.queue.filterMap Task.refresh? = [1] := by
      decide +kernel
    have isQueued : fetch.refresh ∈ (handedOver renewing).regained.queue.filterMap Task.refresh? :=
      List.mem_filterMap.mpr ⟨_, issues.isQueued, rfl⟩
    rw [onlyOne, List.mem_singleton] at isQueued
    have sameCache := issues.cache
    have samePath := issues.path.trans basePath
    have isFull := issues.isFull
    obtain ⟨_, _, _, _⟩ := fetch
    simp only at isQueued sameCache samePath isFull
    rw [isQueued, sameCache, samePath, isFull]
  subst isFetch
  have gone : (handedOver renewing).regained.step.queue.filterMap Task.refresh? = [] := by
    decide +kernel
  obtain ⟨before, after, isSplit, turn⟩ := turns [.step] fun queued => by
    have stillThere : 1 ∈ (handedOver renewing).regained.step.queue.filterMap Task.refresh? :=
      List.mem_filterMap.mpr ⟨_, queued, rfl⟩
    rw [gone] at stillThere
    exact absurd stillThere List.not_mem_nil
  have atOnce : before = [] := by
    cases before with
    | nil => rfl
    | cons => simp at isSplit
  subst atOnce
  have isServing : ((handedOver renewing).regained.caches[0]?).map (fun cache =>
      (cache.phase, cache.scope ['/', 'a'])) = some (.started, some (.statAndData, false)) := by
    decide +kernel
  obtain ⟨last, lastFound, isLast⟩ := Option.map_eq_some_iff.mp isServing
  obtain ⟨isStarted, scope⟩ := Prod.mk.inj isLast
  have served : (handedOver renewing).regained.IsServed
      { cache := 0, refresh := 1, path := ['/', 'a'], full := true } 2 :=
    { cache := ⟨last, .statAndData, false, lastFound, isStarted, scope, rfl⟩
      present := by decide +kernel
      connected := by decide +kernel
      healthy := by decide +kernel }
  exact ⟨by decide +kernel, turn.reads 2 served (by decide +kernel)⟩

/-- With the failure still queued, the fetch of the base takes it. The base is not read on the new
session, and no watch is left there. -/
theorem base_unread_after_reopening :
    let handed := handedOver reopening
    let drained := handed.regained.step
    (handedOver []).connection.session = some 1 ∧ handed.connection.session = some 2 ∧
      handed.connection.parties = [0] ∧
      (drained.caches[0]?).map (fun cache => (cache.phase, cache.scope ['/', 'a'])) =
        some (.started, some (.statAndData, false)) ∧
      drained.isIdle = true ∧ drained.connection.session = some 2 ∧
      drained.connection.isConnected = true ∧ drained.ensemble.readFault? 2 ['/', 'a'] = none ∧
      drained.ensemble.reads = handed.ensemble.reads ∧
      drained.ensemble.isArmed 2 .data ['/', 'a'] = false ∧
      drained.ensemble.isArmed 2 .child ['/', 'a'] = false := by
  decide +kernel

/-- After a start while connected nothing is read on the new session, though no failure is queued.
No watch is left there either, so the cache does not hear of the next change. -/
theorem base_stale_after_restart :
    let handed := handedOver (Command.incidents .startConnection)
    let changed := handed.regained.obey (.setData ['/', 'a'] [2])
    (handedOver []).connection.session = some 1 ∧ handed.connection.session = some 2 ∧
      handed.connection.parties = [0] ∧ handed.connection.pendingFailures = 0 ∧
      handed.regained.connection.isConnected = true ∧
      handed.regained.ensemble.reads = handed.ensemble.reads ∧ changed.isIdle = true ∧
      (changed.cached 0 ['/', 'a']).bind Node.data = some [1] ∧
      (changed.ensemble.nodes.get? ['/', 'a']).map RemoteNode.data = some [2] := by
  decide +kernel

end World

end WatchedTree
