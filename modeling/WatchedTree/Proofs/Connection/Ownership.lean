import WatchedTree.Proofs.Connection.Reopening

/-!
# Who owns a session, and whom the connection hears

A transport counts the sessions it granted and the closings it was asked for. A connection holds at
most one of the granted sessions and has closed each of the others once. Its handlers carry the
generations 1, 2, 3 and so on; it hears the last of them, and after the close none.
-/
namespace WatchedTree

namespace ScriptedTransport

/-- Holds of the sessions that an opening has returned. -/
def Granted (remote : ScriptedTransport) (session : SessionId) : Prop :=
  session < remote.handlers.length ∧ answer remote.connects session session = .ok session

/-- How often the transport was asked to close a session. -/
def closings (remote : ScriptedTransport) (session : SessionId) : Nat :=
  remote.calls.count (.close session)

/-- Of the granted sessions all but the held one were closed, each once, and no other was. -/
structure Accounts (remote : ScriptedTransport) (held : Option SessionId) : Prop where
  granted : ∀ session, held = some session → remote.Granted session
  released : ∀ session, remote.Granted session → held ≠ some session → remote.closings session = 1
  untouched : ∀ session, (remote.Granted session → held = some session) →
    remote.closings session = 0

variable {remote : ScriptedTransport} {session : SessionId}

theorem granted_connect_iff {connectString : Text} {timeout : Span} {generation : Generation} :
    (Transport.connect remote connectString timeout generation).2.Granted session ↔
      remote.Granted session ∨
        session = remote.handlers.length ∧
          (Transport.connect remote connectString timeout generation).1 = .ok session := by
  unfold Granted
  change session < (remote.handlers ++ [generation]).length ∧
      answer remote.connects session session = .ok session ↔
    (session < remote.handlers.length ∧ answer remote.connects session session = .ok session) ∨
      session = remote.handlers.length ∧
        answer remote.connects remote.handlers.length remote.handlers.length = .ok session
  rw [List.length_append, List.length_singleton]
  constructor
  · rintro ⟨within, accepted⟩
    rcases Nat.lt_succ_iff_lt_or_eq.mp within with earlier | rfl
    · exact Or.inl ⟨earlier, accepted⟩
    · exact Or.inr ⟨rfl, accepted⟩
  · rintro (⟨earlier, accepted⟩ | ⟨rfl, accepted⟩)
    · exact ⟨Nat.lt_succ_of_lt earlier, accepted⟩
    · exact ⟨Nat.lt_succ_self _, accepted⟩

theorem closings_connect (remote : ScriptedTransport) (connectString : Text) (timeout : Span)
    (generation : Generation) (session : SessionId) :
    (Transport.connect remote connectString timeout generation).2.closings session =
      remote.closings session := by
  change (remote.calls ++ [_]).count _ = _
  rw [List.count_append, List.count_singleton]
  rfl

theorem closings_close (remote : ScriptedTransport) (session other : SessionId) :
    (Transport.close remote session).2.closings other =
      remote.closings other + if session = other then 1 else 0 := by
  change (remote.calls ++ [TransportCall.close session]).count (.close other) = _
  rw [List.count_append, List.count_singleton]
  simp [closings]

/-- An opening answers with the number of its place, or not at all. -/
theorem connect_ok {connectString : Text} {timeout : Span} {generation : Generation}
    (accepted :
      (Transport.connect remote connectString timeout generation).1 = .ok session) :
    session = remote.handlers.length := by
  change answer remote.connects remote.handlers.length remote.handlers.length = _ at accepted
  unfold answer at accepted
  split at accepted
  next => cases accepted
  next =>
    cases accepted
    rfl

/-- Whoever closes the session it holds is left with none, and with its accounts in order. -/
theorem Accounts.close (accounts : remote.Accounts (some session)) :
    (Transport.close remote session).2.Accounts none where
  granted := by
    intro other held
    cases held
  released := by
    intro other granted _
    rw [closings_close]
    by_cases same : session = other
    · subst same
      rw [if_pos rfl, accounts.untouched session fun _ => rfl]
    · rw [if_neg same, accounts.released other granted fun held => same (Option.some.inj held)]
  untouched := by
    intro other notGranted
    have different : session ≠ other := by
      rintro rfl
      cases notGranted (accounts.granted session rfl)
    rw [closings_close, if_neg different]
    exact accounts.untouched other fun granted => absurd (notGranted granted) (by simp)

/-- What an opening returns is held by whoever held nothing before. -/
theorem Accounts.connect (accounts : remote.Accounts none) (connectString : Text) (timeout : Span)
    (generation : Generation) :
    (Transport.connect remote connectString timeout generation).2.Accounts
      (Transport.connect remote connectString timeout generation).1.toOption where
  granted := by
    intro session held
    have accepted : (Transport.connect remote connectString timeout generation).1 = .ok session := by
      cases answered : (Transport.connect remote connectString timeout generation).1 with
      | error fault => simp [answered, Except.toOption] at held
      | ok opened =>
          simp only [answered, Except.toOption, Option.some.injEq] at held
          rw [held]
    exact granted_connect_iff.mpr (Or.inr ⟨connect_ok accepted, accepted⟩)
  released := by
    intro session granted notHeld
    rw [closings_connect]
    rcases granted_connect_iff.mp granted with earlier | ⟨_, accepted⟩
    · exact accounts.released session earlier (by simp)
    · rw [accepted] at notHeld
      exact absurd rfl notHeld
  untouched := by
    intro session notOther
    rw [closings_connect]
    refine accounts.untouched session fun earlier => ?_
    have held := notOther (granted_connect_iff.mpr (Or.inl earlier))
    cases answered : (Transport.connect remote connectString timeout generation).1 with
    | error fault => simp [answered, Except.toOption] at held
    | ok opened =>
        simp only [answered, Except.toOption, Option.some.injEq] at held
        have latest := connect_ok answered
        exact absurd earlier.1 (by rw [← held, latest]; exact Nat.lt_irrefl _)

end ScriptedTransport

namespace Connection

variable {Listener : Type} {connection : Connection ScriptedTransport Listener} {now : Moment}

/-- The connection has its accounts in order, its handlers carry the first generations in order, and
no more sessions were ever asked for than there are handlers. -/
structure IsOwned (connection : Connection ScriptedTransport Listener) : Prop where
  accounts : connection.remote.Accounts connection.session
  ended : connection.isClosed = true → connection.session = none
  handlers : connection.remote.handlers = List.range' 1 connection.remote.handlers.length
  generation : connection.generation =
    connection.remote.handlers.length + if connection.isClosed then 1 else 0

/-- Nothing that concerns neither the transport nor the close disowns a session. -/
theorem IsOwned.of_same {after : Connection ScriptedTransport Listener}
    (owned : connection.IsOwned) (remote : after.remote = connection.remote)
    (session : after.session = connection.session)
    (generation : after.generation = connection.generation)
    (isClosed : after.isClosed = connection.isClosed) : after.IsOwned where
  accounts := by
    rw [remote, session]
    exact owned.accounts
  ended := by
    rw [isClosed, session]
    exact owned.ended
  handlers := by
    rw [remote]
    exact owned.handlers
  generation := by
    rw [remote, generation, isClosed]
    exact owned.generation

/-- A connection that gives up its session has closed it. -/
theorem accounts_dropSession (accounts : connection.remote.Accounts connection.session) :
    connection.dropSession.remote.Accounts none ∧ connection.dropSession.session = none ∧
      connection.dropSession.remote.handlers = connection.remote.handlers := by
  unfold dropSession
  split
  next missing =>
    rw [missing] at accounts
    exact ⟨accounts, missing, rfl⟩
  next session isHeld =>
    rw [isHeld] at accounts
    exact ⟨accounts.close, rfl, rfl⟩

/-- What an attempt to open a session leaves of the transport and of the session. -/
theorem accounts_openSession (notClosed : connection.isClosed = false)
    (accounts : connection.remote.Accounts connection.session) (now : Moment) :
    (connection.openSession now).2.remote.Accounts (connection.openSession now).2.session ∧
      (connection.openSession now).2.remote.handlers =
        connection.remote.handlers ++ [connection.generation + 1] := by
  have isOpen : ¬ connection.isClosed = true := by simp [notClosed]
  have renewed : ({ connection with
      watcher := (connection.watcher.mark now .latent).2
      generation := connection.generation + 1 } :
        Connection ScriptedTransport Listener).remote.Accounts connection.session := accounts
  obtain ⟨dropped, missing, handlers⟩ := accounts_dropSession renewed
  have generation : (dropSession { connection with
      watcher := (connection.watcher.mark now .latent).2
      generation := connection.generation + 1 }).generation = connection.generation + 1 := by
    unfold dropSession
    split <;> rfl
  rw [openSession, if_neg isOpen]
  simp only
  generalize dropSession { connection with
      watcher := (connection.watcher.mark now .latent).2
      generation := connection.generation + 1 } = latent at dropped missing handlers generation
  have connected := dropped.connect latent.config.connectString latent.config.sessionTimeout
    latent.generation
  have handedOver : (Transport.connect latent.remote latent.config.connectString
      latent.config.sessionTimeout latent.generation).2.handlers =
        latent.remote.handlers ++ [latent.generation] := rfl
  rw [handlers, generation] at handedOver
  rw [generation] at connected ⊢
  rcases answered : Transport.connect latent.remote latent.config.connectString
      latent.config.sessionTimeout (connection.generation + 1) with ⟨fault | session, remote⟩
  · rw [answered] at connected handedOver
    refine ⟨?_, handedOver⟩
    simp only
    rw [missing]
    exact connected
  · rw [answered] at connected handedOver
    exact ⟨connected, handedOver⟩

theorem IsOwned.openSession (owned : connection.IsOwned) (now : Moment) :
    (connection.openSession now).2.IsOwned := by
  by_cases closed : connection.isClosed = true
  · rw [openSession_of_closed closed]
    exact owned
  · have notClosed : connection.isClosed = false := eq_false_of_ne_true closed
    obtain ⟨watcher, generation⟩ := openSession_of_open notClosed now
    obtain ⟨accounts, handlers⟩ := accounts_openSession notClosed owned.accounts now
    have stillOpen : (connection.openSession now).2.isClosed = false := by
      rw [isClosed, status, watcher]
      rfl
    have counted : connection.generation = connection.remote.handlers.length := by
      simpa [notClosed] using owned.generation
    have length : (connection.openSession now).2.remote.handlers.length =
        connection.remote.handlers.length + 1 := by
      rw [handlers, List.length_append, List.length_singleton]
    refine ⟨accounts, fun isNow => ?_, ?_, ?_⟩
    · rw [stillOpen] at isNow
      cases isNow
    · rw [length, List.range'_1_concat, ← owned.handlers, handlers, counted, Nat.add_comm]
    · simp [stillOpen, generation, length, counted]

theorem IsOwned.reopen (owned : connection.IsOwned) (now : Moment) :
    (connection.reopen now).2.IsOwned := by
  have opened := owned.openSession now
  unfold Connection.reopen
  split
  next answered =>
    rw [answered] at opened
    exact opened
  next answered =>
    rw [answered] at opened
    split <;> exact opened

theorem IsOwned.acquire (owned : connection.IsOwned) (now : Moment) :
    (connection.acquire now).2.IsOwned := by
  unfold Connection.acquire
  split
  next failure watcher polled =>
    have status : watcher.status = connection.watcher.status := by
      have same : (connection.watcher.poll).2.status = connection.watcher.status := rfl
      rw [← same, polled]
    exact owned.of_same rfl rfl rfl (by simp [isClosed, Connection.status, status])
  · split
    · exact owned
    · split
      · exact owned.of_same rfl rfl rfl rfl
      · split
        · exact owned
        · split
          · exact owned
          · exact owned.reopen now

theorem IsOwned.resetExpired (owned : connection.IsOwned) (now : Moment) :
    (connection.resetExpired now).IsOwned := by
  have counted : IsOwned
      { connection with
        counters :=
          { connection.counters with
            sessionExpired := connection.counters.sessionExpired.raise } } :=
    owned.of_same rfl rfl rfl rfl
  have opened := counted.openSession now
  unfold Connection.resetExpired
  simp only
  split
  next answered =>
    rw [answered] at opened
    exact opened
  next answered =>
    rw [answered] at opened
    exact opened.of_same rfl rfl rfl rfl

theorem IsOwned.absorb (owned : connection.IsOwned) (now : Moment) (event : Event) :
    (connection.absorb now event).IsOwned := by
  by_cases closed : connection.isClosed = true
  · rw [absorb_of_closed closed]
    exact owned
  · have state : (connection.watcher.status.state == .closed) = false := eq_false_of_ne_true closed
    unfold Connection.absorb SessionWatcher.observe
    by_cases isSession : event.isSession = true
    · simp only [isSession, state, Bool.not_true, Bool.or_false, Bool.false_eq_true, if_false]
      have moved : ∀ since : Moment, IsOwned
          { connection with
            watcher :=
              { connection.watcher with
                status := { state := ConnectionState.ofKeeper event.state, since } } } := by
        intro since
        refine owned.of_same rfl rfl rfl ?_
        rw [eq_false_of_ne_true closed]
        cases keeper : event.state <;> simp [isClosed, status, ConnectionState.ofKeeper]
      split
      · exact (moved _).resetExpired now
      · exact moved _
    · simp only [isSession, Bool.not_false, Bool.true_or, if_true]
      exact owned

theorem IsOwned.close (owned : connection.IsOwned) (now : Moment) :
    (connection.close now).2.IsOwned := by
  by_cases closed : connection.isClosed = true
  · have state : connection.watcher.status.state = .closed := by
      simpa [isClosed, status] using closed
    rw [Connection.close, SessionWatcher.mark, if_pos state]
    exact owned
  · have notClosed : connection.isClosed = false := eq_false_of_ne_true closed
    have counted : connection.generation = connection.remote.handlers.length := by
      simpa [notClosed] using owned.generation
    have accounts := owned.accounts
    unfold Connection.close
    rw [mark_of_open notClosed]
    simp only
    split
    next missing =>
      rw [missing] at accounts
      exact ⟨accounts, fun _ => rfl, owned.handlers, by simp [isClosed, status, counted]⟩
    next session isHeld =>
      rw [isHeld] at accounts
      have released := accounts.close
      have handlers : (Transport.close connection.remote session).2.handlers =
          connection.remote.handlers := rfl
      rcases answered : Transport.close connection.remote session with ⟨fault | _, remote⟩
      all_goals
        rw [answered] at released handlers
        simp only at released handlers
        refine ⟨released, fun _ => rfl, ?_, ?_⟩
        · simp only [handlers]
          exact owned.handlers
        · simp [isClosed, status, counted, handlers]

/-- A handler is heard if it is the last one, unless the connection is closed. -/
theorem IsOwned.hears_iff (owned : connection.IsOwned) {handler : Nat} {generation : Generation}
    (handed : connection.remote.handlers[handler]? = some generation) :
    generation = connection.generation ↔
      handler + 1 = connection.remote.handlers.length ∧ connection.isClosed = false := by
  have within : handler < connection.remote.handlers.length :=
    (List.getElem?_eq_some_iff.mp handed).1
  have place : generation = handler + 1 := by
    rw [owned.handlers, List.getElem?_range' within, Option.some.injEq, Nat.one_mul] at handed
    rw [← handed, Nat.add_comm]
  rw [place, owned.generation]
  by_cases closed : connection.isClosed = true
  · simp [closed, Nat.ne_of_lt within]
  · simp [eq_false_of_ne_true closed]

end Connection

/-! ## Rehearsals -/

/-- One thing that happens in a rehearsal. -/
inductive Cue where
  | start
  | close
  | acquire
  | poll
  /-- An event through the handler of an opening, the present one or an old one. -/
  | deliver (handler : Nat) (event : Event)
  | observe (observer : Option Party)
  | listen (party : Party)
  | unlisten (name : Text)
  | readCounters
  | advance (span : Span)
deriving DecidableEq, Repr

namespace Rehearsal

def follow (rehearsal : Rehearsal) : Cue → Rehearsal
  | .start => rehearsal.start.2
  | .close => rehearsal.close.2
  | .acquire => rehearsal.acquire.2
  | .poll => rehearsal.poll.2
  | .deliver handler event => (rehearsal.deliver handler event).getD rehearsal
  | .observe observer => (rehearsal.observe observer).2
  | .listen party => (rehearsal.listen party).2
  | .unlisten name => (rehearsal.unlisten name).2
  | .readCounters => { rehearsal with connection := rehearsal.connection.readCounters.2 }
  | .advance span => rehearsal.advance span

/-- The rehearsal after some cues, one after the other. -/
def followAll (rehearsal : Rehearsal) (cues : List Cue) : Rehearsal := cues.foldl follow rehearsal

/-! ## Acts -/

/-- One act of a rehearsal: a whole cue, or a part of what an event leads to. -/
inductive Act where
  | cue (cue : Cue)
  /-- The connection takes note of an event, from whatever source, and has told nobody yet. -/
  | absorb (event : Event)
  | note (name : Text) (sighting : Sighting)
deriving DecidableEq, Repr

def perform (rehearsal : Rehearsal) : Act → Rehearsal
  | .cue cue => rehearsal.follow cue
  | .absorb event =>
    { rehearsal with connection := rehearsal.connection.absorb rehearsal.now event }
  | .note name sighting => rehearsal.note name sighting

/-- The rehearsal after some acts, one after the other. -/
def performAll (rehearsal : Rehearsal) (acts : List Act) : Rehearsal := acts.foldl perform rehearsal

/-- Holds of the acts that are no deliveries of a whole event. -/
def Act.isSingle : Act → Bool
  | .cue (.deliver _ _) => false
  | _ => true

/-- One state comes of another by single acts. -/
def Leads (before after : Rehearsal) : Prop :=
  ∃ acts, (∀ act ∈ acts, act.isSingle = true) ∧ after = before.performAll acts

variable {before middle after rehearsal : Rehearsal}

theorem Leads.refl (rehearsal : Rehearsal) : rehearsal.Leads rehearsal := ⟨[], by simp, rfl⟩

theorem Leads.head (act : Act) (single : act.isSingle = true)
    (leads : (before.perform act).Leads after) : before.Leads after := by
  obtain ⟨acts, singles, isAfter⟩ := leads
  exact ⟨act :: acts, List.forall_mem_cons.mpr ⟨single, singles⟩, isAfter⟩

theorem Leads.trans (left : before.Leads middle) (right : middle.Leads after) :
    before.Leads after := by
  obtain ⟨first, firstSingle, isMiddle⟩ := left
  obtain ⟨second, secondSingle, isAfter⟩ := right
  refine ⟨first ++ second, List.forall_mem_append.mpr ⟨firstSingle, secondSingle⟩, ?_⟩
  rw [isAfter, isMiddle]
  exact List.foldl_append.symm

/-- What comes of a reaction is noted before the next one begins. -/
theorem leads_react (name : Text) (reactions : List Reaction) (rehearsal : Rehearsal) :
    rehearsal.Leads (react name reactions rehearsal) := by
  induction reactions generalizing rehearsal with
  | nil => exact .refl rehearsal
  | cons reaction others inductionHypothesis =>
      have noted : ∀ (cue : Cue) (sighting : Sighting), (Act.cue cue).isSingle = true →
          rehearsal.Leads (react name others ((rehearsal.follow cue).note name sighting)) := by
        intro cue sighting single
        have noting : ((rehearsal.follow cue).perform (.note name sighting)).Leads
            (react name others ((rehearsal.follow cue).note name sighting)) :=
          inductionHypothesis _
        exact .head _ single (.head _ rfl noting)
      cases reaction with
      | fail => exact .refl rehearsal
      | close => exact noted .close _ rfl
      | acquire => exact noted .acquire _ rfl
      | poll => exact noted .poll _ rfl
      | forget => exact noted (.observe none) _ rfl

theorem leads_tell (event : Event) (party : Party) (rehearsal : Rehearsal) :
    rehearsal.Leads (tell event party rehearsal) :=
  .head (.note party.name (.event event)) rfl (leads_react _ _ _)

theorem leads_tellEach (event : Event) (parties : List Party) (rehearsal : Rehearsal) :
    rehearsal.Leads (parties.foldl (fun state party => tell event party state) rehearsal) := by
  induction parties generalizing rehearsal with
  | nil => exact .refl rehearsal
  | cons party parties inductionHypothesis =>
      exact (leads_tell event party rehearsal).trans (inductionHypothesis _)

/-- An event is noted by the connection, then the parties are told, one after the other. -/
theorem leads_occur (event : Event) (rehearsal : Rehearsal) :
    rehearsal.Leads (rehearsal.occur event) := by
  refine .head (.absorb event) rfl ?_
  change Leads { rehearsal with connection := rehearsal.connection.absorb rehearsal.now event } _
  unfold occur Connection.forward
  simp only
  refine Leads.trans ?_ (leads_tellEach event _ _)
  split
  · exact .refl _
  · exact leads_tell event _ _

theorem leads_deliver (handler : Nat) (event : Event) (rehearsal : Rehearsal) :
    rehearsal.Leads ((rehearsal.deliver handler event).getD rehearsal) := by
  unfold deliver
  split
  · exact .refl rehearsal
  · split
    · exact leads_occur event rehearsal
    · exact .refl rehearsal

/-- What every single act keeps, a run keeps. -/
theorem keeps_performAll (Kept : Rehearsal → Prop)
    (keeps : ∀ (rehearsal : Rehearsal) (act : Act), act.isSingle = true → Kept rehearsal →
      Kept (rehearsal.perform act))
    (acts : List Act) (kept : Kept rehearsal) : Kept (rehearsal.performAll acts) := by
  have throughSingles : ∀ (acts : List Act) (rehearsal : Rehearsal),
      (∀ act ∈ acts, act.isSingle = true) → Kept rehearsal → Kept (rehearsal.performAll acts) := by
    intro acts
    induction acts with
    | nil => exact fun _ _ kept => kept
    | cons act others inductionHypothesis =>
        intro rehearsal singles kept
        obtain ⟨single, rest⟩ := List.forall_mem_cons.mp singles
        exact inductionHypothesis _ rest (keeps rehearsal act single kept)
  induction acts generalizing rehearsal with
  | nil => exact kept
  | cons act others inductionHypothesis =>
      change Kept ((rehearsal.perform act).performAll others)
      apply inductionHypothesis
      by_cases single : act.isSingle = true
      · exact keeps rehearsal act single kept
      · have isDelivery : ∃ handler event, act = .cue (.deliver handler event) := by
          cases act with
          | cue cue =>
              cases cue with
              | deliver handler event => exact ⟨handler, event, rfl⟩
              | _ => exact absurd rfl single
          | absorb | note => exact absurd rfl single
        obtain ⟨handler, event, rfl⟩ := isDelivery
        obtain ⟨parts, singles, isAfter⟩ := leads_deliver handler event rehearsal
        change Kept ((rehearsal.deliver handler event).getD rehearsal)
        rw [isAfter]
        exact throughSingles parts rehearsal singles kept

/-! ## Runs -/

theorem isOwned_perform (owned : rehearsal.connection.IsOwned) {act : Act}
    (single : act.isSingle = true) : (rehearsal.perform act).connection.IsOwned := by
  cases act with
  | absorb event => exact owned.absorb rehearsal.now event
  | note => exact owned
  | cue cue =>
      cases cue with
      | start => exact owned.openSession rehearsal.now
      | close => exact owned.close rehearsal.now
      | acquire => exact owned.acquire rehearsal.now
      | deliver => cases single
      | unlisten name =>
          rw [perform, follow, unlisten]
          split
          · exact owned
          · exact owned.of_same rfl rfl rfl rfl
      | poll | observe | listen | readCounters | advance => exact owned.of_same rfl rfl rfl rfl

theorem isClosed_perform (closed : rehearsal.connection.isClosed = true) {act : Act}
    (single : act.isSingle = true) : (rehearsal.perform act).connection.isClosed = true := by
  cases act with
  | absorb event =>
      rw [perform, Connection.absorb_of_closed closed]
      exact closed
  | note => exact closed
  | cue cue =>
      cases cue with
      | start =>
          rw [perform, follow, start, Connection.start, Connection.openSession_of_closed closed]
          exact closed
      | close => exact Connection.isClosed_close _ _
      | acquire => exact Connection.acquire_of_closed closed
      | deliver => cases single
      | unlisten name =>
          rw [perform, follow, unlisten]
          split <;> exact closed
      | poll | observe | listen | readCounters | advance => exact closed

/-- A run of cues is one of acts. -/
theorem followAll_eq_performAll (rehearsal : Rehearsal) (cues : List Cue) :
    rehearsal.followAll cues = rehearsal.performAll (cues.map Act.cue) := by
  rw [performAll, List.foldl_map]
  rfl

theorem isOwned_followAll (owned : rehearsal.connection.IsOwned) (cues : List Cue) :
    (rehearsal.followAll cues).connection.IsOwned := by
  rw [followAll_eq_performAll]
  exact keeps_performAll (fun state => state.connection.IsOwned)
    (fun _ _ single owned => isOwned_perform owned single) _ owned

/-- From a close on, a connection is closed. -/
theorem isClosed_followAll (rehearsal : Rehearsal) {cues : List Cue} (closes : .close ∈ cues) :
    (rehearsal.followAll cues).connection.isClosed = true := by
  obtain ⟨earlier, later, rfl⟩ := List.append_of_mem closes
  have closed : ((rehearsal.followAll earlier).follow .close).connection.isClosed = true :=
    Connection.isClosed_close _ _
  have split : rehearsal.followAll (earlier ++ .close :: later) =
      ((rehearsal.followAll earlier).follow .close).followAll later := List.foldl_append
  rw [split, followAll_eq_performAll]
  exact keeps_performAll (fun state => state.connection.isClosed = true)
    (fun _ _ single closed => isClosed_perform closed single) _ closed

theorem isOwned_ofScript (config : ConnectionConfig)
    (connects closes : List (Option TransportFault)) :
    (ofScript config connects closes).connection.IsOwned where
  accounts :=
    { granted := fun _ held => by cases held
      released := fun _ granted _ => absurd granted.1 (Nat.not_lt_zero _)
      untouched := fun _ _ => rfl }
  ended := fun _ => rfl
  handlers := rfl
  generation := rfl

/-- Of the sessions that the transport ever returned, the connection has closed each one once, but
for the one that it holds, if any. An event through the last handler is heard as long as the
connection is not closed; one through any other handler leaves everything as it was, and nobody is
told of it. From a close on the connection is closed, and no handler is heard. -/
theorem sessions_closed_once (config : ConnectionConfig)
    (connects closes : List (Option TransportFault)) (cues : List Cue) :
    let rehearsal := (ofScript config connects closes).followAll cues
    let connection := rehearsal.connection
    let remote := connection.remote
    (∀ session, remote.Granted session →
      remote.closings session = if connection.session = some session then 0 else 1) ∧
    (∀ session, connection.session = some session →
      remote.Granted session ∧ connection.isClosed = false) ∧
    (∀ session, ¬ remote.Granted session → remote.closings session = 0) ∧
    (∀ (handler : Nat) (event : Event), handler < remote.handlers.length →
      rehearsal.deliver handler event =
        if handler + 1 = remote.handlers.length ∧ connection.isClosed = false then
          some (rehearsal.occur event)
        else some rehearsal) ∧
    (.close ∈ cues → connection.isClosed = true ∧
      ∀ (handler : Nat) (event : Event), handler < remote.handlers.length →
        rehearsal.deliver handler event = some rehearsal) := by
  intro rehearsal connection remote
  have owned : connection.IsOwned := isOwned_followAll (isOwned_ofScript config connects closes) cues
  have heard : ∀ (handler : Nat) (event : Event), handler < remote.handlers.length →
      rehearsal.deliver handler event =
        if handler + 1 = remote.handlers.length ∧ connection.isClosed = false then
          some (rehearsal.occur event)
        else some rehearsal := by
    intro handler event within
    have handed := List.getElem?_eq_getElem within
    unfold deliver
    rw [handed]
    exact ite_congr (propext (owned.hears_iff handed)) (fun _ => rfl) fun _ => rfl
  refine ⟨?_, ?_, ?_, heard, ?_⟩
  · intro session granted
    split
    next held => exact owned.accounts.untouched session fun _ => held
    next notHeld => exact owned.accounts.released session granted notHeld
  · intro session held
    refine ⟨owned.accounts.granted session held, eq_false_of_ne_true fun closed => ?_⟩
    rw [owned.ended closed] at held
    cases held
  · intro session notGranted
    exact owned.accounts.untouched session fun granted => absurd granted notGranted
  · intro hasClosed
    have closed : connection.isClosed = true := isClosed_followAll _ hasClosed
    refine ⟨closed, fun handler event within => ?_⟩
    rw [heard handler event within, closed]
    exact if_neg fun isOpen => Bool.noConfusion isOpen.2

end Rehearsal

end WatchedTree
