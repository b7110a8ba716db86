import WatchedTree.Connection.Rehearsal
import WatchedTree.Proofs.Connection.Steady

/-!
# A connection without a session

A connection that has no session opens another one for whoever asks for it, as long as its time
without a connection has not run out. The time starts again with every attempt to open a session;
once it has run out, nobody but a start opens one.
-/
namespace WatchedTree

/-- Holds of the events that tell of an expiry. -/
def Event.isExpiry (event : Event) : Bool := event.isSession && event.state == .expired

/-- One thing that is done to a connection, or that its remote side does. -/
inductive ConnectionCall (Remote Listener : Type) where
  | start
  | acquire
  | close
  /-- An event that reaches the connection. -/
  | absorb (event : Event)
  | pollFailure
  | readCounters
  | substituteObserver (observer : Option Listener)
  | listen (listener : Listener)
  | unlisten (registration : RegistrationId)
  /-- The remote side becomes another one. -/
  | turn (remote : Remote)

namespace ConnectionCall

variable {Remote Listener : Type}

/-- Holds of the calls that open a session where none was opened before. -/
def opens : ConnectionCall Remote Listener → Bool
  | start => true
  | absorb event => event.isExpiry
  | _ => false

end ConnectionCall

namespace Connection

variable {Remote Listener : Type} [Transport Remote]

/-- The connection after a call at some moment. -/
def obey (connection : Connection Remote Listener) (now : Moment) :
    ConnectionCall Remote Listener → Connection Remote Listener
  | .start => (connection.start now).2
  | .acquire => (connection.acquire now).2
  | .close => (connection.close now).2
  | .absorb event => connection.absorb now event
  | .pollFailure => connection.pollFailure.2
  | .readCounters => connection.readCounters.2
  | .substituteObserver observer => (connection.substituteObserver observer).2
  | .listen listener =>
    { connection with listeners := (connection.listeners.add listener).2 }
  | .unlisten registration =>
    { connection with listeners := (connection.listeners.remove registration).2 }
  | .turn remote => { connection with remote }

/-- The connection after some calls, one after the other, each at its moment. -/
def obeyAll (connection : Connection Remote Listener)
    (calls : List (Moment × ConnectionCall Remote Listener)) : Connection Remote Listener :=
  calls.foldl (fun state timed => state.obey timed.1 timed.2) connection

/-- Holds once a connection has been without the service for the whole timeout. -/
def IsOverdue (connection : Connection Remote Listener) (now : Moment) : Prop :=
  connection.isConnected = false ∧
    connection.config.connectionTimeout ≤ now - connection.status.since

instance (connection : Connection Remote Listener) (now : Moment) :
    Decidable (connection.IsOverdue now) :=
  inferInstanceAs (Decidable (_ ∧ _))

variable {connection : Connection Remote Listener} {now : Moment}

omit [Transport Remote] in
theorem overdue?_eq_none_iff : connection.overdue? now = none ↔ ¬ connection.IsOverdue now := by
  unfold overdue? IsOverdue
  by_cases connected : connection.isConnected = true
  · simp [connected]
  · by_cases late : connection.config.connectionTimeout ≤ now - connection.status.since
    · simp [connected, late]
    · simp [connected, late]

omit [Transport Remote] in
theorem IsOverdue.overdue?_eq (overdue : connection.IsOverdue now) :
    connection.overdue? now = some (now - connection.status.since) := by
  unfold overdue?
  simp [overdue.1, overdue.2]

/-! ## Attempts to open a session -/

/-- A connection at the beginning of an attempt to open a session. -/
def renewed (connection : Connection Remote Listener) (now : Moment) :
    Connection Remote Listener :=
  { connection with
    watcher := { connection.watcher with status := { state := .latent, since := now } }
    generation := connection.generation + 1 }

/-- The answer of the remote side to an attempt to open a session. -/
def attempt (connection : Connection Remote Listener) : Except TransportFault SessionId × Remote :=
  Transport.connect connection.remote connection.config.connectString
    connection.config.sessionTimeout (connection.generation + 1)

omit [Transport Remote] in
theorem mark_of_open (notClosed : connection.isClosed = false) (now : Moment)
    (state : ConnectionState) :
    connection.watcher.mark now state =
      (true, { connection.watcher with status := { state, since := now } }) := by
  have isOpen : connection.watcher.status.state ≠ .closed := by
    intro closed
    simp [isClosed, status, closed] at notClosed
  rw [SessionWatcher.mark, if_neg isOpen]

theorem dropSession_eq (connection : Connection Remote Listener) :
    connection.dropSession =
      { connection with session := none, remote := connection.dropSession.remote } := by
  unfold dropSession
  cases isHeld : connection.session with
  | none =>
      simp only
      rw [← isHeld]
  | some session => rfl

/-- An attempt gives up the session that is held, starts the clock again, and then asks the remote
side. -/
theorem openSession_eq (notClosed : connection.isClosed = false) (now : Moment) :
    connection.openSession now =
      match connection.dropSession.attempt with
      | (.error fault, remote) =>
        (.error (.transport fault), { connection.renewed now with remote, session := none })
      | (.ok session, remote) =>
        (.ok (), { connection.renewed now with remote, session := some session }) := by
  have latent : dropSession
      { connection with
        watcher := (connection.watcher.mark now .latent).2
        generation := connection.generation + 1 } =
      { connection.renewed now with session := none, remote := connection.dropSession.remote } := by
    rw [mark_of_open notClosed, dropSession_eq]
    unfold dropSession renewed
    cases connection.session <;> rfl
  have asked : connection.dropSession.attempt =
      Transport.connect connection.dropSession.remote connection.config.connectString
        connection.config.sessionTimeout (connection.generation + 1) := by
    rw [dropSession_eq]
    rfl
  have isOpen : ¬ connection.isClosed = true := by simp [notClosed]
  rw [openSession, if_neg isOpen, asked]
  simp only [latent]
  rfl

/-- What an attempt leaves, whether or not it succeeds: the clock starts again under the next
generation. -/
theorem openSession_of_open (notClosed : connection.isClosed = false) (now : Moment) :
    (connection.openSession now).2.watcher = (connection.renewed now).watcher ∧
      (connection.openSession now).2.generation = connection.generation + 1 := by
  rw [openSession_eq notClosed]
  rcases connection.dropSession.attempt with ⟨fault | session, remote⟩
  · exact ⟨rfl, rfl⟩
  · exact ⟨rfl, rfl⟩

/-- Without a session to give up, an attempt asks the remote side and nothing else. -/
theorem openSession_of_none (notClosed : connection.isClosed = false)
    (missing : connection.session = none) :
    connection.openSession now =
      match connection.attempt with
      | (.error fault, remote) =>
        (.error (.transport fault), { connection.renewed now with remote })
      | (.ok session, remote) =>
        (.ok (), { connection.renewed now with remote, session := some session }) := by
  have kept : connection.dropSession = connection := by rw [dropSession, missing]
  rw [openSession_eq notClosed, kept]
  rcases connection.attempt with ⟨fault | session, remote⟩
  · simp only [renewed, missing]
  · rfl

/-! ## Handles without a session -/

section Acquire

variable (notClosed : connection.isClosed = false)
  (calm : connection.watcher.failures.pending = []) (missing : connection.session = none)

include notClosed calm

theorem acquire_of_overdue (overdue : connection.IsOverdue now) :
    connection.acquire now =
      (.error (.connectionTimeout (now - connection.status.since)),
        { connection with
          counters :=
            { connection.counters with
              connectionsTimedOut := connection.counters.connectionsTimedOut.raise } }) := by
  unfold acquire SessionWatcher.poll FailureQueue.poll
  simp only [calm, notClosed, overdue.overdue?_eq, Bool.false_eq_true, if_false]

include missing

theorem acquire_of_unopened (inTime : ¬ connection.IsOverdue now)
    (unopened : connection.generation = 0) :
    connection.acquire now = (.error .notStarted, connection) := by
  unfold acquire SessionWatcher.poll FailureQueue.poll
  simp only [calm, notClosed, overdue?_eq_none_iff.mpr inTime, missing, unopened,
    Bool.false_eq_true, if_false, if_true]

/-- Within its time, a connection that was opened before is opened again. -/
theorem acquire_of_opened (inTime : ¬ connection.IsOverdue now)
    (opened : connection.generation ≠ 0) :
    connection.acquire now =
      match connection.attempt with
      | (.error fault, remote) =>
        (.error (.transport fault), { connection.renewed now with remote })
      | (.ok session, remote) =>
        (.ok session, { connection.renewed now with remote, session := some session }) := by
  unfold acquire SessionWatcher.poll FailureQueue.poll reopen
  simp only [calm, notClosed, overdue?_eq_none_iff.mpr inTime, missing, opened,
    Bool.false_eq_true, if_false, openSession_of_none notClosed missing]
  rcases connection.attempt with ⟨fault | session, remote⟩
  · rfl
  · rfl

omit notClosed in
/-- After a refusal there is the whole time again for another attempt. -/
theorem acquire_of_refused {held : Remote} {later : Moment} {session : SessionId}
    (soon : later - now < connection.config.connectionTimeout)
    (accepted : ({ connection.renewed now with remote := held } :
      Connection Remote Listener).attempt.1 = .ok session) :
    (Connection.acquire { connection.renewed now with remote := held } later).1 = .ok session := by
  have inTime : ¬ Connection.IsOverdue { connection.renewed now with remote := held } later :=
    fun overdue => Nat.not_le.mpr soon overdue.2
  have wasOpened : (connection.renewed now).generation ≠ 0 := Nat.succ_ne_zero _
  have stillOpen : Connection.isClosed { connection.renewed now with remote := held } = false := rfl
  rw [acquire_of_opened stillOpen calm missing inTime wasOpened]
  generalize Connection.attempt { connection.renewed now with remote := held } = answer
    at accepted ⊢
  obtain ⟨outcome, remote⟩ := answer
  simp only at accepted
  subst accepted
  rfl

end Acquire

/-! ## Whether a session was ever opened -/

theorem acquire_of_closed (closed : connection.isClosed = true) :
    (connection.acquire now).2.isClosed = true := by
  unfold acquire SessionWatcher.poll FailureQueue.poll
  cases connection.watcher.failures.pending with
  | nil => simp only [closed, if_true]
  | cons oldest rest => exact closed

/-- Asking for a handle opens a session only where one was opened before. -/
theorem generation_acquire (connection : Connection Remote Listener) (now : Moment) :
    (connection.acquire now).2.generation = 0 ↔ connection.generation = 0 := by
  unfold acquire
  split
  · exact Iff.rfl
  · split
    · exact Iff.rfl
    next notClosed =>
      have isOpen : connection.isClosed = false := eq_false_of_ne_true notClosed
      have opened := (openSession_of_open isOpen now).2
      split
      · exact Iff.rfl
      · split
        · exact Iff.rfl
        · split
          · exact Iff.rfl
          next wasOpened =>
            have reopened : (connection.reopen now).2.generation = connection.generation + 1 := by
              rw [← opened]
              unfold reopen
              split
              next answered => rw [answered]
              next answered =>
                rw [answered]
                split <;> rfl
            rw [reopened]
            exact ⟨fun none => absurd none (Nat.succ_ne_zero _), fun none => absurd none wasOpened⟩

theorem isClosed_close (connection : Connection Remote Listener) (now : Moment) :
    (connection.close now).2.isClosed = true := by
  unfold close SessionWatcher.mark
  by_cases closed : connection.watcher.status.state = .closed
  · rw [if_pos closed]
    simp [isClosed, status, closed]
  · rw [if_neg closed]
    simp only
    split
    · rfl
    · split <;> rfl

theorem absorb_of_closed (closed : connection.isClosed = true) (event : Event) :
    connection.absorb now event = connection := by
  have state : (connection.watcher.status.state == .closed) = true := closed
  unfold absorb SessionWatcher.observe
  simp only [state, Bool.or_true, if_true]

theorem openSession_of_closed (closed : connection.isClosed = true) :
    connection.openSession now = (.error .closed, connection) := by
  rw [openSession, if_pos closed]

/-- The session is opened again, or not, at the moment of its expiry. -/
theorem resetExpired_of_open (notClosed : connection.isClosed = false) :
    (connection.resetExpired now).status = { state := .latent, since := now } ∧
      (connection.resetExpired now).generation = connection.generation + 1 := by
  have isOpen : Connection.isClosed
      { connection with
        counters :=
          { connection.counters with
            sessionExpired := connection.counters.sessionExpired.raise } } = false := notClosed
  obtain ⟨watcher, generation⟩ := openSession_of_open isOpen now
  unfold resetExpired
  simp only
  split
  next after answered =>
    rw [answered] at watcher generation
    exact ⟨congrArg SessionWatcher.status watcher, generation⟩
  next failure after answered =>
    rw [answered] at watcher generation
    exact ⟨congrArg SessionWatcher.status watcher, generation⟩

theorem absorb_of_expiry (notClosed : connection.isClosed = false) {event : Event}
    (isExpiry : event.isExpiry = true) :
    (connection.absorb now event).status = { state := .latent, since := now } ∧
      (connection.absorb now event).generation = connection.generation + 1 := by
  have state : (connection.watcher.status.state == .closed) = false := notClosed
  obtain ⟨isSession, isExpired⟩ := Bool.and_eq_true_iff.mp isExpiry
  have expired : event.state = .expired := eq_of_beq isExpired
  unfold absorb SessionWatcher.observe
  simp only [isSession, state, expired, Bool.not_true, Bool.or_false, Bool.false_eq_true, if_false]
  exact resetExpired_of_open rfl

theorem generation_absorb_of_no_expiry {event : Event} (noExpiry : event.isExpiry = false) :
    (connection.absorb now event).generation = connection.generation := by
  unfold Event.isExpiry at noExpiry
  unfold absorb SessionWatcher.observe
  by_cases isSession : event.isSession = true
  · rw [isSession, Bool.true_and] at noExpiry
    by_cases closed : (connection.watcher.status.state == .closed) = true
    · simp only [closed, Bool.or_true, if_true]
    · have goesOn : (ConnectionState.ofKeeper event.state == .expired) = false := by
        cases keeper : event.state with
        | syncConnected => rfl
        | disconnected => rfl
        | expired =>
            rw [keeper] at noExpiry
            cases noExpiry
      simp only [isSession, closed, goesOn, SessionTransition.expired, Bool.not_true,
        Bool.or_false, Bool.false_eq_true, if_false]
  · simp only [isSession, Bool.not_false, Bool.true_or, if_true]

/-! ## Runs -/

theorem isClosed_obey (closed : connection.isClosed = true)
    (call : ConnectionCall Remote Listener) : (connection.obey now call).isClosed = true := by
  cases call with
  | start =>
      rw [obey, start, openSession_of_closed closed]
      exact closed
  | acquire => exact acquire_of_closed closed
  | close => exact isClosed_close connection now
  | absorb event =>
      rw [obey, absorb_of_closed closed]
      exact closed
  | pollFailure | readCounters | substituteObserver | listen | unlisten | turn => exact closed

theorem isClosed_obeyAll (closed : connection.isClosed = true)
    (calls : List (Moment × ConnectionCall Remote Listener)) :
    (connection.obeyAll calls).isClosed = true := by
  induction calls generalizing connection with
  | nil => exact closed
  | cons timed others inductionHypothesis =>
      exact inductionHypothesis (isClosed_obey closed timed.2)

/-- The first call that opens a session is a start or an expiry. -/
theorem generation_obey (notClosed : connection.isClosed = false)
    {call : ConnectionCall Remote Listener}
    (stillOpen : (connection.obey now call).isClosed = false) :
    (connection.obey now call).generation = 0 ↔
      connection.generation = 0 ∧ call.opens = false := by
  cases call with
  | start =>
      have opened := (openSession_of_open notClosed now).2
      simp [obey, start, opened, ConnectionCall.opens]
  | acquire =>
      rw [obey, generation_acquire]
      simp [ConnectionCall.opens]
  | close =>
      rw [obey, isClosed_close] at stillOpen
      cases stillOpen
  | absorb event =>
      rw [obey, ConnectionCall.opens]
      by_cases isExpiry : event.isExpiry = true
      · rw [(absorb_of_expiry notClosed isExpiry).2]
        simp [isExpiry]
      · have noExpiry : event.isExpiry = false := eq_false_of_ne_true isExpiry
        rw [generation_absorb_of_no_expiry noExpiry]
        simp [noExpiry]
  | pollFailure | readCounters | substituteObserver | listen | unlisten | turn =>
      simp [obey, ConnectionCall.opens, pollFailure, readCounters, substituteObserver]

theorem generation_obeyAll {calls : List (Moment × ConnectionCall Remote Listener)}
    (stillOpen : (connection.obeyAll calls).isClosed = false) :
    (connection.obeyAll calls).generation = 0 ↔
      connection.generation = 0 ∧ ∀ timed ∈ calls, timed.2.opens = false := by
  induction calls generalizing connection with
  | nil => simp [obeyAll]
  | cons timed others inductionHypothesis =>
      have restOpen : ((connection.obey timed.1 timed.2).obeyAll others).isClosed = false :=
        stillOpen
      have nextOpen : (connection.obey timed.1 timed.2).isClosed = false := by
        apply eq_false_of_ne_true
        intro closed
        rw [isClosed_obeyAll closed] at restOpen
        cases restOpen
      have notClosed : connection.isClosed = false := by
        apply eq_false_of_ne_true
        intro closed
        rw [isClosed_obey closed] at nextOpen
        cases nextOpen
      change ((connection.obey timed.1 timed.2).obeyAll others).generation = 0 ↔ _
      rw [inductionHypothesis restOpen, generation_obey notClosed nextOpen, List.forall_mem_cons,
        and_assoc]

/-- A connection without a session refuses a handle for lack of time exactly if it is overdue, and
then does not ask its remote side. In time it says that it was never started, if so it is, and opens
a session otherwise; a refusal starts the clock again, and so does an expiry. -/
theorem acquire_of_no_session (remote : Remote) (config : ConnectionConfig)
    (calls : List (Moment × ConnectionCall Remote Listener)) (now : Moment) :
    let connection := Connection.obeyAll { remote, config } calls
    let answer := connection.acquire now
    connection.isClosed = false →
    (∀ event : Event, event.isExpiry = true →
      (connection.absorb now event).status = { state := .latent, since := now }) ∧
    (connection.watcher.failures.pending = [] → connection.session = none →
      (connection.IsOverdue now →
        answer.1 = .error (.connectionTimeout (now - connection.status.since)) ∧
          answer.2.remote = connection.remote ∧ answer.2.status = connection.status) ∧
      (¬ connection.IsOverdue now → (∀ timed ∈ calls, timed.2.opens = false) →
        answer = (.error .notStarted, connection)) ∧
      (¬ connection.IsOverdue now → (∃ timed ∈ calls, timed.2.opens = true) →
        answer.2.remote = connection.attempt.2 ∧
          match connection.attempt.1 with
          | .ok session => answer.1 = .ok session ∧ answer.2.session = some session
          | .error fault =>
            answer.1 = .error (.transport fault) ∧
              ∀ (later : Moment) (other : Remote) (session : SessionId),
                later - now < connection.config.connectionTimeout →
                  ({ answer.2 with remote := other } : Connection Remote Listener).attempt.1 =
                      .ok session →
                    (Connection.acquire { answer.2 with remote := other } later).1 =
                      .ok session)) := by
  intro connection answer notClosed
  refine ⟨fun event isExpiry => (absorb_of_expiry notClosed isExpiry).1, ?_⟩
  intro calm missing
  have opened : connection.generation = 0 ↔ 0 = 0 ∧ ∀ timed ∈ calls, timed.2.opens = false :=
    generation_obeyAll notClosed
  refine ⟨?_, ?_, ?_⟩
  · intro overdue
    have refused := acquire_of_overdue notClosed calm overdue
    refine ⟨?_, ?_, ?_⟩
    · exact congrArg Prod.fst refused
    · exact congrArg (·.2.remote) refused
    · exact congrArg (·.2.status) refused
  · intro inTime unopened
    exact acquire_of_unopened notClosed calm missing inTime (opened.mpr ⟨rfl, unopened⟩)
  · rintro inTime ⟨timed, member, opens⟩
    have wasOpened : connection.generation ≠ 0 := by
      intro unopened
      have never := (opened.mp unopened).2 timed member
      rw [never] at opens
      cases opens
    have asked : answer = _ := acquire_of_opened notClosed calm missing inTime wasOpened
    clear_value answer
    subst asked
    rcases connection.attempt with ⟨fault | session, held⟩
    · refine ⟨rfl, rfl, ?_⟩
      intro later other session soon accepted
      exact acquire_of_refused calm missing soon accepted
    · exact ⟨rfl, rfl, rfl⟩

/-- What happens to a session that is established and then expires. -/
def lostSession : List (Moment × ConnectionCall ScriptedTransport Party) :=
  [(0, .start), (0, .absorb (.ofSession .syncConnected)), (7, .absorb (.ofSession .expired)),
    (7, .pollFailure)]

/-- The connection after the loss of its first session, on a transport that refuses some of the
others. -/
def bereft (refusals : List (Option TransportFault)) (config : ConnectionConfig) :
    Connection ScriptedTransport Party :=
  Connection.obeyAll { remote := { connects := none :: refusals }, config } lostSession

/-- A session expires and another one is refused. The next one is refused as well, and the one after
that is handed out. -/
theorem acquire_of_refused_twice :
    let connection := bereft [some .connectionLoss, some .connectionLoss] {}
    (connection.isClosed = false ∧ connection.watcher.failures.pending = [] ∧
      connection.session = none ∧ connection.status.since = 7 ∧ ¬ connection.IsOverdue 9) ∧
    (connection.acquire 9).1 = .error (.transport .connectionLoss) ∧
      ((connection.acquire 9).2.acquire 20).1 = .ok 3 := by
  intro connection
  have notClosed : connection.isClosed = false := rfl
  have inTime : ¬ connection.IsOverdue 9 := by decide
  have opened : ∃ timed ∈ lostSession, timed.2.opens = true :=
    ⟨(0, .start), by simp [lostSession], rfl⟩
  obtain ⟨_, handles⟩ := acquire_of_no_session _ {} lostSession 9 notClosed
  obtain ⟨_, _, reopens⟩ := handles rfl rfl
  obtain ⟨_, refused, recovers⟩ := reopens inTime opened
  have soon : 20 - 9 < connection.config.connectionTimeout := by decide
  exact ⟨⟨notClosed, rfl, rfl, rfl, inTime⟩, refused,
    recovers 20 (connection.acquire 9).2.remote 3 soon rfl⟩

/-- A connection that was never started, and one whose session expired and could not be replaced,
both refuse a handle for lack of time after their timeout, though the next session would be
granted. -/
theorem acquire_overdue_without_session :
    let config : ConnectionConfig := { connectionTimeoutMillis := 500 }
    let unstarted : Connection ScriptedTransport Party :=
      Connection.obeyAll { remote := {}, config } []
    let expired := bereft [some .connectionLoss] config
    let late := 7 + Span.ofMillis 500
    (unstarted.isClosed = false ∧ unstarted.watcher.failures.pending = [] ∧
      unstarted.session = none ∧ unstarted.generation = 0 ∧
      (unstarted.acquire late).1 = .error (.connectionTimeout late)) ∧
    (expired.isClosed = false ∧ expired.watcher.failures.pending = [] ∧
      expired.session = none ∧ expired.generation ≠ 0 ∧ expired.attempt.1 = .ok 2 ∧
      (expired.acquire late).1 = .error (.connectionTimeout (late - 7)) ∧
      (expired.acquire late).2.remote = expired.remote) := by
  refine ⟨⟨rfl, rfl, rfl, rfl, rfl⟩, ⟨rfl, rfl, rfl, ?_, rfl, rfl, rfl⟩⟩
  decide

end Connection

end WatchedTree
