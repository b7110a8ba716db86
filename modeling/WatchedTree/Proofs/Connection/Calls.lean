import WatchedTree.Proofs.Connection.Reopening

/-!
# What a call does to a connection

A request for a handle ends in one of seven ways, an event in one of three. What is recorded along a
run, call by call, is what each call records in the state that it finds.
-/
namespace WatchedTree

theorem ConnectionState.ofKeeper_beq_connected (state : KeeperState) :
    (ofKeeper state == connected) = (state == .syncConnected) := by
  cases state <;> rfl

namespace Connection

variable {Remote Listener : Type} [Transport Remote] {connection : Connection Remote Listener}
  {now : Moment}

/-! ## Requests for a handle -/

/-- How a request for a handle ends, and what it leaves. -/
inductive Acquires (connection : Connection Remote Listener) (now : Moment) :
    Except Failure SessionId → Connection Remote Listener → Prop where
  /-- The oldest failure that waits is handed out instead. -/
  | failed {failure : Failure} {rest : List Failure}
      (waits : connection.watcher.failures.pending = failure :: rest) :
      Acquires connection now (.error failure)
        { connection with
          watcher :=
            { connection.watcher with
              failures := { connection.watcher.failures with pending := rest } }
          counters :=
            { connection.counters with
              backgroundExceptions := connection.counters.backgroundExceptions.raise } }
  | closed (calm : connection.watcher.failures.pending = [])
      (closed : connection.isClosed = true) : Acquires connection now (.error .closed) connection
  | overdue (calm : connection.watcher.failures.pending = [])
      (notClosed : connection.isClosed = false) (overdue : connection.IsOverdue now) :
      Acquires connection now (.error (.connectionTimeout (now - connection.status.since)))
        { connection with
          counters :=
            { connection.counters with
              connectionsTimedOut := connection.counters.connectionsTimedOut.raise } }
  | held {session : SessionId} (calm : connection.watcher.failures.pending = [])
      (notClosed : connection.isClosed = false) (inTime : ¬ connection.IsOverdue now)
      (isHeld : connection.session = some session) :
      Acquires connection now (.ok session) connection
  | unopened (calm : connection.watcher.failures.pending = [])
      (notClosed : connection.isClosed = false) (inTime : ¬ connection.IsOverdue now)
      (missing : connection.session = none) (unopened : connection.generation = 0) :
      Acquires connection now (.error .notStarted) connection
  | refused {fault : TransportFault} {remote : Remote}
      (calm : connection.watcher.failures.pending = [])
      (notClosed : connection.isClosed = false) (inTime : ¬ connection.IsOverdue now)
      (missing : connection.session = none)
      (asked : connection.attempt = (.error fault, remote)) :
      Acquires connection now (.error (.transport fault)) { connection.renewed now with remote }
  | reopened {session : SessionId} {remote : Remote}
      (calm : connection.watcher.failures.pending = [])
      (notClosed : connection.isClosed = false) (inTime : ¬ connection.IsOverdue now)
      (missing : connection.session = none)
      (asked : connection.attempt = (.ok session, remote)) :
      Acquires connection now (.ok session)
        { connection.renewed now with remote, session := some session }

theorem acquires (connection : Connection Remote Listener) (now : Moment) :
    connection.Acquires now (connection.acquire now).1 (connection.acquire now).2 := by
  cases calm : connection.watcher.failures.pending with
  | cons failure rest =>
      have waits : connection.Acquires now _ _ := .failed calm
      unfold acquire SessionWatcher.poll FailureQueue.poll
      rw [calm]
      exact waits
  | nil =>
      by_cases closed : connection.isClosed = true
      · have refused : connection.Acquires now _ _ := .closed calm closed
        unfold acquire SessionWatcher.poll FailureQueue.poll
        simp only [calm, closed, if_true]
        exact refused
      · have notClosed : connection.isClosed = false := eq_false_of_ne_true closed
        by_cases overdue : connection.IsOverdue now
        · rw [acquire_of_overdue notClosed calm overdue]
          exact .overdue calm notClosed overdue
        · cases isHeld : connection.session with
          | some session =>
              have held := Acquires.held calm notClosed overdue isHeld
              unfold acquire SessionWatcher.poll FailureQueue.poll
              simp only [calm, notClosed, overdue?_eq_none_iff.mpr overdue, isHeld,
                Bool.false_eq_true, if_false]
              exact held
          | none =>
              by_cases unopened : connection.generation = 0
              · rw [acquire_of_unopened notClosed calm isHeld overdue unopened]
                exact .unopened calm notClosed overdue isHeld unopened
              · rw [acquire_of_opened notClosed calm isHeld overdue unopened]
                rcases asked : connection.attempt with ⟨fault | session, remote⟩
                · exact .refused calm notClosed overdue isHeld asked
                · exact .reopened calm notClosed overdue isHeld asked

/-! ## Events -/

/-- A connection that has taken note of a session event. -/
def noted (connection : Connection Remote Listener) (now : Moment) (event : Event) :
    Connection Remote Listener :=
  { connection with
    watcher :=
      { connection.watcher with
        status :=
          { state := .ofKeeper event.state
            since :=
              if connection.isConnected = (event.state == .syncConnected) then
                connection.status.since
              else now } } }

/-- A connection whose session has expired, without another one so far. -/
def bereaved (connection : Connection Remote Listener) (now : Moment) :
    Connection Remote Listener :=
  { connection.renewed now with
    session := none
    counters :=
      { connection.counters with sessionExpired := connection.counters.sessionExpired.raise } }

/-- What an event leaves of a connection. -/
inductive Absorbs (connection : Connection Remote Listener) (now : Moment) (event : Event) :
    Connection Remote Listener → Prop where
  | ignored (deaf : event.isSession = false ∨ connection.isClosed = true) :
      Absorbs connection now event connection
  | noted (isSession : event.isSession = true) (notClosed : connection.isClosed = false)
      (goesOn : event.state ≠ .expired) :
      Absorbs connection now event (connection.noted now event)
  | refused {fault : TransportFault} {remote : Remote} (isExpiry : event.isExpiry = true)
      (notClosed : connection.isClosed = false)
      (asked : connection.dropSession.attempt = (.error fault, remote)) :
      Absorbs connection now event
        { connection.bereaved now with
          remote
          watcher := (connection.renewed now).watcher.push (.sessionExpired (.transport fault)) }
  | replaced {session : SessionId} {remote : Remote} (isExpiry : event.isExpiry = true)
      (notClosed : connection.isClosed = false)
      (asked : connection.dropSession.attempt = (.ok session, remote)) :
      Absorbs connection now event
        { connection.bereaved now with remote, session := some session }

/-- Neither the watcher nor the counters matter to an attempt. -/
theorem attempt_dropSession_of_same {other : Connection Remote Listener}
    (remote : other.remote = connection.remote) (config : other.config = connection.config)
    (session : other.session = connection.session)
    (generation : other.generation = connection.generation) :
    other.dropSession.attempt = connection.dropSession.attempt := by
  unfold dropSession
  rw [session]
  cases connection.session with
  | none => simp only [attempt, remote, config, generation]
  | some held => simp only [attempt, remote, config, generation]

theorem resetExpired_eq (notClosed : connection.isClosed = false) (now : Moment) :
    connection.resetExpired now =
      match connection.dropSession.attempt with
      | (.error fault, remote) =>
        { connection.bereaved now with
          remote
          watcher := (connection.renewed now).watcher.push (.sessionExpired (.transport fault)) }
      | (.ok session, remote) =>
        { connection.bereaved now with remote, session := some session } := by
  have isOpen : Connection.isClosed
      { connection with
        counters :=
          { connection.counters with
            sessionExpired := connection.counters.sessionExpired.raise } } = false := notClosed
  have asked : (dropSession
      { connection with
        counters :=
          { connection.counters with
            sessionExpired := connection.counters.sessionExpired.raise } }).attempt =
      connection.dropSession.attempt := attempt_dropSession_of_same rfl rfl rfl rfl
  unfold resetExpired
  simp only [openSession_eq isOpen, asked]
  rcases connection.dropSession.attempt with ⟨fault | session, remote⟩
  · rfl
  · rfl

omit [Transport Remote] in
theorem isClosed_noted (now : Moment) (event : Event) :
    (connection.noted now event).isClosed = false := by
  cases keeper : event.state <;>
    simp [noted, isClosed, status, keeper, ConnectionState.ofKeeper]

/-- The state before the expiry is of no account. -/
theorem resetExpired_noted (notClosed : connection.isClosed = false) (now : Moment)
    (event : Event) :
    (connection.noted now event).resetExpired now = connection.resetExpired now := by
  have asked : (connection.noted now event).dropSession.attempt = connection.dropSession.attempt :=
    attempt_dropSession_of_same rfl rfl rfl rfl
  rw [resetExpired_eq (isClosed_noted now event), resetExpired_eq notClosed, asked]
  rfl

theorem absorb_of_session {event : Event} (isSession : event.isSession = true)
    (notClosed : connection.isClosed = false) (now : Moment) :
    connection.absorb now event =
      if event.state = .expired then connection.resetExpired now
      else connection.noted now event := by
  have state : (connection.watcher.status.state == .closed) = false := notClosed
  have observed : connection.watcher.observe now event =
      (some { previous := connection.watcher.status.state
              current := .ofKeeper event.state },
        (connection.noted now event).watcher) := by
    have since : (if ({ previous := connection.watcher.status.state
                        current := .ofKeeper event.state } :
          SessionTransition).connectivityChanged then now else connection.watcher.status.since) =
        if connection.isConnected = (event.state == .syncConnected) then connection.status.since
        else now := by
      unfold SessionTransition.connectivityChanged isConnected status ConnectionStatus.isConnected
      rw [ConnectionState.ofKeeper_beq_connected]
      cases connection.watcher.status.state == .connected <;>
        cases event.state == .syncConnected <;> rfl
    unfold SessionWatcher.observe noted
    simp only [isSession, state, Bool.not_true, Bool.or_false, Bool.false_eq_true, if_false, since]
  unfold absorb
  rw [observed]
  cases event.state with
  | expired =>
      rw [if_pos rfl, ← resetExpired_noted notClosed now event]
      rfl
  | syncConnected | disconnected => rfl

theorem absorbs (connection : Connection Remote Listener) (now : Moment) (event : Event) :
    connection.Absorbs now event (connection.absorb now event) := by
  by_cases closed : connection.isClosed = true
  · rw [absorb_of_closed closed]
    exact .ignored (Or.inr closed)
  · have notClosed : connection.isClosed = false := eq_false_of_ne_true closed
    by_cases isSession : event.isSession = true
    · rw [absorb_of_session isSession notClosed]
      by_cases isExpired : event.state = .expired
      · have isExpiry : event.isExpiry = true := by simp [Event.isExpiry, isSession, isExpired]
        rw [if_pos isExpired, resetExpired_eq notClosed]
        rcases asked : connection.dropSession.attempt with ⟨fault | session, remote⟩
        · exact .refused isExpiry notClosed asked
        · exact .replaced isExpiry notClosed asked
      · rw [if_neg isExpired]
        exact .noted isSession notClosed isExpired
    · have deaf : connection.Absorbs now event connection :=
        .ignored (Or.inl (eq_false_of_ne_true isSession))
      unfold absorb SessionWatcher.observe
      simp only [isSession, Bool.not_false, Bool.true_or, if_true]
      exact deaf

/-! ## What openings and closings leave alone -/

theorem kept_openSession (connection : Connection Remote Listener) (now : Moment) :
    (connection.openSession now).2.watcher.failures = connection.watcher.failures ∧
      (connection.openSession now).2.counters = connection.counters ∧
      (connection.openSession now).2.config = connection.config := by
  by_cases closed : connection.isClosed = true
  · rw [openSession_of_closed closed]
    exact ⟨rfl, rfl, rfl⟩
  · rw [openSession_eq (eq_false_of_ne_true closed)]
    rcases connection.dropSession.attempt with ⟨fault | session, remote⟩
    · exact ⟨rfl, rfl, rfl⟩
    · exact ⟨rfl, rfl, rfl⟩

theorem kept_close (connection : Connection Remote Listener) (now : Moment) :
    (connection.close now).2.watcher.failures = connection.watcher.failures ∧
      (connection.close now).2.counters = connection.counters ∧
      (connection.close now).2.config = connection.config := by
  have marked : (connection.watcher.mark now .closed).2.failures = connection.watcher.failures := by
    unfold SessionWatcher.mark
    split <;> rfl
  unfold close
  split
  · exact ⟨rfl, rfl, rfl⟩
  next watcher isMarked =>
    rw [isMarked] at marked
    simp only
    split
    · exact ⟨marked, rfl, rfl⟩
    · split <;> exact ⟨marked, rfl, rfl⟩

theorem config_obey (connection : Connection Remote Listener) (now : Moment)
    (call : ConnectionCall Remote Listener) :
    (connection.obey now call).config = connection.config := by
  cases call with
  | start => exact (kept_openSession connection now).2.2
  | acquire =>
      have acquired := connection.acquires now
      rw [obey]
      generalize connection.acquire now = answer at acquired ⊢
      obtain ⟨result, after⟩ := answer
      cases acquired <;> rfl
  | close => exact (kept_close connection now).2.2
  | absorb event =>
      have absorbed := connection.absorbs now event
      rw [obey]
      generalize connection.absorb now event = after at absorbed ⊢
      cases absorbed <;> rfl
  | pollFailure | readCounters | substituteObserver | listen | unlisten | turn => rfl

theorem config_obeyAll (connection : Connection Remote Listener)
    (calls : List (Moment × ConnectionCall Remote Listener)) :
    (connection.obeyAll calls).config = connection.config := by
  induction calls generalizing connection with
  | nil => rfl
  | cons timed others inductionHypothesis =>
      exact (inductionHypothesis _).trans (config_obey connection timed.1 timed.2)

/-! ## Records along a run -/

theorem obeyAll_append (connection : Connection Remote Listener)
    (first second : List (Moment × ConnectionCall Remote Listener)) :
    connection.obeyAll (first ++ second) = (connection.obeyAll first).obeyAll second :=
  List.foldl_append

/-- What is recorded along a run, each call in the state that it finds. -/
def along {Item : Type}
    (record :
      Connection Remote Listener → Moment → ConnectionCall Remote Listener → List Item) :
    Connection Remote Listener → List (Moment × ConnectionCall Remote Listener) → List Item
  | _, [] => []
  | connection, (now, call) :: calls =>
    record connection now call ++ along record (connection.obey now call) calls

theorem along_append {Item : Type}
    (record :
      Connection Remote Listener → Moment → ConnectionCall Remote Listener → List Item)
    (connection : Connection Remote Listener)
    (first second : List (Moment × ConnectionCall Remote Listener)) :
    connection.along record (first ++ second) =
      connection.along record first ++ (connection.obeyAll first).along record second := by
  induction first generalizing connection with
  | nil => rfl
  | cons timed others inductionHypothesis =>
      rw [List.cons_append, along, along, inductionHypothesis, List.append_assoc]
      rfl

theorem along_concat {Item : Type}
    (record :
      Connection Remote Listener → Moment → ConnectionCall Remote Listener → List Item)
    (connection : Connection Remote Listener)
    (calls : List (Moment × ConnectionCall Remote Listener))
    (last : Moment × ConnectionCall Remote Listener) :
    connection.along record (calls ++ [last]) =
      connection.along record calls ++ record (connection.obeyAll calls) last.1 last.2 := by
  rw [along_append, along, along, List.append_nil]

end Connection

end WatchedTree
