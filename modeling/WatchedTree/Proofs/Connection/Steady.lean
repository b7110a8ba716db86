import WatchedTree.Connection.Machine

/-!
# A steady connection

A session that is at hand is handed out as it is, and leaves the connection as it was. So is one
that is connected, with no failure waiting. Events of nodes pass the connection by.
-/
namespace WatchedTree

namespace Connection

variable {Remote Listener : Type} [Transport Remote] {connection : Connection Remote Listener}
  {session : SessionId}

structure IsSteady (connection : Connection Remote Listener) (session : SessionId) : Prop where
  session : connection.session = some session
  connected : connection.watcher.status.state = .connected
  calm : connection.watcher.failures.pending = []

/-- The session can be handed out at a moment, with nothing to be done about it. -/
structure IsAtHand (connection : Connection Remote Listener) (now : Moment)
    (session : SessionId) : Prop where
  session : connection.session = some session
  calm : connection.watcher.failures.pending = []
  notClosed : connection.isClosed = false
  inTime : connection.overdue? now = none

theorem IsAtHand.acquire {now : Moment} (atHand : connection.IsAtHand now session) :
    connection.acquire now = (.ok session, connection) := by
  unfold Connection.acquire
  simp [SessionWatcher.poll, FailureQueue.poll, atHand.calm, atHand.notClosed, atHand.inTime,
    atHand.session]

omit [Transport Remote] in
theorem IsSteady.isAtHand (steady : connection.IsSteady session) (now : Moment) :
    connection.IsAtHand now session where
  session := steady.session
  calm := steady.calm
  notClosed := by simp [isClosed, status, steady.connected]
  inTime := by
    simp [overdue?, isConnected, status, ConnectionStatus.isConnected, steady.connected]

theorem IsSteady.acquire (steady : connection.IsSteady session) (now : Moment) :
    connection.acquire now = (.ok session, connection) :=
  (steady.isAtHand now).acquire

/-- A failure that waits goes to whoever asks for the session, who gets nothing else. -/
theorem acquire_of_failure {failure : Failure} {rest : List Failure}
    (waits : connection.watcher.failures.pending = failure :: rest) (now : Moment) :
    ∃ after, connection.acquire now = (.error failure, after) ∧ after.remote = connection.remote ∧
      after.pendingFailures + 1 = connection.pendingFailures := by
  have polled : connection.watcher.poll =
      (some failure,
        { connection.watcher with
          failures := { connection.watcher.failures with pending := rest } }) := by
    unfold SessionWatcher.poll FailureQueue.poll
    rw [waits]
  unfold Connection.acquire
  rw [polled]
  refine ⟨_, rfl, rfl, ?_⟩
  rw [pendingFailures, pendingFailures, FailureQueue.size, FailureQueue.size, waits]
  rfl

theorem watcher_dropSession (connection : Connection Remote Listener) :
    connection.dropSession.watcher = connection.watcher ∧
      connection.dropSession.config = connection.config := by
  unfold dropSession
  split <;> exact ⟨rfl, rfl⟩

/-- A session that was opened now has its whole time before it. -/
theorem openSession_ok {now : Moment} {after : Connection Remote Listener}
    (opened : connection.openSession now = (.ok (), after)) :
    after.watcher = { connection.watcher with status := { state := .latent, since := now } } ∧
      after.config = connection.config := by
  unfold openSession at opened
  split at opened
  next => cases opened
  next notClosed =>
    have state : connection.watcher.status.state ≠ .closed := by
      intro isClosed
      simp [Connection.isClosed, status, isClosed] at notClosed
    have marked : (connection.watcher.mark now .latent).2 =
        { connection.watcher with status := { state := .latent, since := now } } := by
      rw [SessionWatcher.mark, if_neg state]
    obtain ⟨watcher, config⟩ := watcher_dropSession
      { connection with
        watcher := (connection.watcher.mark now .latent).2
        generation := connection.generation + 1 }
    simp only at opened watcher config
    generalize dropSession
      { connection with
        watcher := (connection.watcher.mark now .latent).2
        generation := connection.generation + 1 } = latent at opened watcher config
    split at opened
    next => cases opened
    next =>
      cases opened
      exact ⟨watcher.trans marked, config⟩

theorem isAtHand_of_reopen {now : Moment} {after : Connection Remote Listener}
    (reopened : connection.reopen now = (.ok session, after))
    (calm : connection.watcher.failures.pending = [])
    (positive : connection.config.connectionTimeoutMillis ≠ 0) : after.IsAtHand now session := by
  have someTime : 0 < connection.config.connectionTimeout :=
    Nat.mul_pos (Nat.pos_of_ne_zero positive) (by decide)
  unfold reopen at reopened
  split at reopened
  next => cases reopened
  next middle opened =>
    obtain ⟨watcher, config⟩ := openSession_ok opened
    split at reopened
    next => cases reopened
    next held isHeld =>
      cases reopened
      refine ⟨isHeld, ?_, ?_, ?_⟩
      · rw [watcher]
        exact calm
      · rw [isClosed, status, watcher]
        rfl
      · have inTime : ¬ after.config.connectionTimeout ≤ now - now := by
          rw [config, Nat.sub_self]
          exact Nat.not_le.mpr someTime
        have since : after.status.since = now := by rw [status, watcher]
        have notConnected : after.isConnected = false := by
          rw [isConnected, status, watcher]
          rfl
        unfold overdue?
        simp only [notConnected, Bool.false_eq_true, if_false, since, inTime]

theorem opened_of_acquire {now : Moment} {after : Connection Remote Listener}
    (acquired : connection.acquire now = (.ok session, after)) :
    connection.IsAtHand now session ∧ after = connection ∨
      connection.session = none ∧ connection.watcher.failures.pending = [] ∧
        connection.reopen now = (.ok session, after) := by
  unfold Connection.acquire SessionWatcher.poll FailureQueue.poll at acquired
  cases calm : connection.watcher.failures.pending with
  | cons oldest rest => simp [calm] at acquired
  | nil =>
      simp only [calm] at acquired
      split at acquired
      next => cases acquired
      next notClosed =>
        have isOpen : connection.isClosed = false := eq_false_of_ne_true notClosed
        split at acquired
        next => cases acquired
        next inTime =>
          split at acquired
          next held isHeld =>
            cases acquired
            exact Or.inl ⟨⟨isHeld, calm, isOpen, inTime⟩, rfl⟩
          next missing =>
            split at acquired
            next => cases acquired
            next => exact Or.inr ⟨missing, rfl, acquired⟩

/-- What is handed out and leaves everything as it was is at hand. -/
theorem isAtHand_of_acquire {now : Moment}
    (acquired : connection.acquire now = (.ok session, connection)) :
    connection.IsAtHand now session := by
  rcases opened_of_acquire acquired with ⟨atHand, _⟩ | ⟨missing, _, reopened⟩
  · exact atHand
  · unfold reopen at reopened
    split at reopened
    next => cases reopened
    next =>
      split at reopened
      next => cases reopened
      next held isHeld =>
        cases reopened
        rw [missing] at isHeld
        cases isHeld

/-- What was handed out once is handed out again, if the timeout leaves it any time. -/
theorem acquire_of_acquire {now : Moment} {after : Connection Remote Listener}
    (acquired : connection.acquire now = (.ok session, after))
    (positive : connection.config.connectionTimeoutMillis ≠ 0) :
    after.acquire now = (.ok session, after) := by
  rcases opened_of_acquire acquired with ⟨atHand, rfl⟩ | ⟨_, calm, reopened⟩
  · exact atHand.acquire
  · exact (isAtHand_of_reopen reopened calm positive).acquire

theorem absorb_ofNode (connection : Connection Remote Listener) (now : Moment)
    {kind : EventKind} (isChange : kind ≠ .session) (path : Path) :
    connection.absorb now (.ofNode kind path) = connection := by
  have notSession : (Event.ofNode kind path).isSession = false := by
    cases kind <;> first | rfl | exact absurd rfl isChange
  unfold absorb SessionWatcher.observe
  simp [notSession]

end Connection

end WatchedTree
