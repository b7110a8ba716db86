import Mathlib.Data.List.Induction
import WatchedTree.Proofs.Connection.Metering

/-!
# What the connection timeout is measured from

The clock of a connection was last started by the latest of its construction, the attempts to open
a session, and the session events that connected it or cut it off.
-/
namespace WatchedTree

namespace Connection

variable {Remote Listener : Type} [Transport Remote] {connection : Connection Remote Listener}
  {now : Moment}

/-! ## What starts the clock -/

/-- Holds of the session events that connect the connection, or cut it off. -/
def flips (connection : Connection Remote Listener) (now : Moment) :
    ConnectionCall Remote Listener → Bool
  | .absorb event =>
    event.isSession && (connection.absorb now event).isConnected != connection.isConnected
  | _ => false

/-- The moment of a call, if the call starts the clock. -/
def startsClock (connection : Connection Remote Listener) (now : Moment)
    (call : ConnectionCall Remote Listener) : List Moment :=
  if connection.flips now call = true ∨ 0 < connection.openings now call then [now] else []

theorem startsClock_eq_nil {call : ConnectionCall Remote Listener}
    {after : Connection (Metered Remote) Listener}
    (obeyed : connection.metered.obey now call.metered = after)
    (steady : connection.flips now call = false) (idle : after.remote.openings = 0) :
    connection.startsClock now call = [] := by
  have noOpening : connection.openings now call = 0 := by rw [openings, obeyed, idle]
  refine if_neg ?_
  rintro (flipped | attempted)
  · rw [steady] at flipped
    cases flipped
  · exact Nat.lt_irrefl 0 (noOpening ▸ attempted)

/-! ## One call -/

/-- A call that leaves the connection open keeps the clock, unless it starts the clock. -/
def KeepsClock (connection : Connection Remote Listener) (now : Moment)
    (call : ConnectionCall Remote Listener) : Prop :=
  (connection.obey now call).status.since =
    (connection.startsClock now call).getLastD connection.status.since

section KeepsClock

variable {call : ConnectionCall Remote Listener} {after : Connection (Metered Remote) Listener}
  (obeyed : connection.metered.obey now call.metered = after)

include obeyed

theorem status_of_metered : (connection.obey now call).status = after.status := by
  rw [← obey_metered, obeyed]
  rfl

theorem KeepsClock.of_attempt (attempted : 0 < after.remote.openings)
    (since : after.status.since = now) : connection.KeepsClock now call := by
  have starts : connection.startsClock now call = [now] := by
    refine if_pos (Or.inr ?_)
    rw [openings, obeyed]
    exact attempted
  rw [KeepsClock, status_of_metered obeyed, since, starts]
  rfl

theorem KeepsClock.of_kept (steady : connection.flips now call = false)
    (idle : after.remote.openings = 0) (since : after.status.since = connection.status.since) :
    connection.KeepsClock now call := by
  rw [KeepsClock, status_of_metered obeyed, since, startsClock_eq_nil obeyed steady idle]
  rfl

end KeepsClock

theorem keepsClock_start (notClosed : connection.isClosed = false) (now : Moment) :
    connection.KeepsClock now .start := by
  have isOpen : connection.metered.isClosed = false := notClosed
  have opened := openSession_eq isOpen now
  rcases asked : connection.metered.dropSession.attempt with ⟨fault | session, remote⟩
  · rw [asked] at opened
    exact .of_attempt (congrArg Prod.snd opened) (openings_of_attempt asked) rfl
  · rw [asked] at opened
    exact .of_attempt (congrArg Prod.snd opened) (openings_of_attempt asked) rfl

/-- Only the opening of a session for whoever asks starts the clock. -/
theorem keepsClock_acquire (connection : Connection Remote Listener) (now : Moment) :
    connection.KeepsClock now .acquire := by
  have acquired := connection.metered.acquires now
  generalize isAnswer : connection.metered.acquire now = answer at acquired
  obtain ⟨result, after⟩ := answer
  have obeyed : connection.metered.obey now (ConnectionCall.metered .acquire) = after :=
    congrArg Prod.snd isAnswer
  cases acquired with
  | failed | closed | overdue | held | unopened => exact .of_kept obeyed rfl rfl rfl
  | refused _ _ _ _ asked => exact .of_attempt obeyed (openings_of_attempt asked) rfl
  | reopened _ _ _ _ asked => exact .of_attempt obeyed (openings_of_attempt asked) rfl

theorem keepsClock_absorb (connection : Connection Remote Listener) (now : Moment)
    (event : Event) : connection.KeepsClock now (.absorb event) := by
  have absorbed := connection.metered.absorbs now event
  generalize isAfter : connection.metered.absorb now event = after at absorbed
  have obeyed : connection.metered.obey now (ConnectionCall.metered (.absorb event)) = after :=
    isAfter
  have connected : (connection.absorb now event).isConnected = after.isConnected :=
    congrArg ConnectionStatus.isConnected (status_of_metered obeyed)
  cases absorbed with
  | ignored =>
      have same : (connection.absorb now event).isConnected = connection.isConnected := connected
      exact .of_kept obeyed (by simp [flips, same]) rfl rfl
  | noted isSession =>
      have announced : (connection.metered.noted now event).isConnected =
          (event.state == .syncConnected) :=
        ConnectionState.ofKeeper_beq_connected event.state
      have flipped : connection.flips now (.absorb event) =
          ((event.state == .syncConnected) != connection.isConnected) := by
        rw [flips, isSession, connected, announced, Bool.true_and]
      by_cases same : connection.isConnected = (event.state == .syncConnected)
      · have steady : connection.flips now (.absorb event) = false := by
          rw [flipped, same, bne_self_eq_false]
        exact .of_kept obeyed steady rfl (if_pos same)
      · have turned : connection.flips now (.absorb event) = true := by
          rw [flipped, bne_iff_ne]
          exact Ne.symm same
        have starts : connection.startsClock now (.absorb event) = [now] :=
          if_pos (Or.inl turned)
        rw [KeepsClock, status_of_metered obeyed, starts]
        exact if_neg same
  | refused _ _ asked =>
      exact .of_attempt obeyed (openings_of_attempt asked) rfl
  | replaced _ _ asked =>
      exact .of_attempt obeyed (openings_of_attempt asked) rfl

theorem keepsClock (connection : Connection Remote Listener) {now : Moment}
    {call : ConnectionCall Remote Listener}
    (stillOpen : (connection.obey now call).isClosed = false) :
    connection.KeepsClock now call := by
  cases call with
  | start =>
      have notClosed : connection.isClosed = false := by
        refine eq_false_of_ne_true fun closed => ?_
        rw [isClosed_obey closed] at stillOpen
        cases stillOpen
      exact keepsClock_start notClosed now
  | acquire => exact keepsClock_acquire connection now
  | close =>
      rw [obey, isClosed_close] at stillOpen
      cases stillOpen
  | absorb event => exact keepsClock_absorb connection now event
  | pollFailure | readCounters | substituteObserver | listen | unlisten | turn =>
      exact .of_kept rfl rfl rfl rfl

/-! ## All calls -/

/-- A connection as it is constructed at some moment. -/
def constructed (remote : Remote) (config : ConnectionConfig) (built : Moment) :
    Connection Remote Listener :=
  { remote, config, watcher := { status := { since := built } } }

/-- The moment at which the last of some calls started the clock. -/
def clockStart (connection : Connection Remote Listener)
    (calls : List (Moment × ConnectionCall Remote Listener)) : Moment :=
  (connection.along startsClock calls).getLastD connection.status.since

theorem getLastD_append {Item : Type} (first second : List Item) (default : Item) :
    (first ++ second).getLastD default = second.getLastD (first.getLastD default) := by
  induction first generalizing default with
  | nil => rfl
  | cons item rest inductionHypothesis =>
      rw [List.cons_append, List.getLastD_cons, List.getLastD_cons, inductionHypothesis]

theorem since_obeyAll {calls : List (Moment × ConnectionCall Remote Listener)}
    (stillOpen : (connection.obeyAll calls).isClosed = false) :
    (connection.obeyAll calls).status.since = connection.clockStart calls := by
  induction calls using List.reverseRecOn with
  | nil => rfl
  | append_singleton earlier last inductionHypothesis =>
      have obeyed : connection.obeyAll (earlier ++ [last]) =
          (connection.obeyAll earlier).obey last.1 last.2 :=
        obeyAll_append connection earlier [last]
      rw [obeyed] at stillOpen ⊢
      have notClosed : (connection.obeyAll earlier).isClosed = false := by
        refine eq_false_of_ne_true fun closed => ?_
        rw [isClosed_obey closed] at stillOpen
        cases stillOpen
      rw [clockStart, along_concat, getLastD_append, keepsClock _ stillOpen,
        inductionHypothesis notClosed, clockStart]

theorem sublist_startsClock (connection : Connection Remote Listener)
    (calls : List (Moment × ConnectionCall Remote Listener)) :
    (connection.along startsClock calls).Sublist (calls.map Prod.fst) := by
  induction calls generalizing connection with
  | nil => exact .slnil
  | cons timed others inductionHypothesis =>
      have rest := inductionHypothesis (connection.obey timed.1 timed.2)
      rw [along, startsClock, List.map_cons]
      split
      · exact rest.cons_cons timed.1
      · exact rest.cons timed.1

/-- No moment of an ascending list is later than its last one. -/
theorem le_getLastD_of_ascending {first : Moment} {moments : List Moment}
    (ascending : (first :: moments).Pairwise (· ≤ ·)) :
    ∀ moment ∈ first :: moments, moment ≤ moments.getLastD first := by
  induction moments generalizing first with
  | nil => simp
  | cons second others inductionHypothesis =>
      obtain ⟨isFirst, rest⟩ := List.pairwise_cons.mp ascending
      have later := inductionHypothesis rest
      intro moment member
      rw [List.getLastD_cons]
      rcases List.mem_cons.mp member with rfl | member
      · exact Nat.le_trans (isFirst second List.mem_cons_self) (later second List.mem_cons_self)
      · exact later moment member

/-! ## Repeated events -/

/-- The arrival of an event. -/
def arrival (told : Moment × Event) : Moment × ConnectionCall Remote Listener :=
  (told.1, .absorb told.2)

/-- Holds where a session event with some state has nothing to change. -/
def Agrees (connection : Connection Remote Listener) (state : KeeperState) : Prop :=
  connection.isClosed = true ∨ connection.isConnected = (state == .syncConnected)

theorem agrees_absorb (connection : Connection Remote Listener) (now : Moment)
    {event : Event} (isSession : event.isSession = true) (goesOn : event.state ≠ .expired) :
    (connection.absorb now event).Agrees event.state := by
  by_cases closed : connection.isClosed = true
  · rw [absorb_of_closed closed]
    exact Or.inl closed
  · rw [absorb_of_session isSession (eq_false_of_ne_true closed), if_neg goesOn]
    exact Or.inr (ConnectionState.ofKeeper_beq_connected event.state)

theorem startsClock_of_agrees {event : Event} (isSession : event.isSession = true)
    (goesOn : event.state ≠ .expired) (agrees : connection.Agrees event.state) :
    connection.startsClock now (.absorb event) = [] := by
  by_cases closed : connection.isClosed = true
  · have isClosed : connection.metered.isClosed = true := closed
    have unmoved : connection.absorb now event = connection := absorb_of_closed closed event
    exact startsClock_eq_nil (absorb_of_closed isClosed event) (by simp [flips, unmoved]) rfl
  · have notClosed : connection.isClosed = false := eq_false_of_ne_true closed
    have isOpen : connection.metered.isClosed = false := notClosed
    have absorbed : connection.absorb now event = connection.noted now event := by
      rw [absorb_of_session isSession notClosed, if_neg goesOn]
    have counted : connection.metered.absorb now event = connection.metered.noted now event := by
      rw [absorb_of_session isSession isOpen, if_neg goesOn]
    have connected : (connection.noted now event).isConnected = connection.isConnected := by
      rw [agrees.resolve_left closed]
      exact ConnectionState.ofKeeper_beq_connected event.state
    exact startsClock_eq_nil counted (by simp [flips, absorbed, connected]) rfl

theorem along_repeats {state : KeeperState} (goesOn : state ≠ .expired)
    {repeats : List (Moment × Event)}
    (told : ∀ timed ∈ repeats, timed.2.isSession = true ∧ timed.2.state = state)
    (agrees : connection.Agrees state) :
    connection.along startsClock (repeats.map arrival) = [] := by
  induction repeats generalizing connection with
  | nil => rfl
  | cons timed others inductionHypothesis =>
      obtain ⟨isSession, isState⟩ := told timed List.mem_cons_self
      subst isState
      have unmoved : connection.startsClock timed.1 (.absorb timed.2) = [] :=
        startsClock_of_agrees isSession goesOn agrees
      have rest := inductionHypothesis
        (fun other member => told other (List.mem_cons_of_mem timed member))
        (agrees_absorb connection timed.1 isSession goesOn)
      rw [List.map_cons, arrival, along, unmoved]
      exact rest

theorem clockStart_repeats (connection : Connection Remote Listener)
    (calls : List (Moment × ConnectionCall Remote Listener)) {state : KeeperState}
    (goesOn : state ≠ .expired) {first : Moment × Event} {repeats : List (Moment × Event)}
    (told : ∀ timed ∈ first :: repeats, timed.2.isSession = true ∧ timed.2.state = state) :
    connection.clockStart (calls ++ (first :: repeats).map arrival) =
      connection.clockStart (calls ++ [arrival first]) := by
  obtain ⟨⟨isSession, isState⟩, others⟩ := List.forall_mem_cons.mp told
  subst isState
  have unmoved : (connection.obeyAll (calls ++ [arrival first])).along startsClock
      (repeats.map arrival) = [] := by
    rw [obeyAll_append]
    exact along_repeats goesOn others (agrees_absorb _ first.1 isSession goesOn)
  rw [clockStart, List.map_cons, List.append_cons, along_append, unmoved, List.append_nil,
    clockStart]

/-! ## Requests for a handle -/

/-- Whoever asks for the session of a connection is refused for lack of time exactly if the
connection is not connected and its clock, as the calls so far have started it, has run for the
whole timeout. The clock started at the latest moment of those that start it, if time goes on, and
repeated events of one state never start it. -/
theorem acquire_of_session (remote : Remote) (config : ConnectionConfig) (built : Moment)
    (calls : List (Moment × ConnectionCall Remote Listener)) :
    let connection : Connection Remote Listener := constructed remote config built
    let after := connection.obeyAll calls
    let since := connection.clockStart calls
    (∀ (now : Moment) (session : SessionId), after.isClosed = false → after.pendingFailures = 0 →
      after.session = some session →
      (after.acquire now).1 =
        if after.isConnected = false ∧ config.connectionTimeout ≤ now - since then
          .error (.connectionTimeout (now - since))
        else .ok session) ∧
    ((built :: calls.map Prod.fst).Pairwise (· ≤ ·) →
      ∀ moment ∈ built :: connection.along startsClock calls, moment ≤ since) ∧
    ∀ (state : KeeperState) (first : Moment × Event) (repeats : List (Moment × Event)),
      state ≠ .expired →
      (∀ told ∈ first :: repeats, told.2.isSession = true ∧ told.2.state = state) →
      connection.clockStart (calls ++ (first :: repeats).map arrival) =
        connection.clockStart (calls ++ [arrival first]) := by
  intro connection after since
  refine ⟨?_, ?_, ?_⟩
  · intro now session notClosed quiet isHeld
    have calm : after.watcher.failures.pending = [] := List.length_eq_zero_iff.mp quiet
    have isSince : after.status.since = since := since_obeyAll notClosed
    have isConfig : after.config = config := config_obeyAll connection calls
    by_cases overdue : after.IsOverdue now
    · rw [acquire_of_overdue notClosed calm overdue, ← isSince, ← isConfig]
      exact (if_pos overdue).symm
    · have atHand : after.IsAtHand now session :=
        ⟨isHeld, calm, notClosed, overdue?_eq_none_iff.mpr overdue⟩
      rw [atHand.acquire, ← isSince, ← isConfig]
      exact (if_neg overdue).symm
  · intro timely
    have sublist := (sublist_startsClock connection calls).cons_cons built
    exact le_getLastD_of_ascending (timely.sublist sublist)
  · intro state first repeats goesOn told
    exact clockStart_repeats connection calls goesOn told

/-- A session that is established and cut off, which is announced twice. -/
def cutOffTwice : List (Moment × ConnectionCall ScriptedTransport Party) :=
  [(2, .start), (3, .absorb (.ofSession .syncConnected)),
    (10, .absorb (.ofSession .disconnected)), (12, .absorb (.ofSession .disconnected))]

/-- The time runs out half a second after the first announcement, and not a nanosecond sooner. -/
theorem acquire_of_cutOffTwice :
    let config : ConnectionConfig := { connectionTimeoutMillis := 500 }
    let connection : Connection ScriptedTransport Party := constructed {} config 1
    let after := connection.obeyAll cutOffTwice
    let late := 10 + Span.ofMillis 500
    (after.isClosed = false ∧ after.pendingFailures = 0 ∧ after.session = some 0) ∧
      (after.acquire (late - 1)).1 = .ok 0 ∧
      (after.acquire late).1 = .error (.connectionTimeout (Span.ofMillis 500)) ∧
      2 ≤ connection.clockStart cutOffTwice ∧
      connection.clockStart (cutOffTwice ++ [arrival (13, .ofSession .disconnected),
        arrival (14, .ofSession .disconnected)]) =
        connection.clockStart (cutOffTwice ++ [arrival (13, .ofSession .disconnected)]) := by
  intro config connection after late
  obtain ⟨acquires, latest, repeated⟩ := acquire_of_session {} config 1 cutOffTwice
  have since : connection.clockStart cutOffTwice = 10 := rfl
  rw [since] at acquires
  have timely : (1 :: cutOffTwice.map Prod.fst).Pairwise (· ≤ ·) := by decide
  refine ⟨⟨rfl, rfl, rfl⟩, ?_, ?_, ?_, ?_⟩
  · exact (acquires (late - 1) 0 rfl rfl rfl).trans (if_neg (by decide))
  · have elapsed : late - 10 = Span.ofMillis 500 := Nat.add_sub_cancel_left 10 _
    rw [acquires late 0 rfl rfl rfl, if_pos (by decide), elapsed]
  · exact latest timely 2 (List.mem_cons_of_mem 1 List.mem_cons_self)
  · refine repeated .disconnected (13, .ofSession .disconnected)
      [(14, .ofSession .disconnected)] (by decide) ?_
    decide

end Connection

end WatchedTree
