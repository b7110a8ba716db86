import WatchedTree.Proofs.Connection.Calls
import WatchedTree.Proofs.Connection.Ownership
import WatchedTree.Proofs.Table.Keys

/-!
# A closed connection

Whatever is done to a connection after its close, it stays closed: it neither asks its transport for
anything nor hears any handler. All that is still to be had of it are the failures that waited, and
it gives them away oldest first.
-/
namespace WatchedTree

namespace Connection

variable {Remote Listener : Type} [Transport Remote] {connection : Connection Remote Listener}
  {now : Moment}

theorem close_of_closed (closed : connection.isClosed = true) :
    connection.close now = (.ok (), connection) := by
  have state : connection.watcher.status.state = .closed := eq_of_beq closed
  rw [close, SessionWatcher.mark, if_pos state]

/-! ## Registrations -/

theorem listeners_openSession (connection : Connection Remote Listener) (now : Moment) :
    (connection.openSession now).2.listeners = connection.listeners := by
  by_cases closed : connection.isClosed = true
  · rw [openSession_of_closed closed]
  · rw [openSession_eq (eq_false_of_ne_true closed)]
    rcases connection.dropSession.attempt with ⟨fault | session, remote⟩
    · rfl
    · rfl

theorem listeners_acquire (connection : Connection Remote Listener) (now : Moment) :
    (connection.acquire now).2.listeners = connection.listeners := by
  have acquired := connection.acquires now
  generalize connection.acquire now = answer at acquired ⊢
  obtain ⟨result, after⟩ := answer
  cases acquired <;> rfl

theorem listeners_absorb (connection : Connection Remote Listener) (now : Moment) (event : Event) :
    (connection.absorb now event).listeners = connection.listeners := by
  have absorbed := connection.absorbs now event
  generalize connection.absorb now event = after at absorbed ⊢
  cases absorbed <;> rfl

/-- The first close ends every registration, and any other none. -/
theorem listeners_close (connection : Connection Remote Listener) (now : Moment) :
    (connection.close now).2.listeners =
      if connection.isClosed then connection.listeners else connection.listeners.clear := by
  by_cases closed : connection.isClosed = true
  · rw [close_of_closed closed, if_pos closed]
  · rw [if_neg closed]
    unfold close
    rw [mark_of_open (eq_false_of_ne_true closed)]
    simp only
    split
    · rfl
    · split <;> rfl

/-! ## After the close -/

/-- What later calls leave of a closed connection: of the failures that waited the newest ones, and
no registration from before. -/
structure Rests (after closed : Connection Remote Listener) : Prop where
  status : after.status = closed.status
  session : after.session = closed.session
  remote : after.remote = closed.remote
  generation : after.generation = closed.generation
  failures : after.watcher.failures.pending <:+ closed.watcher.failures.pending
  registered : ∀ id ∈ after.listeners.entries.keys,
    id ∈ closed.listeners.entries.keys ∨ closed.listeners.next ≤ id
  next : closed.listeners.next ≤ after.listeners.next

omit [Transport Remote] in
theorem Rests.refl (connection : Connection Remote Listener) : connection.Rests connection where
  status := rfl
  session := rfl
  remote := rfl
  generation := rfl
  failures := List.suffix_refl _
  registered := fun _ member => Or.inl member
  next := Nat.le_refl _

omit [Transport Remote] in
theorem Rests.trans {last after closed : Connection Remote Listener} (right : last.Rests after)
    (left : after.Rests closed) : last.Rests closed where
  status := right.status.trans left.status
  session := right.session.trans left.session
  remote := right.remote.trans left.remote
  generation := right.generation.trans left.generation
  failures := right.failures.trans left.failures
  registered := by
    intro id member
    rcases right.registered id member with earlier | later
    · exact left.registered id earlier
    · exact Or.inr (Nat.le_trans left.next later)
  next := Nat.le_trans left.next right.next

omit [Transport Remote] in
theorem Rests.isClosed {after closed : Connection Remote Listener} (rests : after.Rests closed)
    (isClosed : closed.isClosed = true) : after.isClosed = true := by
  rw [Connection.isClosed, rests.status]
  exact isClosed

/-- A request for a handle takes the oldest failure that waits, if there is one, and otherwise
learns of the close. -/
theorem acquire_of_end (closed : connection.isClosed = true) (now : Moment) :
    (connection.acquire now).1 =
        .error (connection.watcher.failures.pending.head?.getD .closed) ∧
      (connection.acquire now).2.watcher.failures.pending =
        connection.watcher.failures.pending.tail ∧
      (connection.acquire now).2.Rests connection := by
  have acquired := connection.acquires now
  have contradicts : connection.isClosed ≠ false := by simp [closed]
  generalize connection.acquire now = answer at acquired ⊢
  obtain ⟨result, after⟩ := answer
  cases acquired with
  | failed waits =>
      refine ⟨by rw [waits]; rfl, by rw [waits]; rfl, { Rests.refl connection with failures := ?_ }⟩
      rw [waits]
      exact List.suffix_cons _ _
  | closed calm _ => exact ⟨by rw [calm]; rfl, by rw [calm]; rfl, Rests.refl _⟩
  | overdue _ notClosed | held _ notClosed | unopened _ notClosed | refused _ notClosed
  | reopened _ notClosed => exact absurd notClosed contradicts

omit [Transport Remote] in
theorem rests_pollFailure (connection : Connection Remote Listener) :
    connection.pollFailure.2.Rests connection := by
  unfold pollFailure SessionWatcher.poll FailureQueue.poll
  cases waits : connection.watcher.failures.pending with
  | nil => exact .refl connection
  | cons oldest rest =>
      refine { Rests.refl connection with failures := ?_ }
      rw [waits]
      exact List.suffix_cons _ _

omit [Transport Remote] in
theorem rests_listen (connection : Connection Remote Listener) (listener : Listener) :
    Rests { connection with listeners := (connection.listeners.add listener).2 } connection := by
  refine { Rests.refl connection with registered := ?_, next := Nat.le_succ _ }
  intro id member
  have keys : (connection.listeners.add listener).2.entries.keys =
      connection.listeners.entries.keys ++ [connection.listeners.next] := List.map_append
  rw [keys, List.mem_append, List.mem_singleton] at member
  exact member.imp_right fun isNext => Nat.le_of_eq isNext.symm

omit [Transport Remote] in
theorem rests_unlisten (connection : Connection Remote Listener) (id : RegistrationId) :
    Rests { connection with listeners := (connection.listeners.remove id).2 } connection := by
  refine { Rests.refl connection with registered := ?_ }
  intro other member
  exact Or.inl (Table.mem_keys_erase.mp member).2

end Connection

namespace Rehearsal

variable {rehearsal closed : Rehearsal}

/-! ## Runs -/

/-- Sessions are owned, and no number was given that is not below the next one. -/
structure IsKept (rehearsal : Rehearsal) : Prop where
  owned : rehearsal.connection.IsOwned
  numbered : ∀ named ∈ rehearsal.names, named.2 < rehearsal.connection.listeners.next

theorem IsKept.perform (kept : rehearsal.IsKept) (act : Act) (single : act.isSingle = true) :
    (rehearsal.perform act).IsKept := by
  have owned := isOwned_perform kept.owned single
  have same : ∀ {after : Rehearsal}, after.connection.IsOwned → after.names = rehearsal.names →
      after.connection.listeners.next = rehearsal.connection.listeners.next → after.IsKept := by
    intro after stillOwned names next
    refine ⟨stillOwned, ?_⟩
    rw [names, next]
    exact kept.numbered
  cases act with
  | absorb event =>
      exact same owned rfl (congrArg Registry.next (Connection.listeners_absorb _ _ event))
  | note => exact same owned rfl rfl
  | cue cue =>
      cases cue with
      | start =>
          exact same owned rfl (congrArg Registry.next (Connection.listeners_openSession _ _))
      | close =>
          refine same owned rfl ?_
          rw [Rehearsal.perform, follow, Rehearsal.close, Connection.listeners_close]
          split <;> rfl
      | acquire =>
          exact same owned rfl (congrArg Registry.next (Connection.listeners_acquire _ _))
      | deliver => cases single
      | listen party =>
          refine ⟨owned, ?_⟩
          intro named member
          rcases List.mem_append.mp member with earlier | isNew
          · exact Nat.lt_succ_of_lt (kept.numbered named earlier)
          · rw [List.mem_singleton.mp isNew]
            exact Nat.lt_succ_self _
      | unlisten name =>
          rw [Rehearsal.perform, follow, unlisten] at owned ⊢
          split at owned
          · exact kept
          · exact same owned rfl rfl
      | poll | observe | readCounters | advance => exact same owned rfl rfl

theorem IsKept.performAll (kept : rehearsal.IsKept) (acts : List Act) :
    (rehearsal.performAll acts).IsKept :=
  keeps_performAll IsKept (fun _ act single kept => kept.perform act single) acts kept

theorem isKept_ofScript (config : ConnectionConfig)
    (connects closes : List (Option TransportFault)) : (ofScript config connects closes).IsKept :=
  ⟨isOwned_ofScript config connects closes, by simp [ofScript]⟩

theorem rests_perform (isClosed : rehearsal.connection.isClosed = true) {act : Act}
    (single : act.isSingle = true) :
    (rehearsal.perform act).connection.Rests rehearsal.connection := by
  cases act with
  | absorb event =>
      rw [perform, Connection.absorb_of_closed isClosed]
      exact .refl _
  | note => exact .refl _
  | cue cue =>
      cases cue with
      | start =>
          rw [perform, follow, start, Connection.start,
            Connection.openSession_of_closed isClosed]
          exact .refl _
      | close =>
          rw [perform, follow, close, Connection.close_of_closed isClosed]
          exact .refl _
      | acquire => exact (Connection.acquire_of_end isClosed rehearsal.now).2.2
      | poll => exact Connection.rests_pollFailure _
      | deliver => cases single
      | listen party => exact Connection.rests_listen _ party
      | unlisten name =>
          rw [perform, follow, unlisten]
          split
          · exact .refl _
          · exact Connection.rests_unlisten _ _
      | observe | readCounters | advance => exact { Connection.Rests.refl _ with }

theorem rests_performAll (isClosed : closed.connection.isClosed = true) (acts : List Act) :
    (closed.performAll acts).connection.Rests closed.connection := by
  refine keeps_performAll (fun state => state.connection.Rests closed.connection) ?_ acts (.refl _)
  intro state act single rests
  exact (rests_perform (rests.isClosed isClosed) single).trans rests

/-! ## The end of a connection -/

/-- The answers to some requests for a handle, one after the other. -/
def acquisitions : Nat → Rehearsal → List (Except Failure SessionId)
  | 0, _ => []
  | count + 1, rehearsal => rehearsal.acquire.1 :: acquisitions count rehearsal.acquire.2

theorem acquisitions_of_closed (isClosed : rehearsal.connection.isClosed = true) (count : Nat) :
    acquisitions count rehearsal =
      (List.range count).map fun place =>
        .error (rehearsal.connection.watcher.failures.pending[place]?.getD .closed) := by
  induction count generalizing rehearsal with
  | zero => rfl
  | succ count inductionHypothesis =>
      obtain ⟨answer, waits, rests⟩ := Connection.acquire_of_end isClosed rehearsal.now
      have stillClosed : rehearsal.acquire.2.connection.isClosed = true := rests.isClosed isClosed
      have later := inductionHypothesis stillClosed
      have pending : rehearsal.acquire.2.connection.watcher.failures.pending =
          rehearsal.connection.watcher.failures.pending.tail := waits
      have first : rehearsal.acquire.1 = .error
          (rehearsal.connection.watcher.failures.pending.head?.getD .closed) := answer
      rw [acquisitions, first, later, pending, List.range_succ_eq_map, List.map_cons, List.map_map,
        List.head?_eq_getElem?]
      simp only [List.getElem?_tail]
      rfl

/-- From a close on, whatever it answered, the status stays, there is no session, and the transport
is asked for nothing. Failures only leave the queue. An event through any handler changes nothing,
and neither does a start or another close. Requests for a handle are answered with the failures that
wait, in order, and then with the close. What was registered before the first close is gone. -/
theorem closed_for_good (config : ConnectionConfig)
    (connects closes : List (Option TransportFault)) (earlier later : List Act) :
    let before := (ofScript config connects closes).performAll earlier
    let closed := before.close.2
    let after := closed.performAll later
    (after.connection.status = closed.connection.status ∧
      after.connection.status.state = .closed ∧ after.connection.session = none) ∧
    after.connection.remote = closed.connection.remote ∧
    after.connection.watcher.failures.pending <:+ closed.connection.watcher.failures.pending ∧
    (∀ (handler : Nat) (event : Event), handler < after.connection.remote.handlers.length →
      after.deliver handler event = some after) ∧
    (before.connection.isClosed = false → ∀ named ∈ before.names,
      named.2 ∉ after.connection.listeners.entries.keys) ∧
    after.start = (.error .closed, after) ∧
    (∀ count, acquisitions count after =
      (List.range count).map fun place =>
        .error (after.connection.watcher.failures.pending[place]?.getD .closed)) ∧
    after.close = (.ok (), after) := by
  intro before closed after
  have isClosed : closed.connection.isClosed = true := Connection.isClosed_close _ _
  have rests : after.connection.Rests closed.connection := rests_performAll isClosed later
  have stillClosed : after.connection.isClosed = true := rests.isClosed isClosed
  have kept : before.IsKept := (isKept_ofScript config connects closes).performAll earlier
  have keptAfter : after.IsKept := (kept.perform (.cue .close) rfl).performAll later
  refine ⟨⟨rests.status, eq_of_beq stillClosed, keptAfter.owned.ended stillClosed⟩, rests.remote,
    rests.failures, ?_, ?_, ?_, acquisitions_of_closed stillClosed, ?_⟩
  · intro handler event within
    have handed := List.getElem?_eq_getElem within
    have unheard : after.connection.remote.handlers[handler] ≠ after.connection.generation := by
      intro present
      have isOpen := ((keptAfter.owned.hears_iff handed).mp present).2
      rw [stillClosed] at isOpen
      cases isOpen
    rw [deliver, handed]
    exact if_neg unheard
  · intro notClosed named member isRegistered
    have listeners : closed.connection.listeners = before.connection.listeners.clear := by
      have cleared := Connection.listeners_close before.connection before.now
      rw [notClosed] at cleared
      exact cleared
    rcases rests.registered named.2 isRegistered with there | fresh
    · rw [listeners] at there
      cases there
    · rw [listeners] at fresh
      exact absurd (kept.numbered named member) (Nat.not_lt_of_le fresh)
  · rw [start, Connection.start, Connection.openSession_of_closed stillClosed]
  · rw [close, Connection.close_of_closed stillClosed]

/-- The close fails, and the session is given up all the same. The failure of the expiry before it
is still handed out. -/
example :
    let rehearsal := ofScript {} [none, some .connectionLoss] [none, none, some .connectionLoss]
    let before := rehearsal.performAll
      [.cue .start, .cue (.deliver 0 (.ofSession .expired)), .cue .start]
    before.connection.session = some 2 ∧
      before.close.1 = .error (.transport .connectionLoss) ∧
      before.close.2.connection.session = none ∧
      acquisitions 3 before.close.2 =
        [.error (.sessionExpired (.transport .connectionLoss)), .error .closed, .error .closed] := by
  decide

/-- A second close answers that all is well, and a listener that was registered before it is
registered still. -/
theorem listener_outlasts_second_close :
    let party : Party := { name := ['l'], reactions := [] }
    let before := (ofScript {} [] []).performAll [.cue .close, .cue (.listen party)]
    before.names = [(['l'], 1)] ∧ before.close.1 = .ok () ∧
      before.close.2.connection.listeners.entries = [(1, party)] := by
  decide

end Rehearsal

end WatchedTree
