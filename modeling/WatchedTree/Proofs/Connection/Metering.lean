import WatchedTree.Proofs.Connection.Calls

/-!
# A connection over another remote side

A connection knows of its remote side only what it answers. Over a remote side that gives the same
answers it therefore does the same. In particular nothing changes for a connection if the attempts
to open a session are counted.
-/
namespace WatchedTree

/-- The remote side that another one is mapped to gives the same answers. -/
structure Transport.IsHom {First Second : Type} [Transport First] [Transport Second]
    (map : First → Second) : Prop where
  connect : ∀ remote connectString timeout generation,
    Transport.connect (map remote) connectString timeout generation =
      Prod.map id map (Transport.connect remote connectString timeout generation)
  close : ∀ remote session,
    Transport.close (map remote) session = Prod.map id map (Transport.close remote session)

variable {First Second Remote Listener : Type}

/-- The same call where the remote side is of another kind. -/
def ConnectionCall.mapRemote (map : First → Second) :
    ConnectionCall First Listener → ConnectionCall Second Listener
  | start => start
  | acquire => acquire
  | close => close
  | absorb event => absorb event
  | pollFailure => pollFailure
  | readCounters => readCounters
  | substituteObserver observer => substituteObserver observer
  | listen listener => listen listener
  | unlisten registration => unlisten registration
  | turn remote => turn (map remote)

namespace Connection

/-- The same connection over a remote side of another kind. -/
def mapRemote (map : First → Second) (connection : Connection First Listener) :
    Connection Second Listener :=
  { connection with remote := map connection.remote }

section Naturality

variable [Transport First] [Transport Second] {map : First → Second}

theorem dropSession_mapRemote (isHom : Transport.IsHom map)
    (connection : Connection First Listener) :
    (connection.mapRemote map).dropSession = connection.dropSession.mapRemote map := by
  have session : (connection.mapRemote map).session = connection.session := rfl
  unfold dropSession
  rw [session]
  cases connection.session with
  | none => rfl
  | some held => simp only [mapRemote, isHom.close, Prod.map]

theorem attempt_mapRemote (isHom : Transport.IsHom map) (connection : Connection First Listener) :
    (connection.mapRemote map).attempt = Prod.map id map connection.attempt :=
  isHom.connect _ _ _ _

theorem openSession_mapRemote (isHom : Transport.IsHom map)
    (connection : Connection First Listener) (now : Moment) :
    (connection.mapRemote map).openSession now =
      Prod.map id (mapRemote map) (connection.openSession now) := by
  by_cases closed : connection.isClosed = true
  · have stillClosed : (connection.mapRemote map).isClosed = true := closed
    rw [openSession_of_closed closed, openSession_of_closed stillClosed]
    rfl
  · have notClosed : connection.isClosed = false := eq_false_of_ne_true closed
    have stillOpen : (connection.mapRemote map).isClosed = false := notClosed
    rw [openSession_eq notClosed, openSession_eq stillOpen, dropSession_mapRemote isHom,
      attempt_mapRemote isHom]
    rcases connection.dropSession.attempt with ⟨fault | session, remote⟩
    · rfl
    · rfl

theorem reopen_mapRemote (isHom : Transport.IsHom map)
    (connection : Connection First Listener) (now : Moment) :
    (connection.mapRemote map).reopen now =
      Prod.map id (mapRemote map) (connection.reopen now) := by
  unfold reopen
  rw [openSession_mapRemote isHom]
  rcases connection.openSession now with ⟨failure | opened, after⟩
  · rfl
  · have session : (after.mapRemote map).session = after.session := rfl
    simp only [Prod.map, id_eq, session]
    cases after.session with
    | none => rfl
    | some session => rfl

theorem acquire_mapRemote (isHom : Transport.IsHom map)
    (connection : Connection First Listener) (now : Moment) :
    (connection.mapRemote map).acquire now =
      Prod.map id (mapRemote map) (connection.acquire now) := by
  have watcher : (connection.mapRemote map).watcher = connection.watcher := rfl
  have isClosed : (connection.mapRemote map).isClosed = connection.isClosed := rfl
  have overdue : (connection.mapRemote map).overdue? now = connection.overdue? now := rfl
  have session : (connection.mapRemote map).session = connection.session := rfl
  have generation : (connection.mapRemote map).generation = connection.generation := rfl
  unfold acquire
  rw [watcher, isClosed, overdue, session, generation, reopen_mapRemote isHom]
  rcases connection.watcher.poll with ⟨_ | failure, polled⟩
  · cases connection.isClosed with
    | true => rfl
    | false =>
        cases connection.overdue? now with
        | some elapsed => rfl
        | none =>
            cases connection.session with
            | some session => rfl
            | none =>
                by_cases unopened : connection.generation = 0
                · simp only [unopened, Bool.false_eq_true, if_false, if_true]
                  rfl
                · simp only [unopened, Bool.false_eq_true, if_false]
  · rfl

theorem close_mapRemote (isHom : Transport.IsHom map)
    (connection : Connection First Listener) (now : Moment) :
    (connection.mapRemote map).close now =
      Prod.map id (mapRemote map) (connection.close now) := by
  have watcher : (connection.mapRemote map).watcher = connection.watcher := rfl
  have session : (connection.mapRemote map).session = connection.session := rfl
  have closed := isHom.close connection.remote
  unfold close
  rw [watcher, session]
  rcases connection.watcher.mark now .closed with ⟨_ | _, marked⟩
  · rfl
  · cases connection.session with
    | none => rfl
    | some session =>
        simp only [mapRemote, closed]
        rcases Transport.close connection.remote session with ⟨fault | _, remote⟩
        · rfl
        · rfl

theorem resetExpired_mapRemote (isHom : Transport.IsHom map)
    (connection : Connection First Listener) (now : Moment) :
    (connection.mapRemote map).resetExpired now = (connection.resetExpired now).mapRemote map := by
  have opened := openSession_mapRemote isHom
    { connection with
      counters :=
        { connection.counters with
          sessionExpired := connection.counters.sessionExpired.raise } } now
  unfold resetExpired
  simp only [mapRemote] at opened ⊢
  rw [opened]
  rcases openSession _ now with ⟨failure | _, after⟩
  · rfl
  · rfl

theorem absorb_mapRemote (isHom : Transport.IsHom map)
    (connection : Connection First Listener) (now : Moment) (event : Event) :
    (connection.mapRemote map).absorb now event = (connection.absorb now event).mapRemote map := by
  have watcher : (connection.mapRemote map).watcher = connection.watcher := rfl
  unfold absorb
  rw [watcher]
  rcases connection.watcher.observe now event with ⟨_ | transition, observed⟩
  · rfl
  · cases expired : transition.expired with
    | false =>
        simp only [expired]
        rfl
    | true =>
        simp only [expired, if_true]
        exact resetExpired_mapRemote isHom { connection with watcher := observed } now

theorem obey_mapRemote (isHom : Transport.IsHom map) (connection : Connection First Listener)
    (now : Moment) (call : ConnectionCall First Listener) :
    (connection.mapRemote map).obey now (call.mapRemote map) =
      (connection.obey now call).mapRemote map := by
  cases call with
  | start => exact congrArg Prod.snd (openSession_mapRemote isHom connection now)
  | acquire => exact congrArg Prod.snd (acquire_mapRemote isHom connection now)
  | close => exact congrArg Prod.snd (close_mapRemote isHom connection now)
  | absorb event => exact absorb_mapRemote isHom connection now event
  | pollFailure | readCounters | substituteObserver | listen | unlisten | turn => rfl

end Naturality

end Connection

/-! ## Counted attempts -/

/-- A remote side that counts the attempts to open a session. -/
structure Metered (Remote : Type) where
  remote : Remote
  openings : Nat := 0

namespace Metered

variable [Transport Remote]

instance : Transport (Metered Remote) where
  connect metered connectString timeout generation :=
    let (answer, remote) := Transport.connect metered.remote connectString timeout generation
    (answer, { remote, openings := metered.openings + 1 })
  close metered session :=
    let (answer, remote) := Transport.close metered.remote session
    (answer, { metered with remote })

theorem isHom_remote : Transport.IsHom (remote : Metered Remote → Remote) where
  connect _ _ _ _ := rfl
  close _ _ := rfl

end Metered

/-- The same call, with no attempt counted so far. -/
def ConnectionCall.metered (call : ConnectionCall Remote Listener) :
    ConnectionCall (Metered Remote) Listener :=
  call.mapRemote fun remote => { remote }

namespace Connection

/-- The same connection, with no attempt counted so far. -/
def metered (connection : Connection Remote Listener) : Connection (Metered Remote) Listener :=
  connection.mapRemote fun remote => { remote }

variable [Transport Remote]

/-- The number of attempts to open a session that a call makes. -/
def openings (connection : Connection Remote Listener) (now : Moment)
    (call : ConnectionCall Remote Listener) : Nat :=
  (connection.metered.obey now call.metered).remote.openings

/-- Counting changes nothing else. -/
theorem obey_metered (connection : Connection Remote Listener) (now : Moment)
    (call : ConnectionCall Remote Listener) :
    (connection.metered.obey now call.metered).mapRemote Metered.remote =
      connection.obey now call := by
  have sameCall : call.metered.mapRemote Metered.remote = call := by
    cases call <;> rfl
  rw [← obey_mapRemote Metered.isHom_remote, sameCall]
  rfl

theorem openings_of_attempt {connection : Connection (Metered Remote) Listener}
    {answer : Except TransportFault SessionId} {remote : Metered Remote}
    (asked : connection.attempt = (answer, remote)) : 0 < remote.openings := by
  have counted : connection.remote.openings + 1 = remote.openings :=
    congrArg (·.2.openings) asked
  rw [← counted]
  exact Nat.succ_pos _

end Connection

end WatchedTree
