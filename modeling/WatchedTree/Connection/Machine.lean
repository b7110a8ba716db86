import WatchedTree.Connection.Counters
import WatchedTree.Connection.Watcher
import WatchedTree.Registry
import WatchedTree.Settings.Config

/-!
One logical session over any number of transport sessions. Every session gets a handler that
carries the generation it was opened in; an event through a handler of an older generation is
dropped, so a session that was given up cannot speak any more.
-/
namespace WatchedTree

/-- The number of a transport session. -/
abbrev SessionId := Nat

/-- The generation in which a handler was handed out. -/
abbrev Generation := Nat

/-- What opens and closes sessions. -/
class Transport (Remote : Type) where
  /-- Opens a session towards a connect string, with a session timeout and the handler of a
  generation. -/
  connect : Remote → Text → Span → Generation → Except TransportFault SessionId × Remote
  close : Remote → SessionId → Except TransportFault Unit × Remote

/-- A connection over a remote, with its observer and listeners. -/
structure Connection (Remote Listener : Type) where
  remote : Remote
  config : ConnectionConfig := {}
  watcher : SessionWatcher := {}
  /-- The present session: none before the start, after the close, and after a failed reopening. -/
  session : Option SessionId := none
  /-- Counts openings, and the close. -/
  generation : Generation := 0
  counters : Counters := {}
  observer : Option Listener := none
  listeners : Registry Listener := {}

namespace Connection

variable {Remote Listener : Type} [Transport Remote]

def status (connection : Connection Remote Listener) : ConnectionStatus :=
  connection.watcher.status

def isConnected (connection : Connection Remote Listener) : Bool :=
  connection.status.isConnected

def isClosed (connection : Connection Remote Listener) : Bool :=
  connection.status.state == .closed

/-- Closes the session that is given up, whatever the transport answers. -/
def dropSession (connection : Connection Remote Listener) : Connection Remote Listener :=
  match connection.session with
  | none => connection
  | some session =>
    { connection with session := none, remote := (Transport.close connection.remote session).2 }

/-- Replaces the session by a new one, under a new generation. -/
def openSession (connection : Connection Remote Listener) (now : Moment) :
    Except Failure Unit × Connection Remote Listener :=
  if connection.isClosed then (.error .closed, connection)
  else
    let latent := dropSession
      { connection with
        watcher := (connection.watcher.mark now .latent).2
        generation := connection.generation + 1 }
    match Transport.connect latent.remote latent.config.connectString
        latent.config.sessionTimeout latent.generation with
    | (.error fault, remote) => (.error (.transport fault), { latent with remote })
    | (.ok session, remote) => (.ok (), { latent with remote, session := some session })

def start (connection : Connection Remote Listener) (now : Moment) :
    Except Failure Unit × Connection Remote Listener :=
  connection.openSession now

/-- The time without a connection, if it has reached the connection timeout. -/
def overdue? (connection : Connection Remote Listener) (now : Moment) : Option Span :=
  if connection.isConnected then none
  else
    let elapsed := now - connection.status.since
    if connection.config.connectionTimeout ≤ elapsed then some elapsed else none

/-- Opens a session again where an earlier opening failed. -/
def reopen (connection : Connection Remote Listener) (now : Moment) :
    Except Failure SessionId × Connection Remote Listener :=
  match connection.openSession now with
  | (.error failure, after) => (.error failure, after)
  | (.ok (), after) =>
    match after.session with
    | none => (.error (.transport .connectionLoss), after)
    | some session => (.ok session, after)

/-- The handle of the session, once no failure is queued, the connection is not closed and the
timeout has not run out. The handle is given out before the service has confirmed the session. -/
def acquire (connection : Connection Remote Listener) (now : Moment) :
    Except Failure SessionId × Connection Remote Listener :=
  match connection.watcher.poll with
  | (some failure, watcher) =>
    (.error failure,
      { connection with
        watcher
        counters :=
          { connection.counters with
            backgroundExceptions := connection.counters.backgroundExceptions.raise } })
  | (none, _) =>
    if connection.isClosed then (.error .closed, connection)
    else match connection.overdue? now with
      | some elapsed =>
        (.error (.connectionTimeout elapsed),
          { connection with
            counters :=
              { connection.counters with
                connectionsTimedOut := connection.counters.connectionsTimedOut.raise } })
      | none =>
        match connection.session with
        | some session => (.ok session, connection)
        | none =>
          if connection.generation = 0 then (.error .notStarted, connection)
          else connection.reopen now

/-- Ends the connection for good. Closing again does nothing. -/
def close (connection : Connection Remote Listener) (now : Moment) :
    Except Failure Unit × Connection Remote Listener :=
  match connection.watcher.mark now .closed with
  | (false, _) => (.ok (), connection)
  | (true, watcher) =>
    let closed :=
      { connection with
        watcher
        generation := connection.generation + 1
        listeners := connection.listeners.clear
        session := none }
    match connection.session with
    | none => (.ok (), closed)
    | some session =>
      match Transport.close connection.remote session with
      | (.error fault, remote) => (.error (.transport fault), { closed with remote })
      | (.ok (), remote) => (.ok (), { closed with remote })

/-- Opens another session after an expiry; a failure to do so is queued. -/
def resetExpired (connection : Connection Remote Listener) (now : Moment) :
    Connection Remote Listener :=
  let counted :=
    { connection with
      counters :=
        { connection.counters with
          sessionExpired := connection.counters.sessionExpired.raise } }
  match counted.openSession now with
  | (.ok (), after) => after
  | (.error failure, after) =>
    { after with watcher := after.watcher.push (.sessionExpired failure) }

/-- What an event does to the connection itself, before anybody is told. -/
def absorb (connection : Connection Remote Listener) (now : Moment) (event : Event) :
    Connection Remote Listener :=
  match connection.watcher.observe now event with
  | (none, _) => connection
  | (some transition, watcher) =>
    let moved := { connection with watcher }
    if transition.expired then moved.resetExpired now else moved

/-- Takes the oldest queued failure. -/
def pollFailure (connection : Connection Remote Listener) :
    Option Failure × Connection Remote Listener :=
  let (failure, watcher) := connection.watcher.poll
  (failure, { connection with watcher })

def pendingFailures (connection : Connection Remote Listener) : Nat :=
  connection.watcher.failures.size

/-- Puts an observer in the place of the present one, which is returned. -/
def substituteObserver (connection : Connection Remote Listener) (observer : Option Listener) :
    Option Listener × Connection Remote Listener :=
  (connection.observer, { connection with observer })

/-- Tells the observer, and then the listeners that are registered after that. -/
def forward {World : Type} (connection : World → Connection Remote Listener)
    (tell : Listener → World → World) (world : World) : World :=
  let told := match (connection world).observer with
    | none => world
    | some observer => tell observer world
  (connection told).listeners.snapshot.foldl (fun state listener => tell listener state) told

/-- The values of the counters. -/
def readCounters (connection : Connection Remote Listener) :
    List Nat × Connection Remote Listener :=
  let (values, counters) := connection.counters.read
  (values, { connection with counters })

def describe (connection : Connection Remote Listener) : Text :=
  Text.openRecord "ConnectionStateMachine"
    [Text.field "config" connection.config.describe,
      Text.field "status" connection.status.describe,
      Text.field "generation" (Text.ofNat connection.generation)]

end Connection

end WatchedTree
