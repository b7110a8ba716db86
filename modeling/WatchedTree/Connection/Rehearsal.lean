import WatchedTree.Connection.Machine

/-!
A connection over a scripted transport, with parties that react to events. The script fixes which
openings and closings fail; the rehearsal records every call and everything a party saw.
-/
namespace WatchedTree

/-- A call made to the scripted transport. -/
inductive TransportCall where
  | connect (session : SessionId) (connectString : Text) (timeout : Span)
  | close (session : SessionId)
deriving DecidableEq, Repr

namespace TransportCall

def describe : TransportCall → Text
  | connect session connectString timeout =>
    "connect ".toList ++ Text.ofNat session ++ [' '] ++ connectString ++ [' '] ++ timeout.describe
  | close session => "close ".toList ++ Text.ofNat session

end TransportCall

/-- A transport that answers from a script. The call to open session `n` fails if the script has
a fault in place `n`, and so does the call to close it. -/
structure ScriptedTransport where
  connects : List (Option TransportFault) := []
  closes : List (Option TransportFault) := []
  /-- The generation handed over by each opening, failed ones included. -/
  handlers : List Generation := []
  calls : List TransportCall := []
deriving DecidableEq, Repr

namespace ScriptedTransport

/-- The answer in a place of a script; nothing there, and places beyond it, mean success. -/
def answer {Result : Type} (script : List (Option TransportFault)) (place : Nat)
    (result : Result) : Except TransportFault Result :=
  match script[place]? with
  | some (some fault) => .error fault
  | _ => .ok result

instance : Transport ScriptedTransport where
  connect remote connectString timeout generation :=
    let session := remote.handlers.length
    (answer remote.connects session session,
      { remote with
        handlers := remote.handlers ++ [generation]
        calls := remote.calls ++ [.connect session connectString timeout] })
  close remote session :=
    (answer remote.closes session (), { remote with calls := remote.calls ++ [.close session] })

end ScriptedTransport

/-- What a party does when it is told of an event. -/
inductive Reaction where
  | close
  | acquire
  | poll
  /-- Takes the observer away. -/
  | forget
  /-- The reaction ends here. -/
  | fail
deriving DecidableEq, Repr

/-- An observer or a listener. -/
structure Party where
  name : Text
  reactions : List Reaction
deriving DecidableEq, Repr

/-- What a party saw, and what its reactions came to. -/
inductive Sighting where
  | event (event : Event)
  | closed
  | acquired
  | refused (failure : Failure)
  | polled (failure : Option Failure)
  | forgot (present : Bool)
deriving DecidableEq, Repr

structure Rehearsal where
  connection : Connection ScriptedTransport Party
  now : Moment := 0
  /-- The number of every registration ever made, by name. -/
  names : Table Text RegistrationId := []
  seen : List (Text × Sighting) := []

namespace Rehearsal

/-- A rehearsal of a script. -/
def ofScript (config : ConnectionConfig) (connects closes : List (Option TransportFault)) :
    Rehearsal :=
  { connection := { remote := { connects, closes }, config } }

def note (rehearsal : Rehearsal) (name : Text) (sighting : Sighting) : Rehearsal :=
  { rehearsal with seen := rehearsal.seen ++ [(name, sighting)] }

def start (rehearsal : Rehearsal) : Except Failure Unit × Rehearsal :=
  let (answer, connection) := rehearsal.connection.start rehearsal.now
  (answer, { rehearsal with connection })

def close (rehearsal : Rehearsal) : Except Failure Unit × Rehearsal :=
  let (answer, connection) := rehearsal.connection.close rehearsal.now
  (answer, { rehearsal with connection })

def acquire (rehearsal : Rehearsal) : Except Failure SessionId × Rehearsal :=
  let (answer, connection) := rehearsal.connection.acquire rehearsal.now
  (answer, { rehearsal with connection })

def poll (rehearsal : Rehearsal) : Option Failure × Rehearsal :=
  let (failure, connection) := rehearsal.connection.pollFailure
  (failure, { rehearsal with connection })

def observe (rehearsal : Rehearsal) (observer : Option Party) : Option Party × Rehearsal :=
  let (previous, connection) := rehearsal.connection.substituteObserver observer
  (previous, { rehearsal with connection })

/-- Runs reactions in order up to the first failure. -/
def react (name : Text) : List Reaction → Rehearsal → Rehearsal
  | [], rehearsal => rehearsal
  | .fail :: _, rehearsal => rehearsal
  | .close :: reactions, rehearsal =>
    let (answer, after) := rehearsal.close
    let sighting := match answer with
      | .ok () => Sighting.closed
      | .error failure => Sighting.refused failure
    react name reactions (after.note name sighting)
  | .acquire :: reactions, rehearsal =>
    let (answer, after) := rehearsal.acquire
    let sighting := match answer with
      | .ok _ => Sighting.acquired
      | .error failure => Sighting.refused failure
    react name reactions (after.note name sighting)
  | .poll :: reactions, rehearsal =>
    let (failure, after) := rehearsal.poll
    react name reactions (after.note name (.polled failure))
  | .forget :: reactions, rehearsal =>
    let (previous, after) := rehearsal.observe none
    react name reactions (after.note name (.forgot previous.isSome))

/-- Tells a party of an event. -/
def tell (event : Event) (party : Party) (rehearsal : Rehearsal) : Rehearsal :=
  react party.name party.reactions (rehearsal.note party.name (.event event))

/-- Hands an event to the connection, whatever session it comes from. -/
def occur (rehearsal : Rehearsal) (event : Event) : Rehearsal :=
  let absorbed :=
    { rehearsal with connection := rehearsal.connection.absorb rehearsal.now event }
  Connection.forward (·.connection) (tell event) absorbed

/-- Hands an event to the handler of an opening; `none` if there was no such opening. -/
def deliver (rehearsal : Rehearsal) (handler : Nat) (event : Event) : Option Rehearsal :=
  match rehearsal.connection.remote.handlers[handler]? with
  | none => none
  | some generation =>
    if generation = rehearsal.connection.generation then some (rehearsal.occur event)
    else some rehearsal

def listen (rehearsal : Rehearsal) (party : Party) : RegistrationId × Rehearsal :=
  let (id, listeners) := rehearsal.connection.listeners.add party
  (id,
    { rehearsal with
      connection := { rehearsal.connection with listeners }
      names := rehearsal.names ++ [(party.name, id)] })

/-- Removes the first registration ever made of a name; `none` for an unknown name. -/
def unlisten (rehearsal : Rehearsal) (name : Text) : Option Bool × Rehearsal :=
  match rehearsal.names.get? name with
  | none => (none, rehearsal)
  | some id =>
    let (present, listeners) := rehearsal.connection.listeners.remove id
    (some present,
      { rehearsal with connection := { rehearsal.connection with listeners } })

def advance (rehearsal : Rehearsal) (span : Span) : Rehearsal :=
  { rehearsal with now := rehearsal.now + span }

/-- Forgets the records made so far, and nothing else. -/
def clearRecords (rehearsal : Rehearsal) : Rehearsal :=
  { rehearsal with
    connection :=
      { rehearsal.connection with remote := { rehearsal.connection.remote with calls := [] } }
    seen := [] }

end Rehearsal

end WatchedTree
