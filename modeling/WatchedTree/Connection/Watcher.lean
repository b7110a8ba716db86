import WatchedTree.Connection.FailureQueue
import WatchedTree.Event

/-!
The state of the session as the client believes it to be, and since when it has been connected or
not. Closed is terminal.
-/
namespace WatchedTree

inductive ConnectionState where
  /-- Opened, and not yet confirmed by the service. -/
  | latent
  | connected
  | disconnected
  | expired
  | closed
deriving DecidableEq, Repr

namespace ConnectionState

def label : ConnectionState → String
  | latent => "Latent"
  | connected => "Connected"
  | disconnected => "Disconnected"
  | expired => "Expired"
  | closed => "Closed"

def all : List ConnectionState := [latent, connected, disconnected, expired, closed]

def ofLabel? (label : String) : Option ConnectionState :=
  all.find? fun state => state.label == label

/-- The state that a session event announces. -/
def ofKeeper : KeeperState → ConnectionState
  | .syncConnected => connected
  | .disconnected => disconnected
  | .expired => expired

end ConnectionState

/-- A state, and the moment connectivity last flipped or the session was last opened. -/
structure ConnectionStatus where
  state : ConnectionState := .latent
  since : Moment := 0
deriving DecidableEq, Repr

namespace ConnectionStatus

def isConnected (status : ConnectionStatus) : Bool := status.state == .connected

def describe (status : ConnectionStatus) : Text :=
  Text.record "ConnectionStatus"
    [Text.field "state" status.state.label.toList, "since: _".toList]

end ConnectionStatus

/-- What one session event did to the state. -/
structure SessionTransition where
  previous : ConnectionState
  current : ConnectionState
deriving DecidableEq, Repr

namespace SessionTransition

def connectivityChanged (transition : SessionTransition) : Bool :=
  (transition.previous == .connected) != (transition.current == .connected)

def expired (transition : SessionTransition) : Bool := transition.current == .expired

end SessionTransition

/-- Session events turned into a status, and failures that no caller has seen yet. -/
structure SessionWatcher where
  status : ConnectionStatus := {}
  failures : FailureQueue := { capacity := 10 }
deriving DecidableEq, Repr

namespace SessionWatcher

/-- Moves to a state and restarts the clock; refused once closed. -/
def mark (watcher : SessionWatcher) (now : Moment) (state : ConnectionState) :
    Bool × SessionWatcher :=
  if watcher.status.state = .closed then (false, watcher)
  else (true, { watcher with status := { state, since := now } })

/-- Applies a session event. Node events, and events after the close, do nothing; the clock
restarts only if connectivity flips. -/
def observe (watcher : SessionWatcher) (now : Moment) (event : Event) :
    Option SessionTransition × SessionWatcher :=
  if !event.isSession || watcher.status.state == .closed then (none, watcher)
  else
    let transition : SessionTransition :=
      { previous := watcher.status.state, current := ConnectionState.ofKeeper event.state }
    let since := if transition.connectivityChanged then now else watcher.status.since
    (some transition, { watcher with status := { state := transition.current, since } })

def push (watcher : SessionWatcher) (failure : Failure) : SessionWatcher :=
  { watcher with failures := watcher.failures.push failure }

def poll (watcher : SessionWatcher) : Option Failure × SessionWatcher :=
  let (failure, failures) := watcher.failures.poll
  (failure, { watcher with failures })

end SessionWatcher

end WatchedTree
