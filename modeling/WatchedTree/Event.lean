import WatchedTree.Path

/-!
What the remote service reports: session changes and fired watches.
-/
namespace WatchedTree

/-- The kind of change; `session` carries no watched path. -/
inductive EventKind where
  | session
  | created
  | deleted
  | dataChanged
  | childrenChanged
deriving DecidableEq, Repr

namespace EventKind

def label : EventKind → String
  | session => "None"
  | created => "NodeCreated"
  | deleted => "NodeDeleted"
  | dataChanged => "NodeDataChanged"
  | childrenChanged => "NodeChildrenChanged"

def all : List EventKind := [session, created, deleted, dataChanged, childrenChanged]

def ofLabel? (label : String) : Option EventKind := all.find? fun kind => kind.label == label

end EventKind

/-- The state of the session, sent along with every event. -/
inductive KeeperState where
  | syncConnected
  | disconnected
  | expired
deriving DecidableEq, Repr

namespace KeeperState

def label : KeeperState → String
  | syncConnected => "SyncConnected"
  | disconnected => "Disconnected"
  | expired => "Expired"

def all : List KeeperState := [syncConnected, disconnected, expired]

def ofLabel? (label : String) : Option KeeperState := all.find? fun state => state.label == label

end KeeperState

/-- An event as the transport delivers it. -/
structure Event where
  kind : EventKind
  state : KeeperState := .syncConnected
  path : Option Path := none
deriving DecidableEq, Repr

namespace Event

/-- A session change. -/
def ofSession (state : KeeperState) : Event := { kind := .session, state }

/-- A watch on a path that fired on a connected session. -/
def ofNode (kind : EventKind) (path : Path) : Event := { kind, path := some path }

def isSession (event : Event) : Bool := event.kind == .session

/-- What the two constructors make of an event's parts: a session change if there is no path. -/
def reconstructed (event : Event) : Event :=
  match event.path with
  | none => ofSession event.state
  | some path => ofNode event.kind path

end Event

end WatchedTree
