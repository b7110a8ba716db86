import WatchedTree.Connection.Machine
import WatchedTree.Event
import WatchedTree.Stat

/-!
The remote side in memory: a tree of nodes, and sessions with one-shot watches.

A watch fires at the first change after the read that armed it, and is gone until the next read
arms it again. A change answers with the events it caused, each for the handler of one session, in
the order of delivery.
-/
namespace WatchedTree

/-- The number of a hold on a read. -/
abbrev HoldId := Nat

structure RemoteNode where
  data : Payload := []
  stat : Stat := {}
deriving DecidableEq, Repr

structure RemoteSession where
  id : SessionId
  handler : Generation
  closed : Bool := false
  /-- Paths watched for creation, deletion and change of the payload. -/
  dataWatches : List Path := []
  /-- Paths watched for their children and for deletion. -/
  childWatches : List Path := []
deriving DecidableEq, Repr

/-- The two kinds of watches. -/
inductive WatchKind where
  | data
  | child
deriving DecidableEq, Repr

namespace RemoteSession

def watches (session : RemoteSession) : WatchKind → List Path
  | .data => session.dataWatches
  | .child => session.childWatches

def setWatches (session : RemoteSession) (kind : WatchKind) (paths : List Path) : RemoteSession :=
  match kind with
  | .data => { session with dataWatches := paths }
  | .child => { session with childWatches := paths }

/-- Arms a watch; an armed watch stays armed once. -/
def arm (session : RemoteSession) (kind : WatchKind) (path : Path) : RemoteSession :=
  if path ∈ session.watches kind then session
  else session.setWatches kind (path :: session.watches kind)

def disarm (session : RemoteSession) (kind : WatchKind) (path : Path) : RemoteSession :=
  session.setWatches kind ((session.watches kind).filter (· ≠ path))

/-- Holds if a change at this path reaches the session. -/
def isWatching (session : RemoteSession) (kind : WatchKind) (path : Path) : Bool :=
  !session.closed && path ∈ session.watches kind

end RemoteSession

/-- An event on its way to the handler of one session. -/
structure Delivery where
  handler : Generation
  event : Event
deriving DecidableEq, Repr

structure Ensemble where
  nodes : Table Path RemoteNode := [(Path.root, {})]
  /-- The last transaction. -/
  zxid : Int := 0
  sessions : List RemoteSession := []
  /-- Whether new sessions are refused. -/
  refusing : Bool := false
  /-- Paths whose reads fail. -/
  failing : List Path := []
  /-- The hold waiting for the next payload read of a path. -/
  heldReads : Table Path HoldId := []
  /-- The holds that are not released yet. -/
  holds : List HoldId := []
  nextHold : HoldId := 0
  /-- Number of reads so far. -/
  reads : Nat := 0
deriving DecidableEq, Repr

namespace Ensemble

/-! ## Sessions -/

def session? (ensemble : Ensemble) (id : SessionId) : Option RemoteSession :=
  ensemble.sessions.find? fun session => session.id == id

def updateSession (ensemble : Ensemble) (id : SessionId) (change : RemoteSession → RemoteSession) :
    Ensemble :=
  { ensemble with
    sessions := ensemble.sessions.map fun session =>
      if session.id = id then change session else session }

def openSessions (ensemble : Ensemble) : List RemoteSession :=
  ensemble.sessions.filter fun session => !session.closed

def openSession (ensemble : Ensemble) (handler : Generation) :
    Except TransportFault SessionId × Ensemble :=
  if ensemble.refusing then (.error .connectionLoss, ensemble)
  else
    let id := ensemble.sessions.length + 1
    (.ok id, { ensemble with sessions := ensemble.sessions ++ [{ id, handler }] })

def closeSession (ensemble : Ensemble) (id : SessionId) : Ensemble :=
  ensemble.updateSession id fun session => { session with closed := true }

/-- Closes a session and drops its watches. -/
def expireSession (ensemble : Ensemble) (id : SessionId) : Ensemble :=
  ensemble.updateSession id fun session =>
    { session with closed := true, dataWatches := [], childWatches := [] }

instance : Transport Ensemble where
  connect ensemble _connectString _timeout handler := ensemble.openSession handler
  close ensemble id := (.ok (), ensemble.closeSession id)

/-! ## Watches -/

/-- Consumes the watches on a path, and says whom they tell. -/
def fire (ensemble : Ensemble) (watch : WatchKind) (kind : EventKind) (path : Path) :
    List Delivery × Ensemble :=
  let told := ensemble.sessions.filter fun session => session.isWatching watch path
  (told.map fun session => { handler := session.handler, event := .ofNode kind path },
    { ensemble with
      sessions := ensemble.sessions.map fun session =>
        if session.isWatching watch path then session.disarm watch path else session })

/-- Fires several watches one after the other. -/
def fireEach : List (WatchKind × EventKind × Path) → Ensemble → List Delivery × Ensemble
  | [], ensemble => ([], ensemble)
  | (watch, kind, path) :: others, ensemble =>
    let (deliveries, fired) := ensemble.fire watch kind path
    let (later, after) := fireEach others fired
    (deliveries ++ later, after)

/-! ## Changes -/

/-- Takes the next transaction, whether or not the change succeeds. -/
def nextTransaction (ensemble : Ensemble) : Ensemble := { ensemble with zxid := ensemble.zxid + 1 }

/-- A parent's stat after a transaction added or took away some children. -/
def childListChanged (zxid : Int) (added : Int) (node : RemoteNode) : RemoteNode :=
  { node with
    stat :=
      { node.stat with
        cversion := node.stat.cversion + 1
        numChildren := node.stat.numChildren + added
        pzxid := zxid } }

/-- A node as a transaction creates it. -/
def freshNode (zxid : Int) (data : Payload) (owner : Int) : RemoteNode :=
  { data
    stat :=
      { czxid := zxid, mzxid := zxid, ctime := zxid, mtime := zxid, ephemeralOwner := owner
        dataLength := data.length, pzxid := zxid } }

def create (ensemble : Ensemble) (path : Path) (data : Payload) (owner : Int) :
    Except TransportFault (List Delivery) × Ensemble :=
  let ensemble := ensemble.nextTransaction
  let parent := Path.parent path
  if ensemble.nodes.contains path then
    (.error (.other ("Node exists: ".toList ++ path)), ensemble)
  else if !ensemble.nodes.contains parent then (.error (.noNode parent), ensemble)
  else
    let nodes := (ensemble.nodes.adjust parent (childListChanged ensemble.zxid 1)).put path
      (freshNode ensemble.zxid data owner)
    let (deliveries, after) := fireEach
      [(.data, .created, path), (.child, .childrenChanged, parent)] { ensemble with nodes }
    (.ok deliveries, after)

/-- A node after a transaction set its payload. -/
def dataChanged (zxid : Int) (data : Payload) (node : RemoteNode) : RemoteNode :=
  { data
    stat :=
      { node.stat with
        version := node.stat.version + 1
        mzxid := zxid
        mtime := zxid
        dataLength := data.length } }

def setData (ensemble : Ensemble) (path : Path) (data : Payload) :
    Except TransportFault (List Delivery) × Ensemble :=
  let ensemble := ensemble.nextTransaction
  if !ensemble.nodes.contains path then (.error (.noNode path), ensemble)
  else
    let nodes := ensemble.nodes.adjust path (dataChanged ensemble.zxid data)
    let (deliveries, after) := fireEach [(.data, .dataChanged, path)] { ensemble with nodes }
    (.ok deliveries, after)

/-- Replaces a payload behind the back of every watch and stat. -/
def replaceSilently (ensemble : Ensemble) (path : Path) (data : Payload) : Ensemble :=
  { ensemble with nodes := ensemble.nodes.adjust path fun node => { node with data } }

def delete (ensemble : Ensemble) (path : Path) :
    Except TransportFault (List Delivery) × Ensemble :=
  let ensemble := ensemble.nextTransaction
  let parent := Path.parent path
  if ensemble.nodes.keys.any fun key => (path ++ ['/']).isPrefixOf key then
    (.error (.other ("Node not empty: ".toList ++ path)), ensemble)
  else if !ensemble.nodes.contains path then (.error (.noNode path), ensemble)
  else
    let nodes := (ensemble.nodes.erase path).adjust parent (childListChanged ensemble.zxid (-1))
    let (deliveries, after) := fireEach
      [(.data, .deleted, path), (.child, .deleted, path), (.child, .childrenChanged, parent)]
      { ensemble with nodes }
    (.ok deliveries, after)

/-! ## Reads -/

def failReads (ensemble : Ensemble) (path : Path) : Ensemble :=
  { ensemble with failing := path :: ensemble.failing }

def healReads (ensemble : Ensemble) (path : Path) : Ensemble :=
  { ensemble with failing := ensemble.failing.filter (· ≠ path) }

/-- What stands in the way of a read: first a closed session, then an injected failure. -/
def readFault? (ensemble : Ensemble) (id : SessionId) (path : Path) : Option TransportFault :=
  match ensemble.session? id with
  | none => some .sessionExpired
  | some session =>
    if session.closed then some .sessionExpired
    else if path ∈ ensemble.failing then
      some (.other ("Injected failure reading ".toList ++ path))
    else none

def countRead (ensemble : Ensemble) : Ensemble := { ensemble with reads := ensemble.reads + 1 }

def arm (ensemble : Ensemble) (id : SessionId) (kind : WatchKind) (path : Path) : Ensemble :=
  ensemble.updateSession id fun session => session.arm kind path

/-- Reads the stat, if there is a node, and arms the data watch either way. -/
def readStat (ensemble : Ensemble) (id : SessionId) (path : Path) :
    Except TransportFault (Option Stat) × Ensemble :=
  let ensemble := ensemble.countRead
  match ensemble.readFault? id path with
  | some fault => (.error fault, ensemble)
  | none => (.ok ((ensemble.nodes.get? path).map (·.stat)), ensemble.arm id .data path)

/-- Reads payload and stat, and arms the data watch if there is a node. The hold, if one waits for
this read and is not released yet, keeps the answer back. -/
def readData (ensemble : Ensemble) (id : SessionId) (path : Path) :
    Except TransportFault (Payload × Stat) × Option HoldId × Ensemble :=
  let ensemble := ensemble.countRead
  match ensemble.readFault? id path with
  | some fault => (.error fault, none, ensemble)
  | none =>
    let hold := (ensemble.heldReads.get? path).filter fun hold => hold ∈ ensemble.holds
    let taken := { ensemble with heldReads := ensemble.heldReads.erase path }
    match taken.nodes.get? path with
    | none => (.error (.noNode path), hold, taken)
    | some node => (.ok (node.data, node.stat), hold, taken.arm id .data path)

/-- The name of a direct child of a path, read off the child's path. -/
def childName? (path key : Path) : Option Text :=
  let stem := if path = Path.root then path else path ++ ['/']
  if stem.isPrefixOf key then
    let rest := key.drop stem.length
    if rest = [] || '/' ∈ rest then none else some rest
  else none

/-- The names of the direct children, in descending byte order. -/
def childNames (ensemble : Ensemble) (path : Path) : List Text :=
  (Text.sort (ensemble.nodes.keys.filterMap (childName? path))).reverse

/-- Reads the names of the children and arms the child watch, if there is a node. -/
def readChildren (ensemble : Ensemble) (id : SessionId) (path : Path) :
    Except TransportFault (List Text) × Ensemble :=
  let ensemble := ensemble.countRead
  match ensemble.readFault? id path with
  | some fault => (.error fault, ensemble)
  | none =>
    if ensemble.nodes.contains path then
      (.ok (ensemble.childNames path), ensemble.arm id .child path)
    else (.error (.noNode path), ensemble)

/-! ## Holds -/

/-- Puts a new hold on the next payload read of a path, in the place of one that waits there. -/
def hold (ensemble : Ensemble) (path : Path) : HoldId × Ensemble :=
  let id := ensemble.nextHold
  (id,
    { ensemble with
      heldReads := ensemble.heldReads.put path id
      holds := id :: ensemble.holds
      nextHold := id + 1 })

def release (ensemble : Ensemble) (id : HoldId) : Ensemble :=
  { ensemble with holds := ensemble.holds.filter (· ≠ id) }

end Ensemble

end WatchedTree
