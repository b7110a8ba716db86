import WatchedTree.Node
import WatchedTree.Span
import WatchedTree.Table

/-!
The snapshot of a remote tree, keyed by path.

Entries expire lazily: an expired entry is invisible to every read and dropped when it is touched.
A removal leaves a tombstone under a fresh epoch, and a node fetched under an earlier epoch is
refused at the tombstone's path and below it.
-/
namespace WatchedTree

/-- The bounds of a store; all that are given hold together. -/
structure EvictionPolicy where
  /-- Above this number the least recently used entries go. -/
  maxEntries : Option Nat := none
  /-- Age since the last write at which an entry expires. -/
  expireAfterWrite : Option Span := none
  /-- Age since the last read or write at which an entry expires. -/
  expireAfterAccess : Option Span := none
deriving DecidableEq, Repr

namespace EvictionPolicy

def expires (policy : EvictionPolicy) : Bool :=
  policy.expireAfterWrite.isSome || policy.expireAfterAccess.isSome

end EvictionPolicy

/-- The order of accesses; the lowest stamp is the least recent. -/
abbrev Stamp := Nat

/-- Counts removals. -/
abbrev Epoch := Nat

structure Entry where
  node : Node
  written : Moment
  accessed : Moment
  stamp : Stamp
deriving DecidableEq, Repr

/-- What became of a node offered to the store. -/
inductive Upsert where
  | inserted
  | replaced (previous : Node)
  /-- The stored node was read from a newer remote state. -/
  | stale
  /-- The path or an ancestor was removed after the fetch began. -/
  | deleted
deriving DecidableEq, Repr

namespace Upsert

def label : Upsert → String
  | inserted => "Inserted"
  | replaced _ => "Replaced"
  | stale => "Stale"
  | deleted => "Deleted"

/-- Whether the node was stored. -/
def isStored : Upsert → Bool
  | inserted | replaced _ => true
  | stale | deleted => false

/-- What the caller of an offer is told while the entry is still held: the outcome and the node
that was stored. A refusal tells nothing. -/
def notice (outcome : Upsert) (node : Node) : Option (Upsert × Node) :=
  if outcome.isStored then some (outcome, node) else none

end Upsert

structure Store where
  policy : EvictionPolicy := {}
  entries : Table Path Entry := []
  /-- The next stamp. -/
  clock : Stamp := 0
  /-- The stamps in use and their paths, in increasing order; kept only under a bound on entries. -/
  recency : List (Stamp × Path) := []
  epoch : Epoch := 0
  tombstones : Table Path Epoch := []
  /-- The number of open fetches by the epoch they began in. -/
  inFlight : Table Epoch Nat := []
deriving DecidableEq, Repr

namespace Store

/-! ## Expiry -/

/-- Whether an age has reached its limit. -/
def isOverAge (limit : Option Span) (since now : Moment) : Bool :=
  match limit with
  | none => false
  | some span => span ≤ now - since

def isExpired (store : Store) (now : Moment) (entry : Entry) : Bool :=
  isOverAge store.policy.expireAfterWrite entry.written now ||
    isOverAge store.policy.expireAfterAccess entry.accessed now

/-- The entry of a path, unless it has expired. -/
def live? (store : Store) (now : Moment) (path : Path) : Option Entry :=
  match store.entries.get? path with
  | none => none
  | some entry => if store.isExpired now entry then none else some entry

/-- The paths and nodes of the live entries. -/
def liveNodes (store : Store) (now : Moment) : List (Path × Node) :=
  (store.entries.filter fun pair => !store.isExpired now pair.2).map
    fun pair => (pair.1, pair.2.node)

/-! ## Recency -/

/-- Puts a path under the newest stamp, in the place of the stamp it had. -/
def restamp (store : Store) (previous : Option Stamp) (path : Path) : Stamp × Store :=
  let stamp := store.clock
  let recency := match store.policy.maxEntries with
    | none => store.recency
    | some _ =>
      let kept := match previous with
        | none => store.recency
        | some old => store.recency.filter fun pair => pair.1 ≠ old
      kept ++ [(stamp, path)]
  (stamp, { store with clock := stamp + 1, recency })

def unstamp (store : Store) (stamp : Stamp) : Store :=
  { store with recency := store.recency.filter fun pair => pair.1 ≠ stamp }

/-- Takes entries from the least recent on until the bound holds. The stamps of the path to keep
are set aside; the stamps left over, with those set aside, are the second part of the answer. -/
def evict (bound : Nat) (keep : Path) :
    List (Stamp × Path) → Table Path Entry → List (Stamp × Path) →
      Table Path Entry × List (Stamp × Path)
  | [], entries, spared => (entries, spared)
  | (stamp, path) :: others, entries, spared =>
    if entries.length ≤ bound then (entries, spared ++ (stamp, path) :: others)
    else if path = keep then evict bound keep others entries (spared ++ [(stamp, path)])
    else
      let remaining := match entries.get? path with
        | none => entries
        | some entry => if entry.stamp = stamp then entries.erase path else entries
      evict bound keep others remaining spared

/-- Enforces the bound on entries; the path to keep is never a victim. -/
def enforceCapacity (store : Store) (keep : Path) : Store :=
  match store.policy.maxEntries with
  | none => store
  | some bound =>
    let (entries, recency) := evict bound keep store.recency store.entries []
    { store with entries, recency }

/-! ## Epochs and tombstones -/

/-- Registers a fetch under the present epoch. -/
def beginFetch (store : Store) : Epoch × Store :=
  let count := (store.inFlight.get? store.epoch).getD 0
  (store.epoch, { store with inFlight := store.inFlight.put store.epoch (count + 1) })

/-- The smallest epoch of an open fetch. -/
def oldestOpen? (store : Store) : Option Epoch := store.inFlight.keys.min?

/-- Takes back the registration of a fetch. -/
def discount (store : Store) (epoch : Epoch) : Store :=
  { store with
    inFlight := match store.inFlight.get? epoch with
      | none => store.inFlight
      | some count =>
        if count ≤ 1 then store.inFlight.erase epoch else store.inFlight.put epoch (count - 1) }

/-- Drops the tombstones that no open fetch can still run into. -/
def collect (store : Store) : Store :=
  { store with
    tombstones := match store.oldestOpen? with
      | none => []
      | some oldest => store.tombstones.filter fun pair => oldest < pair.2 }

/-- Ends a fetch. -/
def endFetch (store : Store) (epoch : Epoch) : Store := (store.discount epoch).collect

/-- Whether a path or one of its ancestors was removed after an epoch. -/
def deletedSince (store : Store) (path : Path) (epoch : Epoch) : Bool :=
  (Path.ancestry path).any fun ancestor =>
    match store.tombstones.get? ancestor with
    | none => false
    | some removed => epoch < removed

/-! ## Reads -/

/-- Reads a node without marking it as used. -/
def peek (store : Store) (now : Moment) (path : Path) : Option Node :=
  (store.live? now path).map (·.node)

def contains (store : Store) (now : Moment) (path : Path) : Bool := (store.peek now path).isSome

/-- Reads a node and marks it as used; an expired entry is dropped. -/
def get (store : Store) (now : Moment) (path : Path) : Option Node × Store :=
  match store.entries.get? path with
  | none => (none, store)
  | some entry =>
    if store.isExpired now entry then
      (none, { store.unstamp entry.stamp with entries := store.entries.erase path })
    else
      let (stamp, stamped) := store.restamp (some entry.stamp) path
      (some entry.node,
        { stamped with
          entries := stamped.entries.put path { entry with accessed := now, stamp } })

/-- Number of live entries. -/
def size (store : Store) (now : Moment) : Nat :=
  if store.policy.expires then (store.liveNodes now).length else store.entries.length

def isEmpty (store : Store) (now : Moment) : Bool := store.size now == 0

/-- The live nodes in the byte order of their paths. -/
def sorted (store : Store) (now : Moment) : List (Path × Node) :=
  sortByKey (store.liveNodes now)

/-- The live paths strictly below a base. -/
def pathsBelow (store : Store) (now : Moment) (base : Path) : List Path :=
  ((store.liveNodes now).map Prod.fst).filter fun path => Path.isBelow base path

/-- The live children of a path by name, in the byte order of the names. -/
def childrenOf (store : Store) (now : Moment) (parent : Path) : List (Text × Node) :=
  let children := (store.liveNodes now).filter fun pair =>
    Path.isBelow parent pair.1 && Path.parent pair.1 = parent
  sortByKey (children.map fun pair => (Path.name pair.1, pair.2))

/-! ## Writes -/

/-- Stores a node under the newest stamp, in the place of the stamp that its path had. -/
def write (store : Store) (now : Moment) (node : Node) (previous : Option Stamp) : Store :=
  let (stamp, stamped) := store.restamp previous node.path
  enforceCapacity
    { stamped with
      entries := stamped.entries.put node.path { node, written := now, accessed := now, stamp } }
    node.path

/-- Offers a node fetched under an epoch. -/
def upsert (store : Store) (now : Moment) (node : Node) (epoch : Epoch) : Upsert × Store :=
  if store.deletedSince node.path epoch then (.deleted, store)
  else match store.entries.get? node.path with
    | none => (.inserted, store.write now node none)
    | some entry =>
      if store.isExpired now entry then (.inserted, store.write now node (some entry.stamp))
      else if node.isOlderThan entry.node then (.stale, store)
      else (.replaced entry.node, store.write now node (some entry.stamp))

/-- Replaces a live node by what the change makes of it, if anything; its age and its recency
stay. -/
def update (store : Store) (now : Moment) (path : Path) (change : Node → Option Node) :
    Bool × Store :=
  match store.live? now path with
  | none => (false, store)
  | some entry =>
    match change entry.node with
    | none => (false, store)
    | some node => (true, { store with entries := store.entries.put path { entry with node } })

/-- Drops an entry without a tombstone. -/
def remove (store : Store) (now : Moment) (path : Path) : Option Node × Store :=
  match store.entries.get? path with
  | none => (none, store)
  | some entry =>
    let dropped := { store.unstamp entry.stamp with entries := store.entries.erase path }
    (if store.isExpired now entry then none else some entry.node, dropped)

/-- Longer paths first, equally long ones in byte order. -/
def deeperFirst (left right : Path) : Bool :=
  right.byteLength < left.byteLength ||
    (left.byteLength == right.byteLength && left.before right)

/-- The paths of the entries at a path and below it, each before its ancestors. -/
def doomed (store : Store) (path : Path) : List Path :=
  sortBy deeperFirst (store.entries.keys.filter fun key => key = path || Path.isBelow path key)

/-- Removes entries one by one, and collects the nodes of the live ones. -/
def removeEach (now : Moment) : List Path → Store → List Node × Store
  | [], store => ([], store)
  | path :: paths, store =>
    let (node, dropped) := store.remove now path
    let (nodes, after) := removeEach now paths dropped
    (node.toList ++ nodes, after)

/-- Removes a path and everything below it under a fresh epoch, and leaves a tombstone. The live
nodes removed come back in the order of their removal. -/
def removeSubtree (store : Store) (now : Moment) (path : Path) : List Node × Store :=
  let epoch := store.epoch + 1
  removeEach now (store.doomed path)
    { store with epoch, tombstones := store.tombstones.put path epoch }

/-- Drops every entry; epochs and tombstones stay. -/
def clear (store : Store) : Store := { store with entries := [], recency := [] }

end Store

end WatchedTree
