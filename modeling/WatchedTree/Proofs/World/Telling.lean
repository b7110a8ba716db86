import WatchedTree.Proofs.World.Shape
import WatchedTree.Proofs.World.Visit

/-!
# What a cache tells and what it holds

All that a cache without bounds tells of a path is a script of what it holds there, as long as its
user does not clear it. An incident tells that a node has come in the place of another, or that one
has gone, and never both, with one exception. A path that ends in a slash is, to the text, a child
of its own: the fetch that stores a node there may find that its list of children leaves the path
itself out, and drops it at once. No valid path but the root ends in a slash, and where children are
followed the root is never stored.
-/
namespace WatchedTree

namespace World

open CacheEvent (between)

variable {world : World} {id : CacheId} {cache : Cache} {refresh : RefreshId}
  {options : CacheOptions} {path : Path} {node : Node} {visit : Visit} {incident : Incident}
  {isSame : Node → Node → Bool}

/-! ## The end of a fetch -/

/-- A node has come, and has gone again at once, and both was told. -/
structure Retracts (after before : World) (id : CacheId) (path : Path)
    (isSame : Node → Node → Bool) (node : Node) : Prop where
  gone : after.cached id path = none
  told : after.toldOf id path = before.toldOf id path ++
    between isSame (before.cached id path) (some node) ++ [.nodeDeleted node]

/-- The fetch at the front of the queue makes all its reads at a path, and commits this node before
it follows the children. -/
inductive Fetches (world : World) (id : CacheId) (path : Path) : Node → Prop where
  | reads {leg : Leg} {tasks : List Task} {visit : Visit} {stat : Option Stat}
      {data : Option Payload} {names : List Text} {read : World}
      (front : world.queue = leg.task :: tasks)
      (collects : Answering.ofEnsemble.Collects { world with queue := tasks } leg visit stat data
        (some names) read)
      (isCache : visit.cache = id) (isPath : visit.path = path)
      (isStored : visit.action.isStored = true) (follows : visit.traverse = true) :
      Fetches world id path (visit.gathered stat data names)

/-- An incident tells what has become of a path. Of a path that ends in a slash, the run of a fetch
may tell of the node that it has read there, and then that this node is gone again. -/
inductive Accounts (world : World) (id : CacheId) (path : Path) (isSame : Node → Node → Bool) :
    Incident → Prop where
  | rewrites {incident : Incident}
      (rewrites : (world.undergo incident).Rewrites world id path isSame) :
      Accounts world id path isSame incident
  | retracts {node : Node} (slash : Path.endsWithSlash path = true) (notRoot : path ≠ Path.root)
      (fetches : world.Fetches id path node)
      (retracts : (world.undergo .step).Retracts world id path isSame node) :
      Accounts world id path isSame .step

theorem Accounts.script (accounts : world.Accounts id path isSame incident)
    (script : CacheEvent.Script isSame (world.toldOf id path) (world.cached id path)) :
    CacheEvent.Script isSame ((world.undergo incident).toldOf id path)
      ((world.undergo incident).cached id path) := by
  cases accounts with
  | rewrites rewrites =>
      rw [rewrites]
      exact script.rewrite _
  | @retracts node _ _ _ retracts =>
      rw [retracts.told, retracts.gone]
      exact (script.rewrite (some node)).rewrite none

/-- The base has a child whose name is empty, and that has one again. The fetch of the first finds
the second cached, and its list of children leaves out the step towards it, which is the path itself. -/
example :
    let base : Path := ['/', 'a']
    let path : Path := base ++ ['/']
    let below : Path := path ++ ['/']
    let incidents : List Incident :=
      [Command.startConnection, .announce .syncConnected, .create base [] 0, .create path [1] 0,
        .create below [2] 0, .build base [], .start 0, .step, .refresh 0 below, .step,
        .refresh 0 path].flatMap Command.incidents
    let world := (ofConfig defaultConfig).undergoAll incidents
    world.toldOf 0 path = [] ∧ (world.undergo .step).cached 0 path = none ∧
      ((world.undergo .step).toldOf 0 path).map CacheEvent.label =
        ["NodeCreated", "NodeDeleted"] := by
  decide +kernel

end World

end WatchedTree
