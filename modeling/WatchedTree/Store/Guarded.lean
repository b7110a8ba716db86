import WatchedTree.Store.Basic

/-!
A store on a clock of its own, with the open fetches kept under names.
-/
namespace WatchedTree

/-- The epoch to act under. -/
inductive EpochChoice where
  | present
  | number (epoch : Epoch)
  /-- The epoch in which the fetch of this name began; the present one if there is none. -/
  | guard (name : Text)
deriving DecidableEq, Repr

structure GuardedStore where
  store : Store
  now : Moment := 0
  guards : Table Text Epoch := []
deriving DecidableEq, Repr

namespace GuardedStore

def ofPolicy (policy : EvictionPolicy) : GuardedStore := { store := { policy } }

def epochOf (guarded : GuardedStore) : EpochChoice → Epoch
  | .present => guarded.store.epoch
  | .number epoch => epoch
  | .guard name => (guarded.guards.get? name).getD guarded.store.epoch

/-- Begins a fetch under a name, and then ends the one that had the name. -/
def begin (guarded : GuardedStore) (name : Text) : Epoch × GuardedStore :=
  let (epoch, begun) := guarded.store.beginFetch
  let store := match guarded.guards.get? name with
    | none => begun
    | some old => begun.endFetch old
  (epoch, { guarded with store, guards := guarded.guards.put name epoch })

/-- Ends the fetch of a name; whether there was one. -/
def finish (guarded : GuardedStore) (name : Text) : Bool × GuardedStore :=
  match guarded.guards.get? name with
  | none => (false, guarded)
  | some epoch =>
    (true,
      { guarded with store := guarded.store.endFetch epoch, guards := guarded.guards.erase name })

def advance (guarded : GuardedStore) (span : Span) : GuardedStore :=
  { guarded with now := guarded.now + span }

/-- Number of live entries. -/
def size (guarded : GuardedStore) : Nat := guarded.store.size guarded.now

end GuardedStore

end WatchedTree
