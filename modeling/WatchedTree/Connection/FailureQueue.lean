import WatchedTree.Failure

/-!
A bounded queue of failures. A full queue drops its oldest failure to take a new one.
-/
namespace WatchedTree

structure FailureQueue where
  capacity : Nat
  /-- Oldest first. -/
  pending : List Failure := []
deriving DecidableEq, Repr

namespace FailureQueue

/-- Offers a failure, and drops the oldest one after each refusal until there is room. A queue
without any room keeps nothing. -/
def offer (capacity : Nat) : List Failure → Failure → List Failure
  | [], failure => if 0 < capacity then [failure] else []
  | oldest :: rest, failure =>
    if (oldest :: rest).length < capacity then oldest :: rest ++ [failure]
    else offer capacity rest failure

def push (queue : FailureQueue) (failure : Failure) : FailureQueue :=
  { queue with pending := offer queue.capacity queue.pending failure }

/-- Takes the oldest failure. -/
def poll (queue : FailureQueue) : Option Failure × FailureQueue :=
  match queue.pending with
  | [] => (none, queue)
  | oldest :: rest => (some oldest, { queue with pending := rest })

def size (queue : FailureQueue) : Nat := queue.pending.length

end FailureQueue

end WatchedTree
