import WatchedTree.Store.Guarded

/-!
Runs of calls on a guarded store, from a new store on.
-/
namespace WatchedTree

/-- One call on a guarded store. -/
inductive StoreCall where
  /-- Begins a fetch under a name; a fetch that had the name ends. -/
  | begin (name : Text)
  | finish (name : Text)
  | upsert (node : Node) (epoch : EpochChoice)
  | get (path : Path)
  | update (path : Path) (change : Node → Option Node)
  | remove (path : Path)
  | removeSubtree (path : Path)
  | clear
  | advance (span : Span)

namespace StoreCall

/-- The paths that a call removes with everything below them. -/
def removals : StoreCall → List Path
  | removeSubtree path => [path]
  | _ => []

theorem mem_removals_iff {call : StoreCall} {path : Path} :
    path ∈ call.removals ↔ call = .removeSubtree path := by
  cases call <;> simp [removals, eq_comm]

/-- Holds of the calls that are about neither guards nor removals. -/
def isPlain : StoreCall → Bool
  | begin _ | finish _ | removeSubtree _ => false
  | _ => true

/-- Holds of the calls that neither end a guard nor give its name away. -/
def spares (name : Text) : StoreCall → Prop
  | begin other | finish other => other ≠ name
  | _ => True

end StoreCall

namespace GuardedStore

/-- The store after a call. -/
def obey (guarded : GuardedStore) : StoreCall → GuardedStore
  | .begin name => (guarded.begin name).2
  | .finish name => (guarded.finish name).2
  | .upsert node epoch =>
    { guarded with
      store := (guarded.store.upsert guarded.now node (guarded.epochOf epoch)).2 }
  | .get path => { guarded with store := (guarded.store.get guarded.now path).2 }
  | .update path change =>
    { guarded with store := (guarded.store.update guarded.now path change).2 }
  | .remove path => { guarded with store := (guarded.store.remove guarded.now path).2 }
  | .removeSubtree path =>
    { guarded with store := (guarded.store.removeSubtree guarded.now path).2 }
  | .clear => { guarded with store := guarded.store.clear }
  | .advance span => guarded.advance span

/-- The store after some calls, one after the other. -/
def run (guarded : GuardedStore) (calls : List StoreCall) : GuardedStore :=
  calls.foldl obey guarded

@[simp] theorem run_nil (guarded : GuardedStore) : guarded.run [] = guarded := rfl

@[simp] theorem run_cons (guarded : GuardedStore) (call : StoreCall) (calls : List StoreCall) :
    guarded.run (call :: calls) = (guarded.obey call).run calls := rfl

end GuardedStore

end WatchedTree
