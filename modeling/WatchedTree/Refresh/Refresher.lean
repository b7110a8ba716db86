import WatchedTree.Path

/-!
The count of the fetches of one refresh. A fetch counts up before it is queued and down when it
is done, so the count first drops to zero when the whole fan-out is done.
-/
namespace WatchedTree

structure Refresher where
  path : Path
  count : Int := 0
  fired : Bool := false
deriving DecidableEq, Repr

namespace Refresher

def increment (refresher : Refresher) : Refresher :=
  { refresher with count := refresher.count + 1 }

/-- Counts down. The refresher fires at the first step that leaves the count at or below zero,
and never again. -/
def decrement (refresher : Refresher) : Bool × Refresher :=
  let count := refresher.count - 1
  let fires := count ≤ 0 && !refresher.fired
  (fires, { refresher with count, fired := refresher.fired || fires })

end Refresher

end WatchedTree
