import WatchedTree.Refresh.Channel
import WatchedTree.Refresh.Refresher

/-!
A refresher, the token of its caller, and the completion that joins them, each of which may be
given up on its own.
-/
namespace WatchedTree

/-- Who can complete the channel. -/
inductive CompletionHolder where
  | refresher
  | caller
  | nobody
deriving DecidableEq, Repr

structure Pact where
  /-- None once it is given up. -/
  refresher : Option Refresher
  channel : Channel := {}
  hasToken : Bool := true
  holder : CompletionHolder := .refresher
deriving DecidableEq

/-- The one notification of a refresher: its path, and whether its token was cancelled. -/
structure RefreshNotice where
  path : Path
  cancelled : Bool
deriving DecidableEq, Repr

namespace Pact

/-- Whether the refresher sees its refresh as cancelled; without the completion it cannot. -/
def seenCancelled (pact : Pact) : Bool := pact.holder == .refresher && pact.channel.cancelled

def increment (pact : Pact) : Pact :=
  { pact with refresher := pact.refresher.map Refresher.increment }

/-- Fires: tells the observer, and resolves the channel unless the refresh was cancelled. -/
def fire (pact : Pact) (path : Path) : RefreshNotice × Pact :=
  let notice := { path, cancelled := pact.seenCancelled }
  if pact.holder == .refresher && !notice.cancelled then
    (notice, { pact with channel := pact.channel.complete (.ok ()) })
  else (notice, pact)

def decrement (pact : Pact) : Option RefreshNotice × Pact :=
  match pact.refresher with
  | none => (none, pact)
  | some refresher =>
    let (fires, counted) := refresher.decrement
    let after := { pact with refresher := some counted }
    if fires then
      let (notice, fired) := after.fire refresher.path
      (some notice, fired)
    else (none, after)

/-- The caller cancels its token. -/
def cancel (pact : Pact) : Pact :=
  if pact.hasToken then { pact with channel := pact.channel.cancel } else pact

/-- The caller completes the channel itself. -/
def complete (pact : Pact) (outcome : Outcome) : Pact :=
  if pact.holder = .caller then { pact with channel := pact.channel.complete outcome } else pact

/-- Reads the token; the outer `none` stands for a token that is gone. -/
def read (pact : Pact) : Option (Option Outcome) × Pact :=
  if pact.hasToken then
    let (outcome, channel) := pact.channel.read
    (some outcome, { pact with channel })
  else (none, pact)

/-- Whether there was a token. -/
def dropToken (pact : Pact) : Bool × Pact := (pact.hasToken, { pact with hasToken := false })

/-- Reads the token and gives it up. -/
def wait (pact : Pact) : Option (Option Outcome) × Pact :=
  let (outcome, after) := pact.read
  (outcome, after.dropToken.2)

/-- The completion goes away with its holder. -/
def dropHolder (pact : Pact) (holder : CompletionHolder) : Pact :=
  if pact.holder = holder then { pact with holder := .nobody, channel := pact.channel.sever }
  else pact

/-- Whether there was a refresher. -/
def dropRefresher (pact : Pact) : Bool × Pact :=
  (pact.refresher.isSome, { pact.dropHolder .refresher with refresher := none })

/-- Whether the caller held the completion. -/
def dropCompletion (pact : Pact) : Bool × Pact :=
  (pact.holder == .caller, pact.dropHolder .caller)

/-- What the refresher, the token and the caller's completion tell about the cancellation;
`none` for what is not there. -/
def cancellation (pact : Pact) : List (Option Bool) :=
  [pact.refresher.map fun _ => pact.seenCancelled,
    if pact.hasToken then some pact.channel.cancelled else none,
    if pact.holder = .caller then some pact.channel.cancelled else none]

end Pact

end WatchedTree
