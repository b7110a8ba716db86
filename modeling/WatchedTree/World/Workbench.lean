import WatchedTree.World.Commands

/-!
A world, and names for what its user keeps from one command to the next: caches, tokens, holds on
reads, and listeners.
-/
namespace WatchedTree

structure Workbench where
  world : World
  caches : Table Text CacheId := []
  tokens : Table Text ChannelId := []
  holds : Table Text HoldId := []
  /-- Every registration ever made with a cache, by name; of one name the first counts. -/
  listeners : Table (CacheId × Text) RegistrationId := []
  errorListeners : Table (CacheId × Text) RegistrationId := []

namespace Workbench

def setWorld (bench : Workbench) (world : World) : Workbench := { bench with world }

/-! ## Holds -/

/-- Holds back the next payload read of a path, and then lets go of the hold that had the name;
whether there was one. -/
def hold (bench : Workbench) (name : Text) (path : Path) : Bool × Workbench :=
  let (id, held) := bench.world.hold path
  let world := match bench.holds.get? name with
    | none => held
    | some old => held.release old
  (bench.holds.contains name, { bench with world, holds := bench.holds.put name id })

/-- Lets go of a hold; `none` for an unknown name. -/
def release (bench : Workbench) (name : Text) : Option Workbench :=
  (bench.holds.get? name).map fun id =>
    { bench with world := bench.world.release id, holds := bench.holds.erase name }

/-! ## Tokens -/

/-- Keeps a token under a name; whether another one was kept there. -/
def keep (bench : Workbench) (name : Text) (token : ChannelId) : Bool × Workbench :=
  (bench.tokens.contains name, { bench with tokens := bench.tokens.put name token })

/-- Reads a token; the outer `none` stands for an unknown name. -/
def read (bench : Workbench) (name : Text) : Option (Option Outcome) × Workbench :=
  match bench.tokens.get? name with
  | none => (none, bench)
  | some token =>
    let (outcome, world) := bench.world.readToken token
    (some outcome, bench.setWorld world)

def dropToken (bench : Workbench) (name : Text) : Workbench :=
  { bench with tokens := bench.tokens.erase name }

/-- Reads a token and gives it up. -/
def wait (bench : Workbench) (name : Text) : Option (Option Outcome) × Workbench :=
  let (outcome, after) := bench.read name
  (outcome, after.dropToken name)

/-- Cancels a token; `none` for an unknown name. -/
def cancel (bench : Workbench) (name : Text) : Option Workbench :=
  (bench.tokens.get? name).map fun token => bench.setWorld (bench.world.cancelToken token)

def isCancelled? (bench : Workbench) (name : Text) : Option Bool :=
  (bench.tokens.get? name).map bench.world.isCancelled

/-! ## Caches -/

/-- The cache of a name, with its number. -/
def cache? (bench : Workbench) (name : Text) : Option (CacheId × Cache) :=
  match bench.caches.get? name with
  | none => none
  | some id => bench.world.caches[id]?.map fun cache => (id, cache)

/-- The caches that have a name. -/
def present (bench : Workbench) : List (Text × Cache) :=
  bench.caches.filterMap fun entry =>
    bench.world.caches[entry.2]?.map fun cache => (entry.1, cache)

/-- Under which a listener's calls are recorded. -/
def labelOf (cacheName listenerName : Text) : Text := cacheName ++ '.' :: listenerName

/-- Registers a listener for the events of a cache. -/
def listen (bench : Workbench) (cacheName : Text) (id : CacheId) (name : Text) (fails : Bool) :
    RegistrationId × Workbench :=
  let (registration, world) := bench.world.listen id { label := labelOf cacheName name, fails }
  (registration,
    { bench with world, listeners := bench.listeners ++ [((id, name), registration)] })

/-- Registers a listener for the failures of a cache. -/
def onError (bench : Workbench) (cacheName : Text) (id : CacheId) (name : Text) (fails : Bool) :
    RegistrationId × Workbench :=
  let (registration, world) := bench.world.onError id { label := labelOf cacheName name, fails }
  (registration,
    { bench with world, errorListeners := bench.errorListeners ++ [((id, name), registration)] })

/-- Removes the first registration of a name; `none` for an unknown name. -/
def unlisten (bench : Workbench) (id : CacheId) (name : Text) : Option Bool × Workbench :=
  match bench.listeners.get? (id, name) with
  | none => (none, bench)
  | some registration =>
    let (present, world) := bench.world.unlisten id registration
    (some present, bench.setWorld world)

/-- Removes the first registration for failures of a name; `none` for an unknown name. -/
def offError (bench : Workbench) (id : CacheId) (name : Text) : Option Bool × Workbench :=
  match bench.errorListeners.get? (id, name) with
  | none => (none, bench)
  | some registration =>
    let (present, world) := bench.world.offError id registration
    (some present, bench.setWorld world)

/-- The listener for events that a new cache gets. -/
def firstListener : Text := ['L']

/-- The listener for failures that a new cache gets. -/
def firstErrorListener : Text := ['E']

/-- Builds a cache, in the place of the one that had the name, and gives it its first listeners
unless it is to stay quiet. -/
def build (bench : Workbench) (name : Text) (path : Path) (calls : List BuilderCall)
    (quiet : Bool) : Except Failure Unit × Workbench :=
  match bench.world.build path calls with
  | (.error failure, world) => (.error failure, bench.setWorld world)
  | (.ok id, built) =>
    let world := match bench.caches.get? name with
      | none => built
      | some old => built.closeCache old
    let named := { bench with world, caches := bench.caches.put name id }
    if quiet then (.ok (), named)
    else
      let listening := (named.listen name id firstListener false).2
      (.ok (), (listening.onError name id firstErrorListener false).2)

/-- Starts a cache and keeps the token. -/
def start (bench : Workbench) (id : CacheId) (tokenName : Text) :
    Except Failure Unit × Workbench :=
  match bench.world.start id with
  | (.error failure, world) => (.error failure, bench.setWorld world)
  | (.ok token, world) => (.ok (), ((bench.setWorld world).keep tokenName token).2)

/-- Refreshes a path of a cache and keeps the token; whether it replaced one. -/
def refresh (bench : Workbench) (id : CacheId) (path : Path) (tokenName : Text) :
    Bool × Workbench :=
  let (token, world) := bench.world.refresh id path
  (bench.setWorld world).keep tokenName token

/-- Refreshes the base of a cache and keeps the token; whether it replaced one. -/
def refreshAll (bench : Workbench) (id : CacheId) (tokenName : Text) : Bool × Workbench :=
  let (token, world) := bench.world.refreshAll id
  (bench.setWorld world).keep tokenName token

/-- Closes a cache and forgets its name. -/
def drop (bench : Workbench) (name : Text) : Workbench :=
  match bench.caches.get? name with
  | none => bench
  | some id =>
    { bench with world := bench.world.closeCache id, caches := bench.caches.erase name }

/-- Takes the calls of listeners that were recorded. -/
def takeCalls (bench : Workbench) : List Call × Workbench :=
  (bench.world.calls, bench.setWorld { bench.world with calls := [] })

end Workbench

end WatchedTree
