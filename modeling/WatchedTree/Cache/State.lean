import WatchedTree.Cache.Feed
import WatchedTree.Cache.Options

/-!
The state of one cache: its store, the feed of its events, and the listeners for its failures.
-/
namespace WatchedTree

/-- The life of a cache. Fetches are started in the middle phase only. -/
inductive CachePhase where
  | latent
  | started
  | closed
deriving DecidableEq, Repr

structure Cache where
  options : CacheOptions
  store : Store
  feed : Feed := {}
  /-- Who is told of failures that no caller waits for. -/
  errorListeners : Registry Listener := {}
  /-- Number of refreshes that have finished. -/
  refreshCount : Nat := 0
  phase : CachePhase := .latent
  /-- Connectivity as the cache saw it last. -/
  connected : Bool := false
  /-- Its own registration with the connection. -/
  registration : Option RegistrationId := none

namespace Cache

def ofOptions (options : CacheOptions) : Cache :=
  { options, store := { policy := options.eviction } }

def isClosed (cache : Cache) : Bool := cache.phase == .closed

/-- The action for a path and whether its children are fetched; `none` outside the cache. -/
def scope (cache : Cache) (path : Path) : Option (Action × Bool) :=
  cache.options.mode.scope cache.options.basePath path

/-- Closed: nobody is told any more, and the store is empty. -/
def close (cache : Cache) : Cache :=
  { cache with
    phase := .closed
    registration := none
    feed := cache.feed.clear
    errorListeners := cache.errorListeners.clear
    store := cache.store.clear }

/-- The event that stands for an outcome of the store, if it is worth one. -/
def eventOf (cache : Cache) (node : Node) : Upsert → Option CacheEvent
  | .inserted => some (.nodeCreated node)
  | .replaced previous =>
    if cache.options.comparator.isSame previous node then none else some (.nodeChanged node)
  | .stale | .deleted => none

/-- Keeps a fetched node, unless the cache is closed, and says what to tell. -/
def commit (cache : Cache) (now : Moment) (node : Node) (epoch : Epoch) :
    Option CacheEvent × Cache :=
  if cache.isClosed then (none, cache)
  else
    let (outcome, store) := cache.store.upsert now node epoch
    ((outcome.notice node).bind fun told => cache.eventOf told.2 told.1, { cache with store })

/-- Removes a path and everything below it, and says what to tell. -/
def removeSubtree (cache : Cache) (now : Moment) (path : Path) : List CacheEvent × Cache :=
  let (nodes, store) := cache.store.removeSubtree now path
  (nodes.map .nodeDeleted, { cache with store })

/-! ## Children -/

/-- The cached children of a path, with anything cached below them, that a fresh list of names
leaves out; in byte order, each once. -/
def vanished (cache : Cache) (now : Moment) (parent : Path) (names : List Text) : List Path :=
  let firsts := (cache.store.pathsBelow now parent).map (Path.firstBelow parent)
  Text.dropRepeats
    (Text.sort ((firsts.filter fun name => name ∉ names).map (Path.child parent)))

/-- Removes several subtrees one after the other. -/
def removeSubtrees (now : Moment) : List Path → Cache → List CacheEvent × Cache
  | [], cache => ([], cache)
  | path :: paths, cache =>
    let (events, removed) := cache.removeSubtree now path
    let (later, after) := removeSubtrees now paths removed
    (events ++ later, after)

/-- Whether a listed child is fetched: it is in scope, there is something to keep or to look at,
and the fetch is a full one, or nothing of the child is cached. -/
def wantsFetch (cache : Cache) (now : Moment) (full : Bool) (path : Path) : Bool :=
  match cache.scope path with
  | none => false
  | some (action, traverse) =>
    (action.isStored || traverse) &&
      (full || !action.isStored || !cache.store.contains now path)

/-- The children to fetch, in the order of the list. -/
def wantedChildren (cache : Cache) (now : Moment) (full : Bool) (parent : Path)
    (names : List Text) : List Path :=
  (names.map (Path.child parent)).filter (cache.wantsFetch now full)

def describe (cache : Cache) (now : Moment) : Text :=
  Text.openRecord "CuratorCache"
    [Text.field "base_path" (Text.quoted cache.options.basePath),
      Text.field "mode" cache.options.mode.describe,
      Text.field "size" (Text.ofNat (cache.store.size now))]

end Cache

end WatchedTree
