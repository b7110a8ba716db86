import WatchedTree.Cache.State
import WatchedTree.Ensemble
import WatchedTree.Refresh.Channel
import WatchedTree.Refresh.Refresher

/-!
A client and its remote side as one state: the connection over the ensemble, the caches, the
refreshes under way, and the queue of tasks that run one at a time, first come first served.
-/
namespace WatchedTree

/-- The number of a cache. -/
abbrev CacheId := Nat

/-- The number of a refresh. -/
abbrev RefreshId := Nat

/-- The number of the channel behind a token. -/
abbrev ChannelId := Nat

/-- One fetch of a path on behalf of a refresh. A full fetch fetches every child again, any other
only the children that are not cached. -/
structure Fetch where
  cache : CacheId
  refresh : RefreshId
  path : Path
  full : Bool
deriving DecidableEq, Repr

/-- A fetch that has its session, and is registered with the store under an epoch. -/
structure Visit where
  fetch : Fetch
  session : SessionId
  epoch : Epoch
  action : Action
  traverse : Bool
deriving DecidableEq, Repr

namespace Visit

def path (visit : Visit) : Path := visit.fetch.path

def cache (visit : Visit) : CacheId := visit.fetch.cache

end Visit

/-- The answer to a read of payload and stat. -/
abbrev DataAnswer := Except TransportFault (Payload × Stat)

/-- A unit of work that runs until it ends or waits. -/
inductive Task where
  | fetch (fetch : Fetch)
  /-- A fetch whose payload read was held back, with the answer it had taken. -/
  | resume (visit : Visit) (answer : DataAnswer)
  /-- Calls a subscriber with what it has not seen yet. -/
  | deliver (cache : CacheId) (subscriber : RegistrationId)

/-- A fetch that waits for the release of a hold. -/
structure Suspension where
  hold : HoldId
  visit : Visit
  answer : DataAnswer

/-- A refresh: its count, the cache that is told of its end, and the channel that is resolved. -/
structure Refresh where
  cache : CacheId
  refresher : Refresher
  channel : Option ChannelId
deriving DecidableEq, Repr

/-- What a listener was called with. -/
inductive Heard where
  | event (event : CacheEvent)
  | failure (message : Text) (failure : Failure)
deriving DecidableEq, Repr

/-- One call of a listener, and whether the call failed. -/
structure Call where
  label : Text
  heard : Heard
  failed : Bool
deriving DecidableEq, Repr

structure World where
  now : Moment := 0
  /-- Whether tasks can be run at all. -/
  hasRuntime : Bool := true
  connection : Connection Ensemble CacheId
  /-- Every cache ever built, dropped ones included. -/
  caches : List Cache := []
  refreshes : List Refresh := []
  channels : List Channel := []
  queue : List Task := []
  /-- The tasks that wait for the next round, the last one first. -/
  deferred : List Task := []
  suspended : List Suspension := []
  /-- The calls of listeners, oldest first. -/
  calls : List Call := []

namespace World

/-- The connection section of a world that is given none. -/
def defaultConfig : ConnectionConfig :=
  { connectString := "mock:2181".toList, sessionTimeoutMillis := 1000
    connectionTimeoutMillis := 500 }

/-- A world with nothing but a connection that was not started. -/
def ofConfig (config : ConnectionConfig) : World :=
  { connection := { remote := {}, config } }

def ensemble (world : World) : Ensemble := world.connection.remote

def setEnsemble (world : World) (ensemble : Ensemble) : World :=
  { world with connection := { world.connection with remote := ensemble } }

def setCache (world : World) (id : CacheId) (cache : Cache) : World :=
  { world with caches := world.caches.set id cache }

def updateCache (world : World) (id : CacheId) (change : Cache → Cache) : World :=
  { world with caches := world.caches.modify id change }

def enqueue (world : World) (tasks : List Task) : World :=
  { world with queue := world.queue ++ tasks }

/-! ## Telling listeners -/

def call (world : World) (listener : Listener) (heard : Heard) : World :=
  { world with
    calls := world.calls ++ [{ label := listener.label, heard, failed := listener.fails }] }

/-- Writes an event into the feed of a cache, and queues the deliveries that it wakes. -/
def dispatch (world : World) (id : CacheId) (event : CacheEvent) : World :=
  match world.caches[id]? with
  | none => world
  | some cache =>
    let (woken, feed) := cache.feed.dispatch event
    (world.setCache id { cache with feed }).enqueue (woken.map (Task.deliver id))

def dispatchAll (world : World) (id : CacheId) (events : List CacheEvent) : World :=
  events.foldl (fun state event => state.dispatch id event) world

/-- Calls a subscriber with what it has not seen yet. A call that fails does not keep the next one
from being made. A delivery that is not finished waits for the next round. -/
def deliver (world : World) (id : CacheId) (subscriber : RegistrationId) : World :=
  match world.caches[id]? with
  | none => world
  | some cache =>
    match cache.feed.deliver subscriber with
    | (none, _) => world
    | (some handover, feed) =>
      let told := handover.events.foldl
        (fun state event => state.call handover.listener (.event event))
        (world.setCache id { cache with feed })
      if handover.unfinished then
        { told with deferred := .deliver id subscriber :: told.deferred }
      else told

/-- Tells the error listeners of a cache of a failure that no caller waits for. -/
def report (world : World) (id : CacheId) (message : String) (failure : Failure) : World :=
  match world.caches[id]? with
  | none => world
  | some cache =>
    cache.errorListeners.snapshot.foldl
      (fun state listener => state.call listener (.failure message.toList failure)) world

/-! ## Channels -/

def addChannel (world : World) (channel : Channel) : ChannelId × World :=
  (world.channels.length, { world with channels := world.channels ++ [channel] })

def updateChannel (world : World) (id : ChannelId) (change : Channel → Channel) : World :=
  { world with channels := world.channels.modify id change }

/-- A token that has its outcome already. -/
def settledToken (world : World) (outcome : Outcome) : ChannelId × World :=
  world.addChannel (.settled outcome)

/-- Reads a token: `none` while its refresh runs. -/
def readToken (world : World) (id : ChannelId) : Option Outcome × World :=
  match world.channels[id]? with
  | none => (none, world)
  | some channel =>
    let (outcome, after) := channel.read
    (outcome, { world with channels := world.channels.set id after })

def cancelToken (world : World) (id : ChannelId) : World := world.updateChannel id Channel.cancel

def isCancelled (world : World) (id : ChannelId) : Bool :=
  match world.channels[id]? with
  | none => false
  | some channel => channel.cancelled

/-! ## Refreshes -/

def addRefresh (world : World) (id : CacheId) (path : Path) (channel : Option ChannelId) :
    RefreshId × World :=
  (world.refreshes.length,
    { world with
      refreshes := world.refreshes ++ [{ cache := id, refresher := { path }, channel }] })

def countUp (world : World) (id : RefreshId) : World :=
  { world with
    refreshes := world.refreshes.modify id fun refresh =>
      { refresh with refresher := refresh.refresher.increment } }

/-- Notes the end of a refresh with its cache, and tells the listeners if they want to know. -/
def refreshed (world : World) (id : CacheId) (path : Path) (cancelled : Bool) : World :=
  match world.caches[id]? with
  | none => world
  | some cache =>
    let counted := world.setCache id { cache with refreshCount := cache.refreshCount + 1 }
    if !cancelled && cache.options.sendRefreshEvents && !cache.isClosed then
      counted.dispatch id (.refreshed path)
    else counted

/-- The end of a refresh. Its channel is resolved unless the token was cancelled. -/
def finish (world : World) (refresh : Refresh) : World :=
  match refresh.channel with
  | none => world.refreshed refresh.cache refresh.refresher.path false
  | some channel =>
    let cancelled := world.isCancelled channel
    let told := world.refreshed refresh.cache refresh.refresher.path cancelled
    if cancelled then told else told.updateChannel channel (Channel.complete · (.ok ()))

/-- Counts a fetch as done; the last one finishes the refresh. -/
def countDown (world : World) (id : RefreshId) : World :=
  match world.refreshes[id]? with
  | none => world
  | some refresh =>
    let (fires, refresher) := refresh.refresher.decrement
    let counted := { world with refreshes := world.refreshes.set id { refresh with refresher } }
    if fires then counted.finish refresh else counted

/-- Queues a fetch, counted for its refresh. Outside the middle phase of the cache nothing is
queued, and the fetch counts as done. -/
def spawn (world : World) (fetch : Fetch) : World :=
  let counted := world.countUp fetch.refresh
  match counted.caches[fetch.cache]? with
  | none => counted.countDown fetch.refresh
  | some cache =>
    if cache.phase = .started then counted.enqueue [.fetch fetch]
    else counted.countDown fetch.refresh

def spawnAll (world : World) (fetches : List Fetch) : World :=
  fetches.foldl (fun state fetch => state.spawn fetch) world

/-- Starts a refresh that no token stands for. -/
def backgroundRefresh (world : World) (id : CacheId) (path : Path) (full : Bool) : World :=
  let (refresh, added) := world.addRefresh id path none
  added.spawn { cache := id, refresh, path, full }

/-- Removes a path of a cache and everything below it, and tells the listeners. -/
def removeSubtree (world : World) (id : CacheId) (path : Path) : World :=
  match world.caches[id]? with
  | none => world
  | some cache =>
    let (events, after) := cache.removeSubtree world.now path
    (world.setCache id after).dispatchAll id events

end World

end WatchedTree
