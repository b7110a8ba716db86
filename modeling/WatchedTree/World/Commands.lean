import WatchedTree.World.Fetching

/-!
What can be done to a world from outside: changes of the remote tree, session changes, calls on
the connection, and calls on the caches.
-/
namespace WatchedTree

namespace World

/-! ## Events -/

/-- What a cache makes of an event. A regained connection refreshes everything; a fired watch
refreshes its path, and a deletion removes it. -/
def tell (event : Event) (id : CacheId) (world : World) : World :=
  match world.caches[id]? with
  | none => world
  | some cache =>
    if cache.isClosed then world
    else if event.isSession then
      let connected := event.state == .syncConnected
      let noted := world.setCache id { cache with connected }
      if connected && !cache.connected then
        noted.backgroundRefresh id cache.options.basePath true
      else noted
    else match event.path with
      | none => world
      | some path =>
        if (cache.scope path).isNone then world
        else match event.kind with
          | .session => world
          | .created => world.backgroundRefresh id path true
          | .dataChanged | .childrenChanged => world.backgroundRefresh id path false
          | .deleted =>
            let removed := world.removeSubtree id path
            if path = cache.options.basePath then removed.backgroundRefresh id path true
            else removed

/-- Hands an event to the connection, whatever session it comes from. -/
def occur (world : World) (event : Event) : World :=
  let absorbed := { world with connection := world.connection.absorb world.now event }
  Connection.forward (·.connection) (tell event) absorbed

/-- Hands an event to a handler; only the handler of the present generation passes it on. -/
def deliverEvent (world : World) (delivery : Delivery) : World :=
  if delivery.handler = world.connection.generation then world.occur delivery.event else world

/-! ## The remote side -/

/-- Makes a change of the tree, and delivers the events it causes. -/
def change (world : World)
    (attempt : Ensemble → Except TransportFault (List Delivery) × Ensemble) :
    Except TransportFault Unit × World :=
  match attempt world.ensemble with
  | (.error fault, ensemble) => (.error fault, world.setEnsemble ensemble)
  | (.ok deliveries, ensemble) =>
    (.ok (), deliveries.foldl deliverEvent (world.setEnsemble ensemble))

def create (world : World) (path : Path) (data : Payload) (owner : Int) :
    Except TransportFault Unit × World :=
  world.change fun ensemble => ensemble.create path data owner

def setData (world : World) (path : Path) (data : Payload) : Except TransportFault Unit × World :=
  world.change fun ensemble => ensemble.setData path data

def delete (world : World) (path : Path) : Except TransportFault Unit × World :=
  world.change fun ensemble => ensemble.delete path

def replaceSilently (world : World) (path : Path) (data : Payload) : World :=
  world.setEnsemble (world.ensemble.replaceSilently path data)

def failReads (world : World) (path : Path) : World :=
  world.setEnsemble (world.ensemble.failReads path)

def healReads (world : World) (path : Path) : World :=
  world.setEnsemble (world.ensemble.healReads path)

def refuseSessions (world : World) (refusing : Bool) : World :=
  world.setEnsemble { world.ensemble with refusing }

/-- Delivers a state to every session that is open now. -/
def announce (world : World) (state : KeeperState) : World :=
  world.ensemble.openSessions.foldl
    (fun current session =>
      current.deliverEvent { handler := session.handler, event := .ofSession state }) world

/-- Expires every session that is open now, one after the other. -/
def expireSessions (world : World) : World :=
  world.ensemble.openSessions.foldl
    (fun current session =>
      (current.setEnsemble (current.ensemble.expireSession session.id)).deliverEvent
        { handler := session.handler, event := .ofSession .expired }) world

/-- Holds back the next payload read of a path. -/
def hold (world : World) (path : Path) : HoldId × World :=
  let (id, ensemble) := world.ensemble.hold path
  (id, world.setEnsemble ensemble)

/-- Releases a hold; a fetch that waits for it goes to the back of the queue. -/
def release (world : World) (id : HoldId) : World :=
  let released := world.setEnsemble (world.ensemble.release id)
  let woken := released.suspended.filter fun suspension => suspension.hold = id
  { released with
    suspended := released.suspended.filter fun suspension => suspension.hold ≠ id }.enqueue
      (woken.map fun (suspension : Suspension) => .resume suspension.visit suspension.answer)

/-- Moves the clock, and then lets the tasks of one round run. -/
def advance (world : World) (span : Span) : World :=
  { world with now := world.now + span }.round

/-! ## The connection -/

def startConnection (world : World) : Except Failure Unit × World :=
  let (answer, connection) := world.connection.start world.now
  (answer, { world with connection })

def acquire (world : World) : Except Failure SessionId × World :=
  let (answer, connection) := world.connection.acquire world.now
  (answer, { world with connection })

def closeConnection (world : World) : Except Failure Unit × World :=
  let (answer, connection) := world.connection.close world.now
  (answer, { world with connection })

def pollFailure (world : World) : Option Failure × World :=
  let (failure, connection) := world.connection.pollFailure
  (failure, { world with connection })

def readCounters (world : World) : List Nat × World :=
  let (values, connection) := world.connection.readCounters
  (values, { world with connection })

/-! ## Caches -/

def build (world : World) (path : Path) (calls : List BuilderCall) :
    Except Failure CacheId × World :=
  match (CacheBuilder.applyAll path calls).build with
  | .error cause => (.error (.configuration cause), world)
  | .ok options =>
    (.ok world.caches.length, { world with caches := world.caches ++ [Cache.ofOptions options] })

/-- Starts a refresh for a caller, and hands out its token. -/
def refresh (world : World) (id : CacheId) (path : Path) : ChannelId × World :=
  match world.caches[id]? with
  | none => world.settledToken (.error .closed)
  | some cache =>
    match cache.phase with
    | .latent => world.settledToken (.error .notStarted)
    | .closed => world.settledToken (.error .closed)
    | .started =>
      if (cache.scope path).isNone then
        world.settledToken
          (.error (.illegalState (.outsideCache path cache.options.basePath)))
      else match world.acquire with
        | (.error failure, after) =>
          (after.report id "Refresh could not be issued" failure).settledToken (.error failure)
        | (.ok _, after) =>
          let (channel, opened) := after.addChannel {}
          let (refresh, added) := opened.addRefresh id path (some channel)
          (channel, added.spawn { cache := id, refresh, path, full := true })

/-- Refreshes the base of a cache. -/
def refreshAll (world : World) (id : CacheId) : ChannelId × World :=
  match world.caches[id]? with
  | none => world.settledToken (.error .closed)
  | some cache => world.refresh id cache.options.basePath

/-- Starts a cache: it registers with the connection, and refreshes its base if it is told to. -/
def start (world : World) (id : CacheId) : Except Failure ChannelId × World :=
  match world.caches[id]? with
  | none => (.error .closed, world)
  | some cache =>
    if !world.hasRuntime then (.error (.illegalState .noRuntime), world)
    else match cache.phase with
      | .closed => (.error .closed, world)
      | .started => (.error (.illegalState .alreadyStarted), world)
      | .latent =>
        let (registration, listeners) := world.connection.listeners.add id
        let started :=
          { world with connection := { world.connection with listeners } }.setCache id
            { cache with
              phase := .started
              connected := world.connection.isConnected
              registration := some registration }
        let (token, after) :=
          if cache.options.refreshOnStart then started.refreshAll id
          else started.settledToken (.ok ())
        (.ok token, after)

/-- Closes a cache for good: it leaves the connection, and its subscribers are woken to note the
end. -/
def closeCache (world : World) (id : CacheId) : World :=
  match world.caches[id]? with
  | none => world
  | some cache =>
    if cache.isClosed then world
    else
      let listeners := match cache.registration with
        | none => world.connection.listeners
        | some registration => (world.connection.listeners.remove registration).2
      ({ world with connection := { world.connection with listeners } }.setCache id
        cache.close).enqueue (cache.feed.idle.map (Task.deliver id))

/-- Registers a listener for events; its delivery is queued at once. -/
def listen (world : World) (id : CacheId) (listener : Listener) : RegistrationId × World :=
  match world.caches[id]? with
  | none => (0, world)
  | some cache =>
    let (registration, feed) := cache.feed.add listener
    (registration, (world.setCache id { cache with feed }).enqueue [.deliver id registration])

/-- Ends a registration for events, and wakes the subscriber to note it. -/
def unlisten (world : World) (id : CacheId) (registration : RegistrationId) : Bool × World :=
  match world.caches[id]? with
  | none => (false, world)
  | some cache =>
    let (present, feed) := cache.feed.remove registration
    let woken := cache.feed.idle.filter (· = registration)
    (present, (world.setCache id { cache with feed }).enqueue (woken.map (Task.deliver id)))

/-- Registers a listener for failures. -/
def onError (world : World) (id : CacheId) (listener : Listener) : RegistrationId × World :=
  match world.caches[id]? with
  | none => (0, world)
  | some cache =>
    let (registration, errorListeners) := cache.errorListeners.add listener
    (registration, world.setCache id { cache with errorListeners })

def offError (world : World) (id : CacheId) (registration : RegistrationId) : Bool × World :=
  match world.caches[id]? with
  | none => (false, world)
  | some cache =>
    let (present, errorListeners) := cache.errorListeners.remove registration
    (present, world.setCache id { cache with errorListeners })

/-! ## Snapshots -/

/-- Reads a cached node, which counts as a use of it. -/
def get (world : World) (id : CacheId) (path : Path) : Option Node × World :=
  match world.caches[id]? with
  | none => (none, world)
  | some cache =>
    let (node, store) := cache.store.get world.now path
    (node, world.setCache id { cache with store })

/-- Drops a path from the snapshot without telling anybody; whether it was there. -/
def clear (world : World) (id : CacheId) (path : Path) : Bool × World :=
  match world.caches[id]? with
  | none => (false, world)
  | some cache =>
    let (node, store) := cache.store.remove world.now path
    (node.isSome, world.setCache id { cache with store })

def clearAll (world : World) (id : CacheId) : World :=
  world.updateCache id fun cache => { cache with store := cache.store.clear }

/-- Whether a payload of this version may be released; a negative number stands for any version. -/
def matchesVersion (version : Int) (node : Node) : Bool :=
  version < 0 || node.version == some version

/-- Releases the payload of a cached node if its version fits; whether it was released. -/
def clearDataIf (world : World) (id : CacheId) (path : Path) (version : Int) : Bool × World :=
  match world.caches[id]? with
  | none => (false, world)
  | some cache =>
    let (released, store) := cache.store.update world.now path fun node =>
      if matchesVersion version node then some node.withoutData else none
    (released, world.setCache id { cache with store })

/-- Releases the payload of a cached node, whatever its version. -/
def clearData (world : World) (id : CacheId) (path : Path) : World :=
  (world.clearDataIf id path (-1)).2

end World

end WatchedTree
