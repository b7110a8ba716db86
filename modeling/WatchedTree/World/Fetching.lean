import WatchedTree.World.Basic

/-!
The run of a fetch: payload or stat, then the child list, then the commit and the fetches of the
children. Every way out ends the registration with the store and counts the fetch as done, once.
-/
namespace WatchedTree

namespace World

/-- Ends a visit: the store forgets it, a failure is reported, and the refresh counts down. -/
def endVisit (world : World) (visit : Visit) (failure : Option Failure) : World :=
  let ended := world.updateCache visit.cache fun cache =>
    { cache with store := cache.store.endFetch visit.epoch }
  let reported := match failure with
    | none => ended
    | some failure => ended.report visit.cache "Background fetch failed" failure
  reported.countDown visit.fetch.refresh

/-- Ends a visit with a fault of one of its reads. -/
def failVisit (world : World) (visit : Visit) (fault : TransportFault) : World :=
  world.endVisit visit (some (.fetchFailed visit.path fault))

/-- The node is not there: it goes with everything below it. For the base a watch is armed that
tells of its creation, and if it has appeared meanwhile it is fetched again. -/
def visitAbsent (world : World) (visit : Visit) : World :=
  let removed := world.removeSubtree visit.cache visit.path
  match removed.caches[visit.cache]? with
  | none => removed.endVisit visit none
  | some cache =>
    if visit.path ≠ cache.options.basePath then removed.endVisit visit none
    else match removed.ensemble.readStat visit.session visit.path with
      | (.error fault, ensemble) => (removed.setEnsemble ensemble).failVisit visit fault
      | (.ok none, ensemble) => (removed.setEnsemble ensemble).endVisit visit none
      | (.ok (some _), ensemble) =>
        ((removed.setEnsemble ensemble).spawn { visit.fetch with full := true }).endVisit visit none

/-- A read failed: the node is absent, or the visit fails. -/
def visitFault (world : World) (visit : Visit) (fault : TransportFault) : World :=
  if fault.isNoNode then world.visitAbsent visit else world.failVisit visit fault

/-- Brings the cache in line with a list of children: drops what the list leaves out, and fetches
what is wanted of the list. -/
def reconcileChildren (world : World) (visit : Visit) (names : List Text) : World :=
  match world.caches[visit.cache]? with
  | none => world
  | some cache =>
    let (events, after) :=
      Cache.removeSubtrees world.now (cache.vanished world.now visit.path names) cache
    let wanted := after.wantedChildren world.now visit.fetch.full visit.path names
    ((world.setCache visit.cache after).dispatchAll visit.cache events).spawnAll
      (wanted.map fun path => { visit.fetch with path })

/-- Keeps a node, if the action asks for it, and tells the listeners. -/
def commit (world : World) (visit : Visit) (node : Node) : World :=
  if !visit.action.isStored then world
  else match world.caches[visit.cache]? with
    | none => world
    | some cache =>
      let (event, after) := cache.commit world.now node visit.epoch
      (world.setCache visit.cache after).dispatchAll visit.cache event.toList

/-- All reads are done. What was removed meanwhile is not followed any further. -/
def visitRead (world : World) (visit : Visit) (stat : Option Stat) (data : Option Payload)
    (children : Option (List Text)) : World :=
  let kept := if visit.action.wantsChildren then children else none
  let committed := world.commit visit { path := visit.path, stat, data, children := kept }
  match committed.caches[visit.cache]?, children with
  | some cache, some names =>
    if visit.traverse && !cache.store.deletedSince visit.path visit.epoch then
      (committed.reconcileChildren visit names).endVisit visit none
    else committed.endVisit visit none
  | _, _ => committed.endVisit visit none

/-- Reads the child list, if it is kept or followed. -/
def visitChildren (world : World) (visit : Visit) (stat : Option Stat) (data : Option Payload) :
    World :=
  if !visit.action.wantsChildren && !visit.traverse then world.visitRead visit stat data none
  else match world.ensemble.readChildren visit.session visit.path with
    | (.error fault, ensemble) => (world.setEnsemble ensemble).visitFault visit fault
    | (.ok names, ensemble) =>
      let sorts := match world.caches[visit.cache]? with
        | none => false
        | some cache => cache.options.sortChildren
      (world.setEnsemble ensemble).visitRead visit stat data
        (some (if sorts then Text.sort names else names))

/-- Goes on with the answer to the payload read. -/
def visitData (world : World) (visit : Visit) : DataAnswer → World
  | .error fault => world.visitFault visit fault
  | .ok (data, stat) => world.visitChildren visit (some stat) (some data)

/-- Makes the first read of a visit. A held answer suspends it. -/
def beginVisit (world : World) (visit : Visit) : World :=
  if visit.action.wantsData then
    match world.ensemble.readData visit.session visit.path with
    | (answer, some hold, ensemble) =>
      let held := world.setEnsemble ensemble
      { held with suspended := held.suspended ++ [{ hold, visit, answer }] }
    | (answer, none, ensemble) => (world.setEnsemble ensemble).visitData visit answer
  else if visit.action.wantsStat then
    match world.ensemble.readStat visit.session visit.path with
    | (.error fault, ensemble) => (world.setEnsemble ensemble).failVisit visit fault
    | (.ok none, ensemble) => (world.setEnsemble ensemble).visitAbsent visit
    | (.ok (some stat), ensemble) =>
      (world.setEnsemble ensemble).visitChildren visit (some stat) none
  else world.visitChildren visit none none

/-- Runs a queued fetch. A closed cache, and a path outside the cache, need none. -/
def runFetch (world : World) (fetch : Fetch) : World :=
  match world.caches[fetch.cache]? with
  | none => world.countDown fetch.refresh
  | some cache =>
    if cache.isClosed then world.countDown fetch.refresh
    else match cache.scope fetch.path with
      | none => world.countDown fetch.refresh
      | some (action, traverse) =>
        match world.connection.acquire world.now with
        | (.error failure, connection) =>
          ({ world with connection }.report fetch.cache "Background fetch failed" failure).countDown
            fetch.refresh
        | (.ok session, connection) =>
          let (epoch, store) := cache.store.beginFetch
          ({ world with connection }.setCache fetch.cache { cache with store }).beginVisit
            { fetch, session, epoch, action, traverse }

def perform (world : World) : Task → World
  | .fetch fetch => world.runFetch fetch
  | .resume visit answer => world.visitData visit answer
  | .deliver cache subscriber => world.deliver cache subscriber

/-- Runs the task at the front of the queue. -/
def step (world : World) : World :=
  match world.queue with
  | [] => world
  | task :: tasks => { world with queue := tasks }.perform task

/-- Runs that many tasks, or as many as there are. -/
def run : Nat → World → World
  | 0, world => world
  | steps + 1, world => run steps world.step

/-- A round runs at most this many tasks. -/
def roundLength : Nat := 61

/-- Runs the tasks of a round, and then queues the deferred ones. -/
def round (world : World) : World :=
  let ran := run roundLength world
  { ran with queue := ran.queue ++ ran.deferred, deferred := [] }

/-- Holds if no task is queued or deferred. -/
def isIdle (world : World) : Bool := world.queue.isEmpty && world.deferred.isEmpty

end World

end WatchedTree
