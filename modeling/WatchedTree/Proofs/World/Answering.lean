import WatchedTree.World.Commands

/-!
# Fetches against any answers

A fetch asks for a session and makes up to three reads. The remote side of the world gives some
patterns of answers only: here a fetch is run against any, and where its run stops is told apart
from what follows. With the answers of the remote side this is the fetch that the queue runs.
-/
namespace WatchedTree

/-- Who answers the requests of fetches. An answer may depend on all that was asked before, as every
answer may leave the remote side in another state. -/
structure Answering where
  session : Moment → Connection Ensemble CacheId →
    Except Failure SessionId × Connection Ensemble CacheId
  data : Ensemble → SessionId → Path → DataAnswer × Option HoldId × Ensemble
  stat : Ensemble → SessionId → Path → Except TransportFault (Option Stat) × Ensemble
  children : Ensemble → SessionId → Path → Except TransportFault (List Text) × Ensemble

/-- Where the run of a fetch stops. -/
inductive Stop where
  | done
  /-- The answer to the payload read is held back. -/
  | waits
  /-- There is no session to be had. -/
  | refused (failure : Failure)
  /-- A read failed. -/
  | failed (fault : TransportFault)
  /-- There is no node at the base, and the read failed that was to arm the watch for it. -/
  | unwatched (fault : TransportFault)
deriving DecidableEq

namespace Stop

/-- The error that a fetch of a path ends in, if it ends in one. -/
def failure? (path : Path) : Stop → Option Failure
  | .done | .waits => none
  | .refused failure => some failure
  | .failed fault | .unwatched fault => some (.fetchFailed path fault)

end Stop

/-- Where a fetch is taken up: at its turn, or with the answer to its payload read. -/
inductive Leg where
  | turn (fetch : Fetch)
  | answered (visit : Visit) (answer : DataAnswer)

namespace Leg

def fetch : Leg → Fetch
  | .turn fetch => fetch
  | .answered visit _ => visit.fetch

def task : Leg → Task
  | .turn fetch => .fetch fetch
  | .answered visit answer => .resume visit answer

end Leg

namespace Answering

variable (answering : Answering) (world : World) (visit : Visit)

/-- The node is not there. -/
def absent : Stop × World :=
  let removed := world.removeSubtree visit.cache visit.path
  match removed.caches[visit.cache]? with
  | none => (.done, removed)
  | some cache =>
    if visit.path ≠ cache.options.basePath then (.done, removed)
    else match answering.stat removed.ensemble visit.session visit.path with
      | (.error fault, ensemble) => (.unwatched fault, removed.setEnsemble ensemble)
      | (.ok none, ensemble) => (.done, removed.setEnsemble ensemble)
      | (.ok (some _), ensemble) =>
        (.done, (removed.setEnsemble ensemble).spawn { visit.fetch with full := true })

/-- The payload or the list of children could not be read. -/
def faulty (fault : TransportFault) : Stop × World :=
  if fault.isNoNode then answering.absent world visit else (.failed fault, world)

/-- All reads are done. -/
def complete (stat : Option Stat) (data : Option Payload) (children : Option (List Text)) : World :=
  let kept := if visit.action.wantsChildren then children else none
  let committed := world.commit visit { path := visit.path, stat, data, children := kept }
  match committed.caches[visit.cache]?, children with
  | some cache, some names =>
    if visit.traverse && !cache.store.deletedSince visit.path visit.epoch then
      committed.reconcileChildren visit names
    else committed
  | _, _ => committed

/-- Reads the list of children, if it is kept or followed. -/
def list (stat : Option Stat) (data : Option Payload) : Stop × World :=
  if !visit.action.wantsChildren && !visit.traverse then
    (.done, complete world visit stat data none)
  else match answering.children world.ensemble visit.session visit.path with
    | (.error fault, ensemble) => answering.faulty (world.setEnsemble ensemble) visit fault
    | (.ok names, ensemble) =>
      let sorts := match world.caches[visit.cache]? with
        | none => false
        | some cache => cache.options.sortChildren
      (.done, complete (world.setEnsemble ensemble) visit stat data
        (some (if sorts then Text.sort names else names)))

/-- Goes on with the answer to the payload read. -/
def goOn : DataAnswer → Stop × World
  | .error fault => answering.faulty world visit fault
  | .ok (data, stat) => answering.list world visit (some stat) (some data)

/-- Makes the reads. -/
def read : Stop × World :=
  if visit.action.wantsData then
    match answering.data world.ensemble visit.session visit.path with
    | (answer, some hold, ensemble) =>
      let held := world.setEnsemble ensemble
      (.waits, { held with suspended := held.suspended ++ [{ hold, visit, answer }] })
    | (answer, none, ensemble) => answering.goOn (world.setEnsemble ensemble) visit answer
  else if visit.action.wantsStat then
    match answering.stat world.ensemble visit.session visit.path with
    | (.error fault, ensemble) => (.failed fault, world.setEnsemble ensemble)
    | (.ok none, ensemble) => answering.absent (world.setEnsemble ensemble) visit
    | (.ok (some stat), ensemble) =>
      answering.list (world.setEnsemble ensemble) visit (some stat) none
  else answering.list world visit none none

end Answering

namespace Visit

/-- Unless the visit waits, the store forgets it. -/
def leave (visit : Visit) : Stop × World → Stop × World
  | (.waits, world) => (.waits, world)
  | (stop, world) =>
    (stop, world.updateCache visit.cache fun cache =>
      { cache with store := cache.store.endFetch visit.epoch })

end Visit

namespace Fetch

/-- Unless the fetch waits, an error is reported, and the refresh counts down. -/
def settle (fetch : Fetch) : Stop × World → World
  | (.waits, world) => world
  | (stop, world) =>
    let reported := match stop.failure? fetch.path with
      | none => world
      | some failure => world.report fetch.cache "Background fetch failed" failure
    reported.countDown fetch.refresh

end Fetch

namespace Answering

variable (answering : Answering) (world : World)

/-- Runs a fetch whose turn it is. -/
def load (fetch : Fetch) : Stop × World :=
  match world.caches[fetch.cache]? with
  | none => (.done, world)
  | some cache =>
    if cache.isClosed then (.done, world)
    else match cache.scope fetch.path with
      | none => (.done, world)
      | some (action, traverse) =>
        match answering.session world.now world.connection with
        | (.error failure, connection) => (.refused failure, { world with connection })
        | (.ok session, connection) =>
          let (epoch, store) := cache.store.beginFetch
          let visit : Visit := { fetch, session, epoch, action, traverse }
          visit.leave (answering.read
            (({ world with connection }).setCache fetch.cache { cache with store }) visit)

def run : Leg → Stop × World
  | .turn fetch => answering.load world fetch
  | .answered visit answer => visit.leave (answering.goOn world visit answer)

/-- The answers of the connection and of the remote side. -/
def ofEnsemble : Answering where
  session now connection := connection.acquire now
  data := Ensemble.readData
  stat := Ensemble.readStat
  children := Ensemble.readChildren

/-! ## The fetches of the queue -/

variable (visit : Visit)

theorem settle_absent :
    visit.fetch.settle (visit.leave (ofEnsemble.absent world visit)) = world.visitAbsent visit := by
  unfold absent World.visitAbsent
  simp only
  generalize world.removeSubtree visit.cache visit.path = removed
  cases removed.caches[visit.cache]? with
  | none => rfl
  | some cache =>
      by_cases isOther : visit.path ≠ cache.options.basePath
      · simp only [if_pos isOther]
        rfl
      · simp only [if_neg isOther, ofEnsemble]
        generalize Ensemble.readStat _ visit.session visit.path = answered
        obtain ⟨answer, ensemble⟩ := answered
        rcases answer with fault | _ | stat <;> rfl

theorem settle_faulty (fault : TransportFault) :
    visit.fetch.settle (visit.leave (ofEnsemble.faulty world visit fault)) =
      world.visitFault visit fault := by
  unfold faulty World.visitFault
  split
  · exact settle_absent world visit
  · rfl

theorem settle_complete (stat : Option Stat) (data : Option Payload)
    (children : Option (List Text)) :
    visit.fetch.settle (visit.leave (.done, complete world visit stat data children)) =
      world.visitRead visit stat data children := by
  unfold complete World.visitRead
  simp only
  generalize world.commit visit _ = committed
  cases committed.caches[visit.cache]? with
  | none => rfl
  | some cache =>
      cases children with
      | none => rfl
      | some names =>
          simp only
          split <;> rfl

theorem settle_list (stat : Option Stat) (data : Option Payload) :
    visit.fetch.settle (visit.leave (ofEnsemble.list world visit stat data)) =
      world.visitChildren visit stat data := by
  unfold list World.visitChildren
  split
  · exact settle_complete world visit stat data none
  · simp only [ofEnsemble]
    generalize Ensemble.readChildren _ visit.session visit.path = answered
    obtain ⟨answer, ensemble⟩ := answered
    cases answer with
    | error fault => exact settle_faulty (world.setEnsemble ensemble) visit fault
    | ok names => exact settle_complete (world.setEnsemble ensemble) visit stat data _

theorem settle_goOn (answer : DataAnswer) :
    visit.fetch.settle (visit.leave (ofEnsemble.goOn world visit answer)) =
      world.visitData visit answer := by
  cases answer with
  | error fault => exact settle_faulty world visit fault
  | ok answer => exact settle_list world visit (some answer.2) (some answer.1)

theorem settle_read :
    visit.fetch.settle (visit.leave (ofEnsemble.read world visit)) = world.beginVisit visit := by
  unfold read World.beginVisit
  split
  · simp only [ofEnsemble]
    generalize Ensemble.readData _ visit.session visit.path = answered
    obtain ⟨answer, hold, ensemble⟩ := answered
    cases hold with
    | none => exact settle_goOn (world.setEnsemble ensemble) visit answer
    | some hold => rfl
  · split
    · simp only [ofEnsemble]
      generalize Ensemble.readStat _ visit.session visit.path = answered
      obtain ⟨answer, ensemble⟩ := answered
      rcases answer with fault | _ | stat
      · rfl
      · exact settle_absent (world.setEnsemble ensemble) visit
      · exact settle_list (world.setEnsemble ensemble) visit (some stat) none
    · exact settle_list world visit none none

theorem settle_load (fetch : Fetch) :
    fetch.settle (ofEnsemble.load world fetch) = world.runFetch fetch := by
  unfold load World.runFetch
  cases world.caches[fetch.cache]? with
  | none => rfl
  | some cache =>
      simp only
      split
      · rfl
      · cases cache.scope fetch.path with
        | none => rfl
        | some inScope =>
            simp only [ofEnsemble]
            generalize world.connection.acquire world.now = acquired
            obtain ⟨answer, connection⟩ := acquired
            cases answer with
            | error failure => rfl
            | ok session => exact settle_read _ _

/-- The fetches of the queue are those that get the answers of the remote side. -/
theorem perform_eq_settle (leg : Leg) :
    world.perform leg.task = leg.fetch.settle (ofEnsemble.run world leg) := by
  cases leg with
  | turn fetch => exact (settle_load world fetch).symm
  | answered visit answer => exact (settle_goOn world visit answer).symm

end Answering

end WatchedTree
