import WatchedTree.Proofs.World.Answering

/-!
# What a fetch asks, and what it is answered

A fetch asks for a session, and then makes one read after the other, each of the remote side that
the last one left. Where its run stops, and in which world, follows from the answers to just these
requests.
-/
namespace WatchedTree

/-- A list of children as the cache of a visit takes it. -/
def World.arrange (world : World) (visit : Visit) (names : List Text) : List Text :=
  let sorts := match world.caches[visit.cache]? with
    | none => false
    | some cache => cache.options.sortChildren
  if sorts then Text.sort names else names

namespace Answering

/-! ## Requests -/

/-- An open cache wants a fetch, and has a session for it: the visit that begins, in its world. -/
inductive Begins (answering : Answering) (world : World) : Fetch → Visit → World → Prop where
  | session {fetch : Fetch} {cache : Cache} {action : Action} {traverse : Bool}
      {session : SessionId} {connection : Connection Ensemble CacheId}
      (found : world.caches[fetch.cache]? = some cache) (isOpen : cache.isClosed = false)
      (inScope : cache.scope fetch.path = some (action, traverse))
      (answered : answering.session world.now world.connection = (.ok session, connection)) :
      Begins answering world fetch { fetch, session, epoch := cache.store.epoch, action, traverse }
        ({ world with connection }.setCache fetch.cache
          { cache with store := cache.store.beginFetch.2 })

/-- The payload or the stat has been read, as far as they are wanted; a payload that was held back
has been read before. -/
inductive Reads (answering : Answering) (world : World) :
    Leg → Visit → Option Stat → Option Payload → World → Prop where
  | data {fetch : Fetch} {visit : Visit} {before : World} {data : Payload} {stat : Stat}
      {ensemble : Ensemble} (begins : answering.Begins world fetch visit before)
      (wantsData : visit.action.wantsData = true)
      (answered : answering.data before.ensemble visit.session visit.path =
        (.ok (data, stat), none, ensemble)) :
      Reads answering world (.turn fetch) visit (some stat) (some data)
        (before.setEnsemble ensemble)
  | held {visit : Visit} {data : Payload} {stat : Stat} :
      Reads answering world (.answered visit (.ok (data, stat))) visit (some stat) (some data) world
  | stat {fetch : Fetch} {visit : Visit} {before : World} {stat : Stat} {ensemble : Ensemble}
      (begins : answering.Begins world fetch visit before)
      (noData : visit.action.wantsData = false) (wantsStat : visit.action.wantsStat = true)
      (answered : answering.stat before.ensemble visit.session visit.path =
        (.ok (some stat), ensemble)) :
      Reads answering world (.turn fetch) visit (some stat) none (before.setEnsemble ensemble)
  | neither {fetch : Fetch} {visit : Visit} {before : World}
      (begins : answering.Begins world fetch visit before)
      (noData : visit.action.wantsData = false) (noStat : visit.action.wantsStat = false) :
      Reads answering world (.turn fetch) visit none none before

/-- All reads are done: the list of children has been read, or is not wanted. -/
inductive Collects (answering : Answering) (world : World) :
    Leg → Visit → Option Stat → Option Payload → Option (List Text) → World → Prop where
  | unlisted {leg : Leg} {visit : Visit} {stat : Option Stat} {data : Option Payload}
      {after : World} (reads : answering.Reads world leg visit stat data after)
      (unwanted : (visit.action.wantsChildren || visit.traverse) = false) :
      Collects answering world leg visit stat data none after
  | listed {leg : Leg} {visit : Visit} {stat : Option Stat} {data : Option Payload}
      {before : World} {names : List Text} {ensemble : Ensemble}
      (reads : answering.Reads world leg visit stat data before)
      (wanted : (visit.action.wantsChildren || visit.traverse) = true)
      (answered : answering.children before.ensemble visit.session visit.path =
        (.ok names, ensemble)) :
      Collects answering world leg visit stat data (some (before.arrange visit names))
        (before.setEnsemble ensemble)

/-- The read of the payload or of the list of children is answered with a fault. -/
inductive Faults (answering : Answering) (world : World) :
    Leg → Visit → TransportFault → World → Prop where
  | data {fetch : Fetch} {visit : Visit} {before : World} {fault : TransportFault}
      {ensemble : Ensemble} (begins : answering.Begins world fetch visit before)
      (wantsData : visit.action.wantsData = true)
      (answered : answering.data before.ensemble visit.session visit.path =
        (.error fault, none, ensemble)) :
      Faults answering world (.turn fetch) visit fault (before.setEnsemble ensemble)
  | held {visit : Visit} {fault : TransportFault} :
      Faults answering world (.answered visit (.error fault)) visit fault world
  | children {leg : Leg} {visit : Visit} {stat : Option Stat} {data : Option Payload}
      {before : World} {fault : TransportFault} {ensemble : Ensemble}
      (reads : answering.Reads world leg visit stat data before)
      (wanted : (visit.action.wantsChildren || visit.traverse) = true)
      (answered : answering.children before.ensemble visit.session visit.path =
        (.error fault, ensemble)) :
      Faults answering world leg visit fault (before.setEnsemble ensemble)

/-- A read is answered that there is no node. -/
inductive Misses (answering : Answering) (world : World) : Leg → Visit → World → Prop where
  | fault {leg : Leg} {visit : Visit} {fault : TransportFault} {after : World}
      (faults : answering.Faults world leg visit fault after) (noNode : fault.isNoNode = true) :
      Misses answering world leg visit after
  | stat {fetch : Fetch} {visit : Visit} {before : World} {ensemble : Ensemble}
      (begins : answering.Begins world fetch visit before)
      (noData : visit.action.wantsData = false) (wantsStat : visit.action.wantsStat = true)
      (answered : answering.stat before.ensemble visit.session visit.path = (.ok none, ensemble)) :
      Misses answering world (.turn fetch) visit (before.setEnsemble ensemble)

/-- A visit is under way: but for its registration with the store, only the remote side has
changed. -/
inductive Underway (answering : Answering) (world : World) : Leg → Visit → World → Prop where
  | begins {fetch : Fetch} {visit : Visit} {before : World}
      (begins : answering.Begins world fetch visit before) :
      Underway answering world (.turn fetch) visit before
  | answered (visit : Visit) (answer : DataAnswer) :
      Underway answering world (.answered visit answer) visit world
  | read {leg : Leg} {visit : Visit} {before : World}
      (underway : Underway answering world leg visit before) (ensemble : Ensemble) :
      Underway answering world leg visit (before.setEnsemble ensemble)

section Underway

variable {answering : Answering} {world before after : World} {leg : Leg} {visit : Visit}
  {fetch : Fetch} {stat : Option Stat} {data : Option Payload} {children : Option (List Text)}
  {fault : TransportFault}

theorem Begins.fetch_eq (begins : answering.Begins world fetch visit before) :
    visit.fetch = fetch := by
  cases begins with
  | session => rfl

theorem Underway.fetch_eq (underway : answering.Underway world leg visit after) :
    visit.fetch = leg.fetch := by
  induction underway with
  | begins begins => exact begins.fetch_eq
  | answered => rfl
  | read _ _ inductionHypothesis => exact inductionHypothesis

theorem Reads.underway (reads : answering.Reads world leg visit stat data after) :
    answering.Underway world leg visit after := by
  cases reads with
  | data begins => exact .read (.begins begins) _
  | held => exact .answered visit _
  | stat begins => exact .read (.begins begins) _
  | neither begins => exact .begins begins

theorem Collects.underway (collects : answering.Collects world leg visit stat data children after) :
    answering.Underway world leg visit after := by
  cases collects with
  | unlisted reads => exact reads.underway
  | listed reads => exact .read reads.underway _

theorem Faults.underway (faults : answering.Faults world leg visit fault after) :
    answering.Underway world leg visit after := by
  cases faults with
  | data begins => exact .read (.begins begins) _
  | held => exact .answered visit _
  | children reads => exact .read reads.underway _

theorem Misses.underway (misses : answering.Misses world leg visit after) :
    answering.Underway world leg visit after := by
  cases misses with
  | fault faults => exact faults.underway
  | stat begins => exact .read (.begins begins) _

end Underway

/-! ## Where a run stops -/

/-- The errors in which the run of a fetch may stop: the one that it got in place of a session, or
the fault that one of its reads was answered with. -/
inductive Gives (answering : Answering) (world : World) : Leg → Stop → Prop where
  | refused {fetch : Fetch} {cache : Cache} {failure : Failure}
      (found : world.caches[fetch.cache]? = some cache) (isOpen : cache.isClosed = false)
      (inScope : (cache.scope fetch.path).isSome = true)
      (answered : (answering.session world.now world.connection).1 = .error failure) :
      Gives answering world (.turn fetch) (.refused failure)
  | faulty {leg : Leg} {visit : Visit} {fault : TransportFault} {after : World}
      (faults : answering.Faults world leg visit fault after) (isOther : fault.isNoNode = false) :
      Gives answering world leg (.failed fault)
  | unseen {fetch : Fetch} {visit : Visit} {before : World} {fault : TransportFault}
      (begins : answering.Begins world fetch visit before)
      (noData : visit.action.wantsData = false) (wantsStat : visit.action.wantsStat = true)
      (answered : (answering.stat before.ensemble visit.session visit.path).1 = .error fault) :
      Gives answering world (.turn fetch) (.failed fault)
  | unwatched {leg : Leg} {visit : Visit} {before : World} {fault : TransportFault}
      (misses : answering.Misses world leg visit before)
      (answered : (answering.stat before.ensemble visit.session visit.path).1 = .error fault) :
      Gives answering world leg (.unwatched fault)

/-- What the run of a fetch comes to. -/
inductive Runs (answering : Answering) (world : World) : Leg → Stop × World → Prop where
  /-- The cache is gone or closed, or the path does not concern it. -/
  | unwanted {fetch : Fetch} : Runs answering world (.turn fetch) (.done, world)
  | refused {fetch : Fetch} {failure : Failure} {connection : Connection Ensemble CacheId}
      (gives : answering.Gives world (.turn fetch) (.refused failure))
      (answered : answering.session world.now world.connection = (.error failure, connection)) :
      Runs answering world (.turn fetch) (.refused failure, { world with connection })
  | waits {fetch : Fetch} {visit : Visit} {before : World} {answer : DataAnswer} {hold : HoldId}
      {ensemble : Ensemble} (begins : answering.Begins world fetch visit before)
      (answered : answering.data before.ensemble visit.session visit.path =
        (answer, some hold, ensemble)) :
      Runs answering world (.turn fetch)
        (.waits, { before.setEnsemble ensemble with
          suspended := before.suspended ++ [{ hold, visit, answer }] })
  | faulty {leg : Leg} {visit : Visit} {fault : TransportFault} {after : World}
      (faults : answering.Faults world leg visit fault after) (isOther : fault.isNoNode = false) :
      Runs answering world leg (visit.leave (.failed fault, after))
  | unseen {fetch : Fetch} {visit : Visit} {before : World} {fault : TransportFault}
      {ensemble : Ensemble} (begins : answering.Begins world fetch visit before)
      (noData : visit.action.wantsData = false) (wantsStat : visit.action.wantsStat = true)
      (answered : answering.stat before.ensemble visit.session visit.path =
        (.error fault, ensemble)) :
      Runs answering world (.turn fetch)
        (visit.leave (.failed fault, before.setEnsemble ensemble))
  | absent {leg : Leg} {visit : Visit} {after : World}
      (misses : answering.Misses world leg visit after) :
      Runs answering world leg (visit.leave (answering.absent after visit))
  | complete {leg : Leg} {visit : Visit} {stat : Option Stat} {data : Option Payload}
      {children : Option (List Text)} {after : World}
      (collects : answering.Collects world leg visit stat data children after) :
      Runs answering world leg (visit.leave (.done, complete after visit stat data children))

section Runs

variable {answering : Answering} {world before after : World} {leg : Leg} {visit : Visit}
  {fetch : Fetch} {stat : Option Stat} {data : Option Payload} {fault : TransportFault}

theorem runs_faulty (faults : answering.Faults world leg visit fault after) :
    answering.Runs world leg (visit.leave (answering.faulty after visit fault)) := by
  unfold faulty
  split
  next noNode => exact .absent (.fault faults noNode)
  next isOther => exact .faulty faults (eq_false_of_ne_true isOther)

theorem runs_list (reads : answering.Reads world leg visit stat data before) :
    answering.Runs world leg (visit.leave (answering.list before visit stat data)) := by
  unfold list
  rw [← Bool.not_or]
  cases wanted : visit.action.wantsChildren || visit.traverse with
  | false => exact .complete (.unlisted reads wanted)
  | true =>
      cases answered : answering.children before.ensemble visit.session visit.path with
      | mk answer ensemble =>
          cases answer with
          | error fault => exact runs_faulty (.children reads wanted answered)
          | ok names => exact .complete (.listed reads wanted answered)

theorem runs_read (begins : answering.Begins world fetch visit before) :
    answering.Runs world (.turn fetch) (visit.leave (answering.read before visit)) := by
  unfold read
  cases wantsData : visit.action.wantsData with
  | true =>
      cases answered : answering.data before.ensemble visit.session visit.path with
      | mk answer rest =>
          obtain ⟨hold, ensemble⟩ := rest
          cases hold with
          | some hold => exact .waits begins answered
          | none =>
              cases answer with
              | error fault => exact runs_faulty (.data begins wantsData answered)
              | ok answer => exact runs_list (.data begins wantsData answered)
  | false =>
      cases wantsStat : visit.action.wantsStat with
      | false => exact runs_list (.neither begins wantsData wantsStat)
      | true =>
          cases answered : answering.stat before.ensemble visit.session visit.path with
          | mk answer ensemble =>
              rcases answer with fault | _ | stat
              · exact .unseen begins wantsData wantsStat answered
              · exact .absent (.stat begins wantsData wantsStat answered)
              · exact runs_list (.stat begins wantsData wantsStat answered)

theorem runs_load (answering : Answering) (world : World) (fetch : Fetch) :
    answering.Runs world (.turn fetch) (answering.load world fetch) := by
  unfold load
  cases found : world.caches[fetch.cache]? with
  | none => exact .unwanted
  | some cache =>
      simp only
      split
      next => exact .unwanted
      next isOpen =>
        have isOpen := eq_false_of_ne_true isOpen
        cases inScope : cache.scope fetch.path with
        | none => exact .unwanted
        | some scope =>
            obtain ⟨action, traverse⟩ := scope
            have wanted := Option.isSome_of_eq_some inScope
            cases answered : answering.session world.now world.connection with
            | mk answer connection =>
                cases answer with
                | error failure =>
                    exact .refused (.refused found isOpen wanted (congrArg Prod.fst answered))
                      answered
                | ok session => exact runs_read (.session found isOpen inScope answered)

/-- Where the run of a fetch stops follows from the answers to its own requests. -/
theorem runs_run (answering : Answering) (world : World) (leg : Leg) :
    answering.Runs world leg (answering.run world leg) := by
  cases leg with
  | turn fetch => exact runs_load answering world fetch
  | answered visit answer =>
      cases answer with
      | error fault => exact runs_faulty .held
      | ok answer => exact runs_list .held

end Runs

end Answering

end WatchedTree
