import WatchedTree.Proofs.World.Journal
import WatchedTree.Proofs.World.Outcome
import WatchedTree.Proofs.World.Reached

/-!
# An answer that says there is no node

A fetch that is told so drops what its path covers, however long ago the answer was taken, and
whatever has been cached there since. What it read may be older than what another fetch has read;
unlike a payload, an absence carries no stat to be compared.
-/
namespace WatchedTree

open WatchedTree.Path

deriving instance DecidableEq for Task

namespace World

variable {world : World} {cache : Cache} {visit : Visit}

/-- The end of a visit leaves the cache in place, with one fetch less under way. -/
theorem exists_of_endVisit (found : world.caches[visit.cache]? = some cache)
    (failure : Option Failure) :
    ∃ other, (world.endVisit visit failure).caches[visit.cache]? = some other ∧
      other.quiet = cache.quiet.ended visit.epoch := by
  apply exists_of_quiet
  rw [quiet_endVisit, ← setCache_eq_updateCache _ (quiet_found found)]
  exact getElem?_setCache (quiet_found found) _

theorem exists_of_spawn (found : world.caches[visit.cache]? = some cache) (fetch : Fetch) :
    ∃ other, (world.spawn fetch).caches[visit.cache]? = some other ∧
      other.quiet = cache.quiet := by
  apply exists_of_quiet
  rw [quiet_spawn]
  split
  · exact quiet_found found
  · exact quiet_found found

theorem now_endVisit (world : World) (visit : Visit) (failure : Option Failure) :
    (world.endVisit visit failure).now = world.now := by
  rw [← quiet_now, quiet_endVisit]
  rfl

theorem now_removeSubtree (world : World) (id : CacheId) (path : Path) :
    (world.removeSubtree id path).now = world.now := by
  rw [← quiet_now, quiet_removeSubtree]
  rfl

/-- What a visit that found no node leaves in the cache, and what it tells of nodes. -/
theorem visitAbsent_spec (found : world.caches[visit.cache]? = some cache) :
    (∃ other, (world.visitAbsent visit).caches[visit.cache]? = some other ∧
      other.quiet = (cache.quiet.removeSubtree world.now visit.path).2.ended visit.epoch) ∧
    (world.visitAbsent visit).nodeEvents visit.cache =
      world.nodeEvents visit.cache ++ (cache.removeSubtree world.now visit.path).1 ∧
    (world.visitAbsent visit).now = world.now := by
  obtain ⟨dropped, droppedFound, isDropped⟩ := exists_of_removeSubtree found visit.path
  have told : (world.removeSubtree visit.cache visit.path).nodeEvents visit.cache =
      world.nodeEvents visit.cache ++ (cache.removeSubtree world.now visit.path).1 := by
    have onlyNodes : ((cache.removeSubtree world.now visit.path).1.filter
        fun event => event.node?.isSome) = (cache.removeSubtree world.now visit.path).1 := by
      rw [List.filter_eq_self]
      intro event member
      obtain ⟨node, _, rfl⟩ := List.mem_map.mp member
      rfl
    rw [nodeEvents, journal_removeSubtree found, List.filter_append, onlyNodes, nodeEvents]
  have finish : ∀ (after : World) (failure : Option Failure),
      (∃ other, after.caches[visit.cache]? = some other ∧ other.quiet = dropped.quiet) →
      after.nodeEvents visit.cache =
        (world.removeSubtree visit.cache visit.path).nodeEvents visit.cache →
      after.now = (world.removeSubtree visit.cache visit.path).now →
      (∃ other, (after.endVisit visit failure).caches[visit.cache]? = some other ∧
        other.quiet = (cache.quiet.removeSubtree world.now visit.path).2.ended visit.epoch) ∧
      (after.endVisit visit failure).nodeEvents visit.cache =
        world.nodeEvents visit.cache ++ (cache.removeSubtree world.now visit.path).1 ∧
      (after.endVisit visit failure).now = world.now := by
    rintro after failure ⟨held, heldFound, isHeld⟩ sameEvents sameTime
    obtain ⟨other, otherFound, isOther⟩ := exists_of_endVisit heldFound failure
    refine ⟨⟨other, otherFound, ?_⟩, ?_, ?_⟩
    · rw [isOther, isHeld, isDropped]
    · rw [nodeEvents_endVisit, sameEvents, told]
    · rw [now_endVisit, sameTime, now_removeSubtree]
  unfold visitAbsent
  generalize world.removeSubtree visit.cache visit.path = removed at *
  simp only [droppedFound]
  by_cases isBase : visit.path = dropped.options.basePath
  · rw [if_neg (not_not.mpr isBase)]
    cases removed.ensemble.readStat visit.session visit.path with
    | mk answer ensemble =>
        have kept : (removed.setEnsemble ensemble).caches[visit.cache]? = some dropped :=
          droppedFound
        cases answer with
        | error fault => exact finish _ _ ⟨dropped, kept, rfl⟩ rfl rfl
        | ok stat =>
            cases stat with
            | none => exact finish _ _ ⟨dropped, kept, rfl⟩ rfl rfl
            | some stat =>
                have spawned := exists_of_spawn kept { visit.fetch with full := true }
                exact finish _ _ spawned (nodeEvents_spawn _) (now_spawn _ _)
  · rw [if_pos isBase]
    exact finish _ _ ⟨dropped, droppedFound, rfl⟩ rfl rfl

/-! ## Whole runs -/

/-- Holds if a cache keeps what it has at a path and below it, and tells of no node. -/
def Spares (after before : World) (id : CacheId) (path : Path) : Prop :=
  (∀ key, Covers path key → after.cached id key = before.cached id key) ∧
    after.nodeEvents id = before.nodeEvents id

/-- What a fetch that was told of no node removes, and what it tells of that, when it goes on. -/
theorem Sound.absence (sound : world.Sound) {fault : TransportFault} {tasks : List Task}
    (waiting : world.queue = .resume visit (.error fault) :: tasks)
    (isNoNode : fault.isNoNode = true) :
    (∀ key, world.step.cached visit.cache key =
      if Covers visit.path key then none else world.cached visit.cache key) ∧
    ∃ told, world.step.nodeEvents visit.cache = world.nodeEvents visit.cache ++ told ∧
      ∀ key, CacheEvent.about told key =
        if Covers visit.path key then
          (world.cached visit.cache key).toList.map .nodeDeleted
        else [] := by
  have holds := sound.resumes visit (.error fault) (by simp [waiting])
  obtain ⟨cache, found, _⟩ := holds.suits.scope
  have placed := (sound.caches visit.cache cache found).isPlaced
  have stepped : world.step = ({ world with queue := tasks } : World).visitAbsent visit := by
    rw [World.step, waiting]
    exact if_pos isNoNode
  have popped : ({ world with queue := tasks } : World).caches[visit.cache]? = some cache := found
  obtain ⟨⟨other, otherFound, isOther⟩, told, sameTime⟩ := visitAbsent_spec popped
  rw [← stepped] at otherFound told sameTime
  refine ⟨?_, _, told, ?_⟩
  · intro key
    have sameStore := congrArg Cache.store isOther
    rw [Cache.quiet_store] at sameStore
    rw [cached_of_found otherFound, cached_of_found found, sameTime, sameStore, Cache.peek_ended,
      Cache.removeSubtree_eq, Store.peek_removeSubtree]
    rfl
  · intro key
    rw [cached_of_found found]
    exact Cache.events_removeSubtree placed.isKeyed world.now visit.path key

theorem Spares.iff_of_absence {after : World} {id : CacheId} {path : Path}
    (kept : ∀ key, after.cached id key = if Covers path key then none else world.cached id key)
    {told : List CacheEvent} (grown : after.nodeEvents id = world.nodeEvents id ++ told)
    (events : ∀ key, CacheEvent.about told key =
      if Covers path key then (world.cached id key).toList.map .nodeDeleted else []) :
    after.Spares world id path ↔ ∀ key, Covers path key → world.cached id key = none := by
  constructor
  · intro spares key covers
    rw [← spares.1 key covers, kept, if_pos covers]
  · intro nothing
    have silent : told = [] := by
      apply List.eq_nil_iff_forall_not_mem.mpr
      intro event member
      have ofPath := CacheEvent.mem_about member
      rw [events] at ofPath
      split at ofPath
      next covers =>
        rw [nothing _ covers] at ofPath
        cases ofPath
      next => cases ofPath
    refine ⟨fun key covers => ?_, ?_⟩
    · rw [kept, if_pos covers, nothing key covers]
    · rw [grown, silent, List.append_nil]

/-- A fetch that was told of no node, however long ago, takes away all that its path covers and
nothing else, and tells of each node it takes. It does no harm exactly if nothing is cached there by
then. -/
theorem spares_iff_of_absence (config : ConnectionConfig) {commands : List Command}
    (valid : ∀ command ∈ commands, command.IsValid) {visit : Visit} {fault : TransportFault}
    {tasks : List Task}
    (waiting : ((ofConfig config).obeyAll commands).queue = .resume visit (.error fault) :: tasks)
    (isNoNode : fault.isNoNode = true) :
    let world := (ofConfig config).obeyAll commands
    (world.step.Spares world visit.cache visit.path ↔
      ∀ key, Covers visit.path key → world.cached visit.cache key = none) ∧
    (∀ key, world.step.cached visit.cache key =
      if Covers visit.path key then none else world.cached visit.cache key) ∧
    ∃ told, world.step.nodeEvents visit.cache = world.nodeEvents visit.cache ++ told ∧
      ∀ key, CacheEvent.about told key =
        if Covers visit.path key then
          (world.cached visit.cache key).toList.map .nodeDeleted
        else [] := by
  intro world
  have sound : world.Sound := sound_of_reached config valid
  obtain ⟨kept, told, grown, events⟩ := sound.absence waiting isNoNode
  exact ⟨Spares.iff_of_absence kept grown events, kept, told, grown, events⟩

/-- A read is held back with the answer that there is no node. The node is created, read by another
fetch and cached; it is still there when the answer is released, and is dropped all the same. -/
theorem not_spares_of_late_absence :
    let path : Path := ['/', 'a', '/', 'b']
    let before : List Command :=
      [.startConnection, .announce .syncConnected, .create ['/', 'a'] [] 0, .build ['/', 'a'] [],
        .start 0, .step, .hold path, .refresh 0 path, .step]
    let after : List Command := [.create path [7] 0, .step, .step, .release 0]
    let held := (ofConfig defaultConfig).obeyAll before
    let released := (ofConfig defaultConfig).obeyAll (before ++ after)
    (held.suspended.map fun suspension => suspension.visit.path) = [path] ∧
      held.ensemble.nodes.get? path = none ∧
      (∃ node remote, released.cached 0 path = some node ∧ node.stat = some remote.stat ∧
        released.ensemble.nodes.get? path = some remote ∧
        released.step.ensemble.nodes.get? path = some remote ∧
        released.step.nodeEvents 0 = released.nodeEvents 0 ++ [.nodeDeleted node]) ∧
      ¬ released.step.Spares released 0 path := by
  intro path before after held released
  have valid : ∀ command ∈ before ++ after, command.IsValid := by decide
  let visit : Visit :=
    { fetch := { cache := 0, refresh := 1, path, full := true }, session := 1, epoch := 0
      action := .statAndData, traverse := true }
  have waiting : released.queue =
      [.resume visit (.error (.noNode path))] := by decide +kernel
  obtain ⟨harmless, _⟩ := spares_iff_of_absence defaultConfig valid waiting rfl
  let stat : Stat := { czxid := 2, mzxid := 2, ctime := 2, mtime := 2, dataLength := 1, pzxid := 2 }
  let node : Node := { path, stat := some stat, data := some [7], children := none }
  have waits : (held.suspended.map fun suspension => suspension.visit.path) = [path] := by
    decide +kernel
  have missing : held.ensemble.nodes.get? path = none := by decide +kernel
  have cached : released.cached 0 path = some node := by decide +kernel
  have present : released.ensemble.nodes.get? path = some { data := [7], stat } := by
    decide +kernel
  have stays : released.step.ensemble.nodes.get? path = some { data := [7], stat } := by
    decide +kernel
  have told : released.step.nodeEvents 0 = released.nodeEvents 0 ++ [.nodeDeleted node] := by
    decide +kernel
  refine ⟨waits, missing, ⟨node, { data := [7], stat }, cached, rfl, present, stays, told⟩, ?_⟩
  intro spares
  have nothing : released.cached 0 path = none := harmless.mp spares path (covers_refl path)
  rw [cached] at nothing
  cases nothing

end World

end WatchedTree
