import WatchedTree.Proofs.Mirror.Hosting
import WatchedTree.Proofs.World.Reached

/-!
# What lasts around a cache on a steady session

Let something hold of a world and of the one cache in it, and stand as long as the cache sees the
same and has the same to fetch. If the fetches in its scope keep it up as well, it outlasts all
tasks, refreshes and readers, in whatever order they come.
-/
namespace WatchedTree

/-- What may go on around a cache that changes neither the tree nor how it is reached: refreshes,
tasks, time, and what concerns those who read and listen. -/
def Command.IsCalm : Command → Prop
  | refresh _ path => path.IsValid
  | refreshAll _ | step | round | advance _ | readToken _ | cancelToken _ | listen _ _
  | unlisten _ _ | onError _ _ | offError _ _ | get _ _ => True
  | _ => False

namespace World

/-- A later world in which the cache sees the same, and what was to be fetched in its scope still
is. -/
structure Persists (later world : World) (after cache : Cache) (session : SessionId) : Prop where
  hosts : later.quiet.Hosts after session
  sound : later.Sound
  options : after.options = cache.options
  nodes : later.ensemble.nodes = world.ensemble.nodes
  sessions : later.ensemble.sessions = world.ensemble.sessions
  shown : ∀ path, after.store.peek later.now path = cache.store.peek world.now path
  queued : ∀ fetch, Task.fetch fetch ∈ world.quiet.queue → cache.scope fetch.path ≠ none →
    Task.fetch fetch ∈ later.quiet.queue

/-- What holds of a world and the one cache in it is kept up by the fetches of the cache, and stands
as long as nothing happens. -/
structure IsUpheld (holds : World → Cache → Prop) (session : SessionId) : Prop where
  hosts : ∀ {world cache}, holds world cache → world.quiet.Hosts cache session
  sound : ∀ {world cache}, holds world cache → world.Sound
  waits : ∀ {world later cache after}, holds world cache →
    later.Persists world after cache session → holds later after
  fetches : ∀ {world cache fetch tasks}, holds world cache → world.queue = .fetch fetch :: tasks →
    fetch.cache = 0 → cache.scope fetch.path ≠ none →
      ∃ after, holds (({ world with queue := tasks } : World).runFetch fetch) after ∧
        after.options = cache.options

variable {holds : World → Cache → Prop} {session : SessionId} {world : World} {cache : Cache}

section Upheld

variable (upheld : IsUpheld holds session) (held : holds world cache)

include upheld held

/-- The queue may change as long as it holds nothing but fetches of the cache, and loses none in
its scope. -/
theorem IsUpheld.requeue {after : World} {tasks : List Task} (sound : after.Sound)
    (own : ∀ task ∈ tasks, ∃ fetch, task = .fetch fetch ∧ fetch.cache = 0)
    (same : after.quiet = { world.quiet with queue := tasks })
    (queued : ∀ fetch, Task.fetch fetch ∈ world.quiet.queue → cache.scope fetch.path ≠ none →
      Task.fetch fetch ∈ tasks) : holds after cache := by
  have now := congrArg World.now same
  have remote := congrArg World.ensemble same
  rw [quiet_now] at now
  rw [quiet_ensemble] at remote
  have hosts : ({ world.quiet with queue := tasks } : World).Hosts cache session :=
    { upheld.hosts held with fetches := own }
  exact upheld.waits held
    { hosts := same ▸ hosts
      sound := sound
      options := rfl
      nodes := congrArg Ensemble.nodes remote
      sessions := congrArg Ensemble.sessions remote
      shown := fun path => congrArg (cache.store.peek · path) now
      queued := same ▸ queued }

/-- What only tells, or what concerns the listeners, is not seen. -/
theorem IsUpheld.of_quiet {after : World} (same : after.quiet = world.quiet) :
    holds after cache :=
  upheld.requeue held ((upheld.sound held).of_quiet same).sound (upheld.hosts held).fetches same
    fun _ member _ => member

/-- More fetches may be queued. -/
theorem IsUpheld.enqueue {after : World} (sound : after.Sound) (fetches : List Fetch)
    (own : ∀ fetch ∈ fetches, fetch.cache = 0)
    (queued : after.quiet = world.quiet.enqueue (fetches.map Task.fetch)) : holds after cache :=
  upheld.requeue held sound ((upheld.hosts held).enqueue own).fetches queued
    fun _ member _ => List.mem_append_left _ member

/-- Without bounds nothing ages. -/
theorem IsUpheld.later (now : Moment) : holds { world with now } cache :=
  upheld.waits held
    { hosts := { upheld.hosts held with }
      sound := ((upheld.sound held).later now).sound
      options := rfl
      nodes := rfl
      sessions := rfl
      shown := (upheld.hosts held).unbounded.peek_later world.now now
      queued := fun _ member _ => member }

/-- A change that is refused only takes its transaction. -/
theorem IsUpheld.refuse : holds (world.setEnsemble world.ensemble.nextTransaction) cache := by
  have hosts := upheld.hosts held
  have sound := upheld.sound held
  exact upheld.waits held
    { hosts := hosts.setEnsemble hosts.single hosts.healthy hosts.unheld
      sound := (sound.setEnsemble sound.remote.nextTransaction).sound
      options := rfl
      nodes := rfl
      sessions := rfl
      shown := fun _ => rfl
      queued := fun _ member _ => member }

/-! ## Calls -/

theorem IsUpheld.refresh (id : CacheId) {path : Path} (valid : path.IsValid) :
    holds (world.refresh id path).2 cache := by
  have sound : (world.refresh id path).2.Sound := ((upheld.sound held).refresh valid).sound
  have queued := (upheld.hosts held).quiet_refresh id path
  split at queued
  · refine upheld.enqueue held sound [_] ?_ queued
    intro fetch member
    rw [List.mem_singleton.mp member]
  · exact upheld.of_quiet held queued

theorem IsUpheld.refreshAll (id : CacheId) : holds (world.refreshAll id).2 cache := by
  unfold World.refreshAll
  cases found : world.caches[id]? with
  | none => exact upheld.of_quiet held (quiet_settledToken world _)
  | some other => exact upheld.refresh held id ((upheld.sound held).caches id other found).base

omit upheld held in
theorem quiet_get {id : CacheId} (found : world.caches[id]? = some cache) (path : Path) :
    (world.get id path).2.quiet =
      world.quiet.setCache id
        { cache.quiet with store := (cache.store.get world.now path).2 } := by
  unfold World.get
  simp only [found]
  rw [quiet_setCache]
  rfl

/-- Reading a node is a use of it, and leaves it as it is. -/
theorem IsUpheld.get (id : CacheId) (path : Path) :
    ∃ after, holds (world.get id path).2 after ∧ after.options = cache.options := by
  have sound := ((upheld.sound held).get id path).sound
  have hosts := upheld.hosts held
  cases found : world.caches[id]? with
  | none =>
      have same : (world.get id path).2 = world := by simp [World.get, found]
      rw [same]
      exact ⟨cache, held, rfl⟩
  | some other =>
      obtain ⟨rfl, rfl⟩ := hosts.own found
      let after := { other.quiet with store := (other.store.get world.now path).2 }
      have done : (world.get 0 path).2.quiet = world.quiet.setCache 0 after := quiet_get found path
      have policy := congrArg Fence.policy (Store.fence_get other.store world.now path)
      have unbounded : after.store.IsUnbounded := hosts.unbounded.of_fence policy
      have now := congrArg World.now done
      have remote := congrArg World.ensemble done
      have queue := congrArg World.queue done
      rw [quiet_now] at now
      rw [quiet_ensemble] at remote
      refine ⟨after, upheld.waits held
        { hosts := done ▸ hosts.setCache rfl unbounded
          sound := sound
          options := rfl
          nodes := congrArg Ensemble.nodes remote
          sessions := congrArg Ensemble.sessions remote
          shown := fun key => ?_
          queued := fun _ member _ => queue ▸ member }, rfl⟩
      rw [now]
      exact hosts.unbounded.peek_get world.now world.now path key

/-! ## Tasks -/

/-- A fetch outside the cache has no effect, and no other fetch is lost with it. -/
theorem IsUpheld.runFetch {fetch : Fetch} {tasks : List Task}
    (queue : world.queue = .fetch fetch :: tasks) (own : fetch.cache = 0) :
    ∃ after, holds (({ world with queue := tasks } : World).runFetch fetch) after ∧
      after.options = cache.options := by
  by_cases outside : cache.scope fetch.path = none
  · have hosts := (upheld.hosts held).popped queue
    have valid := (upheld.sound held).fetches fetch (by simp [queue])
    have sound := ((upheld.sound held).popped queue).sound.runFetch valid
    have same := hosts.quiet_runFetch_of_outside own outside
    refine ⟨cache, upheld.requeue held sound.sound hosts.fetches same ?_, rfl⟩
    intro other member inScope
    obtain ⟨inQueue, isWork⟩ := List.mem_filter.mp member
    rw [queue] at inQueue
    rcases List.mem_cons.mp inQueue with isFirst | later
    · cases isFirst
      exact absurd outside inScope
    · exact List.mem_filter.mpr ⟨later, isWork⟩
  · exact upheld.fetches held queue own outside

theorem IsUpheld.step : ∃ after, holds world.step after ∧ after.options = cache.options := by
  unfold World.step
  cases queue : world.queue with
  | nil => exact ⟨cache, held, rfl⟩
  | cons task tasks =>
      have isWork : task.isDelivery = false → task ∈ world.quiet.queue := by
        intro isWork
        exact List.mem_filter.mpr ⟨by simp [queue], by simp [isWork]⟩
      cases task with
      | resume visit answer =>
          obtain ⟨fetch, isFetch, _⟩ := (upheld.hosts held).fetches _ (isWork rfl)
          cases isFetch
      | deliver id subscriber =>
          have same : (({ world with queue := tasks } : World).perform
              (.deliver id subscriber)).quiet = world.quiet := by
            rw [perform, quiet_deliver]
            simp [quiet, queue, Task.isDelivery]
          exact ⟨cache, upheld.of_quiet held same, rfl⟩
      | fetch fetch =>
          obtain ⟨_, isFetch, own⟩ := (upheld.hosts held).fetches _ (isWork rfl)
          cases isFetch
          exact upheld.runFetch held queue own

end Upheld

theorem IsUpheld.run (upheld : IsUpheld holds session) (held : holds world cache) (steps : Nat) :
    ∃ after, holds (World.run steps world) after ∧ after.options = cache.options := by
  induction steps generalizing world cache with
  | zero => exact ⟨cache, held, rfl⟩
  | succ steps inductionHypothesis =>
      obtain ⟨after, stepped, options⟩ := upheld.step held
      obtain ⟨last, ran, lastOptions⟩ := inductionHypothesis stepped
      exact ⟨last, ran, lastOptions.trans options⟩

theorem IsUpheld.round (upheld : IsUpheld holds session) (held : holds world cache) :
    ∃ after, holds world.round after ∧ after.options = cache.options := by
  obtain ⟨after, ran, options⟩ := upheld.run held roundLength
  exact ⟨after, upheld.of_quiet ran (upheld.sound held).quiet_round, options⟩

/-- Whatever goes on that changes nothing of the tree, the cache keeps up what holds of it. -/
theorem IsUpheld.obey (upheld : IsUpheld holds session) (held : holds world cache)
    {command : Command} (calm : command.IsCalm) :
    ∃ after, holds (world.obey command) after ∧ after.options = cache.options := by
  cases command with
  | step => exact upheld.step held
  | round => exact upheld.round held
  | advance span => exact upheld.round (upheld.later held (world.now + span))
  | refresh id path => exact ⟨cache, upheld.refresh held id calm, rfl⟩
  | refreshAll id => exact ⟨cache, upheld.refreshAll held id, rfl⟩
  | readToken token => exact ⟨cache, upheld.of_quiet held (quiet_readToken world token), rfl⟩
  | cancelToken token =>
      exact ⟨cache, upheld.of_quiet held (quiet_updateChannel world token _), rfl⟩
  | listen id listener =>
      exact ⟨cache, upheld.of_quiet held (quiet_listen world id listener), rfl⟩
  | unlisten id registration =>
      exact ⟨cache, upheld.of_quiet held (quiet_unlisten world id registration), rfl⟩
  | onError id listener =>
      exact ⟨cache, upheld.of_quiet held (quiet_onError world id listener), rfl⟩
  | offError id registration =>
      exact ⟨cache, upheld.of_quiet held (quiet_offError world id registration), rfl⟩
  | get id path => exact upheld.get held id path
  | create | setData | delete | replaceSilently | failReads | healReads | refuseSessions | announce
  | expireSessions | hold | release | occur | startConnection | acquire | closeConnection
  | pollFailure | readCounters | build | start | closeCache | clear | clearAll | clearDataIf =>
      exact calm.elim

end World

end WatchedTree
