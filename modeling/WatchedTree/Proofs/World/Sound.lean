import WatchedTree.Proofs.Cache.Reconcile
import WatchedTree.Proofs.Ensemble.Children
import WatchedTree.Proofs.Ensemble.Watches
import WatchedTree.Proofs.World.Command
import WatchedTree.Proofs.World.Quiet

/-!
# Worlds in good order

What holds in every world that is reached over valid paths: the tree is in good order, every cached
node lies in the scope of its cache and was read at some time before, and every fetch under way
will keep it so.
-/
namespace WatchedTree

/-- A node that may be cached at a path: it is stored there, and its stat has passed. -/
structure CacheOptions.Fits (options : CacheOptions) (ensemble : Ensemble) (path : Path)
    (node : Node) : Prop where
  valid : path.IsValid
  isPath : node.path = path
  stored : ∃ action traverse,
    options.mode.scope options.basePath path = some (action, traverse) ∧ action.isStored = true
  passed : ∀ stat, node.stat = some stat → ensemble.Passed path stat

structure Cache.Sound (cache : Cache) (ensemble : Ensemble) : Prop where
  base : cache.options.basePath.IsValid
  entries : cache.store.Keeps (cache.options.Fits ensemble)
  remembers : cache.store.Remembers
  policy : cache.store.policy = cache.options.eviction

namespace World

/-- A visit of a path in the scope of its cache. -/
structure Suits (world : World) (visit : Visit) : Prop where
  valid : visit.path.IsValid
  scope : ∃ cache, world.caches[visit.cache]? = some cache ∧
    cache.scope visit.path = some (visit.action, visit.traverse)

/-- A visit that waits, with an answer that has passed. -/
structure Holds (world : World) (visit : Visit) (answer : DataAnswer) : Prop where
  suits : world.Suits visit
  passed : ∀ data stat, answer = .ok (data, stat) → world.ensemble.Passed visit.path stat

structure Sound (world : World) : Prop where
  remote : world.ensemble.Sound
  caches : ∀ (id : CacheId) (cache : Cache), world.caches[id]? = some cache →
    cache.Sound world.ensemble
  fetches : ∀ fetch, .fetch fetch ∈ world.queue → fetch.path.IsValid
  resumes : ∀ visit answer, .resume visit answer ∈ world.queue → world.Holds visit answer
  held : ∀ suspension ∈ world.suspended, world.Holds suspension.visit suspension.answer
  deferred : ∀ task ∈ world.deferred, task.isDelivery = true

/-- A later world: sound, over a later tree, and with every cache still under its options. -/
structure Continues (after before : World) : Prop where
  sound : after.Sound
  remote : after.ensemble.Follows before.ensemble
  options : ∀ (id : CacheId) (cache : Cache), before.caches[id]? = some cache →
    ∃ other, after.caches[id]? = some other ∧ other.options = cache.options

theorem Continues.trans {first second third : World} (left : first.Continues second)
    (right : second.Continues third) : first.Continues third where
  sound := left.sound
  remote := left.remote.trans right.remote
  options := by
    intro id cache found
    obtain ⟨middle, inMiddle, middleOptions⟩ := right.options id cache found
    obtain ⟨other, present, sameOptions⟩ := left.options id middle inMiddle
    exact ⟨other, present, sameOptions.trans middleOptions⟩

theorem Suits.continues {before after : World} {visit : Visit} (suits : before.Suits visit)
    (options : ∀ (id : CacheId) (cache : Cache), before.caches[id]? = some cache →
      ∃ other, after.caches[id]? = some other ∧ other.options = cache.options) :
    after.Suits visit := by
  obtain ⟨cache, found, scope⟩ := suits.scope
  obtain ⟨other, present, sameOptions⟩ := options visit.cache cache found
  refine ⟨suits.valid, other, present, ?_⟩
  rw [Cache.scope, sameOptions]
  exact scope

theorem Holds.continues {before after : World} {visit : Visit} {answer : DataAnswer}
    (holds : before.Holds visit answer)
    (remote : after.ensemble.Follows before.ensemble)
    (options : ∀ (id : CacheId) (cache : Cache), before.caches[id]? = some cache →
      ∃ other, after.caches[id]? = some other ∧ other.options = cache.options) :
    after.Holds visit answer :=
  ⟨holds.suits.continues options,
    fun data stat answered => (holds.passed data stat answered).follows remote⟩

end World

theorem CacheOptions.Fits.follows {options : CacheOptions} {before after : Ensemble} {path : Path}
    {node : Node} (fits : options.Fits before path node) (follows : after.Follows before) :
    options.Fits after path node where
  valid := fits.valid
  isPath := fits.isPath
  stored := fits.stored
  passed := fun stat isStat => (fits.passed stat isStat).follows follows

namespace Cache

variable {cache : Cache} {ensemble : Ensemble}

theorem Sound.follows {after : Ensemble} (sound : cache.Sound ensemble)
    (follows : after.Follows ensemble) : cache.Sound after where
  base := sound.base
  entries :=
    ⟨sound.entries.distinct, fun path entry found =>
      (sound.entries.nodes path entry found).follows follows⟩
  remembers := sound.remembers
  policy := sound.policy

theorem Sound.isPlaced (sound : cache.Sound ensemble) : cache.IsPlaced :=
  ⟨sound.entries.distinct, fun path entry found =>
    ⟨(sound.entries.nodes path entry found).valid, (sound.entries.nodes path entry found).isPath⟩⟩

theorem Sound.of_eq {other : Cache} (sound : cache.Sound ensemble)
    (options : other.options = cache.options) (store : other.store = cache.store) :
    other.Sound ensemble where
  base := options ▸ sound.base
  entries := by
    rw [options, store]
    exact sound.entries
  remembers := store ▸ sound.remembers
  policy := by
    rw [options, store]
    exact sound.policy

/-- A store that holds no other nodes, with the same bounds and tombstones. -/
theorem Sound.within {store : Store} (sound : cache.Sound ensemble)
    (within : store.Within cache.store) (fence : store.fence = cache.store.fence) :
    Cache.Sound { cache with store } ensemble where
  base := sound.base
  entries := sound.entries.within within
  remembers := sound.remembers.of_fence fence
  policy := (congrArg Fence.policy fence).trans sound.policy

theorem Sound.begun (sound : cache.Sound ensemble) : cache.begun.Sound ensemble where
  base := sound.base
  entries := ⟨sound.entries.distinct, sound.entries.nodes⟩
  remembers := sound.remembers.beginFetch
  policy := sound.policy

theorem Sound.ended (sound : cache.Sound ensemble) (epoch : Epoch) :
    (cache.ended epoch).Sound ensemble where
  base := sound.base
  entries := ⟨sound.entries.distinct, sound.entries.nodes⟩
  remembers := sound.remembers.endFetch epoch
  policy := sound.policy

theorem Sound.removeSubtree (sound : cache.Sound ensemble) (now : Moment) (path : Path) :
    (cache.removeSubtree now path).2.Sound ensemble where
  base := sound.base
  entries := sound.entries.within (Store.within_removeSubtree cache.store now path)
  remembers := sound.remembers.removeSubtree now path
  policy :=
    (congrArg Fence.policy (Store.fence_removeSubtree cache.store now path)).trans sound.policy

theorem Sound.removeSubtrees (sound : cache.Sound ensemble) (now : Moment) (paths : List Path) :
    (removeSubtrees now paths cache).2.Sound ensemble := by
  induction paths generalizing cache with
  | nil => exact sound
  | cons path others inductionHypothesis => exact inductionHypothesis (sound.removeSubtree now path)

theorem Sound.commit (sound : cache.Sound ensemble) {node : Node}
    (fits : cache.options.Fits ensemble node.path node) (now : Moment) (epoch : Epoch) :
    (cache.commit now node epoch).2.Sound ensemble := by
  have fence := Store.fence_upsert cache.store now node epoch
  unfold Cache.commit
  split
  · exact sound
  · exact
      { base := sound.base
        entries := sound.entries.upsert fits now epoch
        remembers := sound.remembers.of_fence fence
        policy := (congrArg Fence.policy fence).trans sound.policy }

theorem sound_ofOptions {options : CacheOptions} (base : options.basePath.IsValid) :
    (ofOptions options).Sound ensemble where
  base := base
  entries := by
    refine ⟨Table.distinct_nil, ?_⟩
    intro path entry found
    cases found
  remembers := Store.remembers_of_no_tombstones rfl
  policy := rfl

end Cache

namespace World

variable {world : World} {id : CacheId} {cache : Cache} {visit : Visit}

/-! ## Steps that keep a world sound -/

/-- The parts of a later world; the tasks that wait are no new ones. -/
theorem continues_of_parts {after : World}
    (remote : after.ensemble.Follows world.ensemble)
    (options : ∀ (id : CacheId) (cache : Cache), world.caches[id]? = some cache →
      ∃ other, after.caches[id]? = some other ∧ other.options = cache.options)
    (caches : ∀ (id : CacheId) (cache : Cache), after.caches[id]? = some cache →
      cache.Sound after.ensemble)
    (fetches : ∀ fetch, .fetch fetch ∈ after.queue → fetch.path.IsValid)
    (resumes : ∀ visit answer, .resume visit answer ∈ after.queue →
      world.Holds visit answer)
    (held : ∀ suspension ∈ after.suspended, world.Holds suspension.visit suspension.answer)
    (deferred : ∀ task ∈ after.deferred, task.isDelivery = true) :
    after.Continues world where
  sound :=
    { remote := remote.sound
      caches := caches
      fetches := fetches
      resumes := fun visit answer member => (resumes visit answer member).continues remote options
      held := fun suspension member => (held suspension member).continues remote options
      deferred := deferred }
  remote := remote
  options := options

theorem Sound.refl (sound : world.Sound) : world.Continues world where
  sound := sound
  remote := sound.remote.follows_of_eq rfl rfl
  options := fun _ cache found => ⟨cache, found, rfl⟩

/-- What is told keeps a world sound. -/
theorem Sound.of_quiet {after : World} (sound : world.Sound) (same : after.quiet = world.quiet) :
    after.Continues world := by
  have remote := congrArg ensemble same
  rw [quiet_ensemble, quiet_ensemble] at remote
  have ofCache : ∀ (id : CacheId) (cache : Cache), world.caches[id]? = some cache →
      ∃ other, after.caches[id]? = some other ∧ other.quiet = cache.quiet := by
    intro id cache found
    have both := congrArg (fun world : World => world.caches[id]?) same
    simp only [quiet_getElem?, found, Option.map_some] at both
    exact Option.map_eq_some_iff.mp both
  have ofAfter : ∀ (id : CacheId) (cache : Cache), after.caches[id]? = some cache →
      ∃ other, world.caches[id]? = some other ∧ other.quiet = cache.quiet := by
    intro id cache found
    have both := congrArg (fun world : World => world.caches[id]?) same
    simp only [quiet_getElem?, found, Option.map_some] at both
    exact Option.map_eq_some_iff.mp both.symm
  have ofQueue : ∀ task ∈ after.queue, task.isDelivery = false → task ∈ world.queue := by
    intro task member isWork
    have kept : task ∈ after.quiet.queue := List.mem_filter.mpr ⟨member, by simp [isWork]⟩
    rw [same] at kept
    exact (List.mem_filter.mp kept).1
  apply continues_of_parts (sound.remote.follows_of_eq (by rw [remote]) (by rw [remote]))
  · intro id cache found
    obtain ⟨other, present, sameQuiet⟩ := ofCache id cache found
    exact ⟨other, present, Cache.options_of_quiet sameQuiet⟩
  · intro id cache found
    obtain ⟨other, present, sameQuiet⟩ := ofAfter id cache found
    rw [remote]
    exact (sound.caches id other present).of_eq (Cache.options_of_quiet sameQuiet).symm
      (Cache.store_of_quiet sameQuiet).symm
  · intro fetch member
    exact sound.fetches fetch (ofQueue _ member rfl)
  · intro visit answer member
    exact sound.resumes visit answer (ofQueue _ member rfl)
  · intro suspension member
    have suspended := congrArg World.suspended same
    rw [quiet_suspended, quiet_suspended] at suspended
    exact sound.held suspension (suspended ▸ member)
  · intro task member
    by_contra isWork
    have kept : task ∈ after.quiet.deferred :=
      List.mem_filter.mpr ⟨member, by simpa using isWork⟩
    rw [same] at kept
    obtain ⟨inWorld, notDelivery⟩ := List.mem_filter.mp kept
    rw [sound.deferred task inWorld] at notDelivery
    cases notDelivery

/-- Another tree that follows, under any connection. -/
theorem Sound.setConnection (sound : world.Sound) {connection : Connection Ensemble CacheId}
    (remote : connection.remote.Follows world.ensemble) :
    ({ world with connection } : World).Continues world := by
  have follows : ({ world with connection } : World).ensemble.Follows world.ensemble := remote
  apply continues_of_parts follows
  · exact fun _ cache found => ⟨cache, found, rfl⟩
  · exact fun id cache found => (sound.caches id cache found).follows follows
  · exact sound.fetches
  · exact sound.resumes
  · exact sound.held
  · exact sound.deferred

theorem Sound.setEnsemble (sound : world.Sound) {ensemble : Ensemble}
    (remote : ensemble.Follows world.ensemble) :
    (world.setEnsemble ensemble).Continues world :=
  sound.setConnection remote

theorem Sound.setCache (sound : world.Sound) (found : world.caches[id]? = some cache)
    {other : Cache} (otherSound : other.Sound world.ensemble)
    (options : other.options = cache.options) :
    (world.setCache id other).Continues world := by
  obtain ⟨inRange, isCache⟩ := List.getElem?_eq_some_iff.mp found
  have follows : (world.setCache id other).ensemble.Follows world.ensemble :=
    sound.remote.follows_of_eq rfl rfl
  apply continues_of_parts follows
  · intro index held present
    by_cases isId : id = index
    · subst isId
      rw [found] at present
      cases present
      exact ⟨other, by simp [World.setCache, inRange], options⟩
    · exact ⟨held, by simp [World.setCache, isId, present], rfl⟩
  · intro index held present
    by_cases isId : id = index
    · subst isId
      simp only [World.setCache, List.getElem?_set, inRange, if_true] at present
      cases present
      exact otherSound
    · simp only [World.setCache, List.getElem?_set, isId, if_false] at present
      exact sound.caches index held present
  · exact sound.fetches
  · exact sound.resumes
  · exact sound.held
  · exact sound.deferred

theorem Sound.updateCache (sound : world.Sound) (id : CacheId) {change : Cache → Cache}
    (keeps : ∀ cache, world.caches[id]? = some cache →
      (change cache).Sound world.ensemble ∧ (change cache).options = cache.options) :
    (world.updateCache id change).Continues world := by
  cases found : world.caches[id]? with
  | none =>
      rw [updateCache_of_none change found]
      exact sound.refl
  | some cache =>
      rw [← setCache_eq_updateCache change found]
      obtain ⟨changed, options⟩ := keeps cache found
      exact sound.setCache found changed options

theorem Sound.enqueue (sound : world.Sound) {tasks : List Task}
    (fetches : ∀ fetch, .fetch fetch ∈ tasks → fetch.path.IsValid)
    (resumes : ∀ visit answer, .resume visit answer ∈ tasks → world.Holds visit answer) :
    (world.enqueue tasks).Continues world := by
  have follows : (world.enqueue tasks).ensemble.Follows world.ensemble :=
    sound.remote.follows_of_eq rfl rfl
  apply continues_of_parts follows
  · exact fun _ cache found => ⟨cache, found, rfl⟩
  · exact sound.caches
  · intro fetch member
    rcases List.mem_append.mp member with old | new
    · exact sound.fetches fetch old
    · exact fetches fetch new
  · intro visit answer member
    rcases List.mem_append.mp member with old | new
    · exact sound.resumes visit answer old
    · exact resumes visit answer new
  · exact sound.held
  · exact sound.deferred

end World

end WatchedTree
