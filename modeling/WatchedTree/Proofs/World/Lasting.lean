import WatchedTree.Proofs.World.Serving

/-!
# What lasts as nodes go

A property of caches that no loss of nodes can hurt holds on through every incident but two: the run
of a task may bring a node in, and a user may release a payload.
-/
namespace WatchedTree

/-- Holds if a cache differs in nothing but whom it tells, its phase and the nodes that it has lost.
A cache that has just been closed has lost them all. -/
structure Cache.Dwindles (after before : Cache) : Prop where
  options : after.options = before.options
  policy : after.store.policy = before.store.policy
  within : after.store.Within before.store
  closing : after.phase = .closed → before.phase = .closed ∨ after.store.entries = []

/-- A property that every new cache over a valid path has, and every cache that had it before it
lost some nodes. -/
structure Cache.IsLasting (property : Cache → Prop) : Prop where
  new : ∀ options : CacheOptions, options.basePath.IsValid → property (.ofOptions options)
  dwindles : ∀ {before after : Cache}, after.Dwindles before → property before → property after

namespace Cache

variable {cache before after : Cache}

theorem dwindles_of_store {store : Store} (policy : store.policy = cache.store.policy)
    (within : store.Within cache.store) : Dwindles { cache with store } cache where
  options := rfl
  policy := policy
  within := within
  closing := Or.inl

theorem IsTended.dwindles (tended : after.IsTended before) : after.Dwindles before where
  options := tended.options
  policy := by rw [tended.store]
  within := .of_entries (by rw [tended.store])
  closing := by
    intro closed
    rcases tended.phase with same | ⟨_, started⟩
    · exact Or.inl (same ▸ closed)
    · rw [started] at closed
      cases closed

theorem dwindles_of_quiet (alike : after.quiet = before.quiet) : after.Dwindles before where
  options := options_of_quiet alike
  policy := by rw [store_of_quiet alike]
  within := .of_entries (by rw [store_of_quiet alike])
  closing := fun closed => Or.inl (phase_of_quiet alike ▸ closed)

theorem dwindles_removeSubtrees (cache : Cache) (now : Moment) (paths : List Path) :
    (removeSubtrees now paths cache).2.Dwindles cache := by
  rw [removeSubtrees_eq]
  apply dwindles_of_store
  · apply removeSubtrees_induction (motive := fun store => store.policy = cache.store.policy)
    · intro store path same
      have fence := Store.fence_removeSubtree store now path
      exact Eq.trans (congrArg Fence.policy fence) same
    · rfl
  · apply removeSubtrees_induction (motive := fun store => store.Within cache.store)
    · intro store path within
      exact (Store.within_removeSubtree store now path).trans within
    · exact Store.Within.of_entries rfl

theorem dwindles_close (cache : Cache) : cache.close.Dwindles cache where
  options := rfl
  policy := rfl
  within := Store.within_clear cache.store
  closing := fun _ => Or.inr rfl

end Cache

namespace World

variable {world first second : World} {running : Option RefreshId}
  {cleared : Option CacheId} {id other : CacheId} {cache before after : Cache}
  {refresh : RefreshId} {property : Cache → Prop}

theorem caches_quiet_spawn (world : World) (fetch : Fetch) :
    (world.spawn fetch).quiet.caches = world.quiet.caches := by
  rw [quiet_spawn]
  split <;> rfl

theorem exists_of_quiet_caches (same : second.quiet.caches = first.quiet.caches)
    (found : first.caches[id]? = some cache) :
    ∃ later, second.caches[id]? = some later ∧ later.quiet = cache.quiet := by
  apply exists_of_quiet
  rw [same]
  exact quiet_found found

/-- Holds if a cache, if it is there, has a property. -/
def Meets (world : World) (id : CacheId) (property : Cache → Prop) : Prop :=
  ∀ cache, world.caches[id]? = some cache → property cache

/-! ## Small changes -/

theorem Meets.of_caches (meets : first.Meets id property) (caches : second.caches = first.caches) :
    second.Meets id property := fun cache found => meets cache (caches ▸ found)

theorem Meets.setCache (meets : world.Meets id property)
    (found : world.caches[other]? = some before)
    (kept : other = id → property before → property after) :
    (world.setCache other after).Meets id property := by
  intro cache isCache
  by_cases same : other = id
  · subst same
    rw [getElem?_setCache found] at isCache
    cases isCache
    exact kept rfl (meets before found)
  · rw [World.setCache, List.getElem?_set_ne same] at isCache
    exact meets cache isCache

theorem Meets.of_quiet (lasting : Cache.IsLasting property) (meets : first.Meets id property)
    (same : second.quiet.caches = first.quiet.caches) : second.Meets id property := by
  intro later found
  obtain ⟨cache, isCache, alike⟩ := exists_of_quiet_caches same.symm found
  exact lasting.dwindles (Cache.dwindles_of_quiet alike.symm) (meets cache isCache)

theorem Meets.setStore (lasting : Cache.IsLasting property) (meets : world.Meets id property)
    (found : world.caches[other]? = some cache) {store : Store}
    (policy : store.policy = cache.store.policy) (within : store.Within cache.store) :
    (world.setCache other { cache with store }).Meets id property :=
  meets.setCache found fun _ => lasting.dwindles (Cache.dwindles_of_store policy within)

/-! ## Deeds -/

theorem Deed.meets (lasting : Cache.IsLasting property)
    (deed : first.Deed running cleared second) (spared : cleared ≠ some id)
    (meets : first.Meets id property) : second.Meets id property := by
  cases deed with
  | pass caches => exact meets.of_caches caches
  | tend found tended => exact meets.setCache found fun _ => lasting.dwindles tended.dwindles
  | keep found tended => exact meets.setStore lasting found tended.policy tended.within
  | clear found => exact meets.setCache found fun same => absurd (congrArg some same) spared
  | @remove _ _ _ cache found paths =>
      have dropped := meets.setCache found fun _ =>
        lasting.dwindles (cache.dwindles_removeSubtrees first.now paths)
      exact dropped.of_quiet lasting (congrArg caches (quiet_dispatchAll _ _ _))
  | spawn fetch => exact meets.of_quiet lasting (caches_quiet_spawn first fetch)
  | @launch _ place _ _ _ path full =>
      have added : (first.addRefresh place path none).2.Meets id property := meets
      exact added.of_quiet lasting (caches_quiet_spawn _ _)
  | @request _ place _ _ _ path full =>
      have added : ((first.addChannel {}).2.addRefresh place path
          (some first.channels.length)).2.Meets id property := meets
      exact added.of_quiet lasting (caches_quiet_spawn _ _)
  | settle => exact meets
  | build options valid =>
      intro cache found
      rcases getElem?_concat_cases found with isOld | ⟨_, rfl⟩
      · exact meets cache isOld
      · exact lasting.new options valid

theorem Deeds.meets (lasting : Cache.IsLasting property)
    (deeds : first.Deeds running cleared second) (spared : cleared ≠ some id)
    (meets : first.Meets id property) : second.Meets id property := by
  induction deeds with
  | refl => exact meets
  | tail _ deed inductionHypothesis => exact deed.meets lasting spared inductionHypothesis

theorem Ends.meets (lasting : Cache.IsLasting property) (ends : first.Ends refresh second)
    (meets : first.Meets id property) : second.Meets id property := by
  obtain ⟨last, deeds, rfl⟩ := ends
  exact (deeds.meets lasting (Option.some_ne_none id).symm meets).of_quiet lasting
    (congrArg caches (quiet_countDown last refresh))

/-! ## Tasks -/

theorem Commits.meets (lasting : Cache.IsLasting property)
    (keeps : ∀ cache now node epoch, property cache → property (cache.commit now node epoch).2)
    (commits : first.Commits second) (meets : first.Meets id property) :
    second.Meets id property := by
  rcases commits with rfl | ⟨other, cache, node, epoch, found, rfl⟩
  · exact meets
  · have committed := meets.setCache found fun _ => keeps cache first.now node epoch
    exact committed.of_quiet lasting (congrArg caches (quiet_dispatchAll _ _ _))

theorem Handles.meets (lasting : Cache.IsLasting property)
    (keeps : ∀ cache now node epoch, property cache → property (cache.commit now node epoch).2)
    (handles : first.Handles refresh second) (meets : first.Meets id property) :
    second.Meets id property := by
  have spared : none ≠ some id := (Option.some_ne_none id).symm
  obtain ⟨last, ⟨begun, committed, earlier, _, commits, later⟩, ends⟩ := handles
  have reached := later.meets lasting spared
    (commits.meets lasting keeps (earlier.meets lasting spared meets))
  rcases ends with rfl | ⟨suspension, _, rfl⟩
  · exact reached.of_quiet lasting (congrArg caches (quiet_countDown last refresh))
  · exact reached

theorem Meets.step (lasting : Cache.IsLasting property)
    (keeps : ∀ cache now node epoch, property cache → property (cache.commit now node epoch).2)
    (meets : world.Meets id property) : world.step.Meets id property := by
  cases queue : world.queue with
  | nil =>
      rw [World.step, queue]
      exact meets
  | cons task tasks =>
      cases isFor : task.refresh? with
      | some refresh =>
          have popped : ({ world with queue := tasks } : World).Meets id property := meets
          exact (handles_step queue isFor).meets lasting keeps popped
      | none =>
          have deeds : world.Deeds none none world.step := deeds_step_of_no_refresh queue isFor
          exact deeds.meets lasting (Option.some_ne_none id).symm meets

/-! ## Incidents -/

theorem Meets.closeCache (lasting : Cache.IsLasting property) (meets : world.Meets id property) :
    (world.closeCache id).Meets id property := by
  unfold World.closeCache
  cases found : world.caches[id]? with
  | none => exact meets
  | some cache =>
      simp only
      split
      · exact meets
      · have closed := meets.setCache found fun _ => lasting.dwindles cache.dwindles_close
        exact closed

theorem Meets.clear (lasting : Cache.IsLasting property) (meets : world.Meets id property)
    (path : Path) : (world.clear id path).2.Meets id property := by
  unfold World.clear
  cases found : world.caches[id]? with
  | none => exact meets
  | some cache =>
      exact meets.setStore lasting found
        (congrArg Fence.policy (Store.fence_remove cache.store world.now path))
        (Store.within_remove cache.store world.now path)

theorem Meets.clearAll (lasting : Cache.IsLasting property) (meets : world.Meets id property) :
    (world.clearAll id).Meets id property := by
  unfold World.clearAll
  cases found : world.caches[id]? with
  | none =>
      rw [updateCache_of_none _ found]
      exact meets
  | some cache =>
      rw [← setCache_eq_updateCache _ found]
      exact meets.setStore lasting found rfl (Store.within_clear cache.store)

/-- An incident runs a task, or releases a payload of the cache, or leaves what lasts. -/
theorem Meets.undergo (lasting : Cache.IsLasting property) (meets : world.Meets id property)
    (attended : world.Attended) (incident : Incident) :
    incident = .step ∨ (∃ path version, incident = .command (.clearDataIf id path version) rfl) ∨
      (world.undergo incident).Meets id property := by
  rcases undergo_cases attended incident with ⟨channels, same⟩ |
    ⟨task, tasks, refresh, isStep, _⟩ | deeds
  · rw [same]
    exact Or.inr (Or.inr meets)
  · exact Or.inl isStep
  · right
    by_cases spared : incident.clears? = some id
    · cases incident with
      | turn | elapse | requeue => cases spared
      | command given single =>
          cases given <;> cases spared
          · exact Or.inr (meets.closeCache lasting)
          · exact Or.inr (meets.clear lasting _)
          · exact Or.inr (meets.clearAll lasting)
          · exact Or.inl ⟨_, _, rfl⟩
    · exact Or.inr (deeds.meets lasting spared meets)

end World

end WatchedTree
