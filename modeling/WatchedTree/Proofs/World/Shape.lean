import WatchedTree.Proofs.World.Recall

/-!
# The shape of what is cached

Whatever is cached lies where the mode of its cache has something to keep, and has just the parts
that the action there asks for. Only the commit of a fetch brings a node in, with all its parts, and
only a user takes one away, which is the payload.
-/
namespace WatchedTree

/-- Where a path lies that is kept, and with which action: a cache of one node keeps its base. Any
other keeps what lies below its base, and never the base itself, as its selector says. -/
def CacheMode.Keeps (mode : CacheMode) (base path : Path) (action : Action) : Prop :=
  match mode with
  | .singleNode kept => path = base ∧ action = kept
  | .subtree selector =>
    Path.isBelow base path = true ∧ path ≠ base ∧ action = selector.actionAt base path

/-- The parts of a node are those that an action asks for, with the children in byte order if they
are sorted. Its payload may be gone. -/
structure Node.HasParts (node : Node) (sorts : Bool) (action : Action) : Prop where
  stat : node.stat.isSome = action.wantsStat
  children : node.children.isSome = action.wantsChildren
  sorted : sorts = true → ∀ names, node.children = some names → Text.IsSorted names
  data : node.data.isSome = true → action.wantsData = true

variable {node : Node} {sorts : Bool} {action : Action} {path : Path}

theorem Node.HasParts.withoutData (parts : node.HasParts sorts action) :
    node.withoutData.HasParts sorts action where
  stat := parts.stat
  children := parts.children
  sorted := parts.sorted
  data := fun isSome => nomatch isSome

/-- What may be cached at a path. A node whose payload is missing though it is asked for was left by
a release. -/
structure CacheOptions.Allows (options : CacheOptions) (released : Path → Node → Prop)
    (path : Path) (node : Node) : Prop where
  isPath : node.path = path
  inScope : ∃ action traverse,
    options.mode.scope options.basePath path = some (action, traverse) ∧
      action.isStored = true ∧ node.HasParts options.sortChildren action ∧
      (action.wantsData = true → node.data = none → released path node)

variable {options : CacheOptions} {released : Path → Node → Prop}

theorem CacheOptions.Allows.mono {wider : Path → Node → Prop}
    (allows : options.Allows released path node)
    (includes : released path node → wider path node) : options.Allows wider path node := by
  obtain ⟨isPath, action, traverse, scope, isStored, parts, missing⟩ := allows
  exact ⟨isPath, action, traverse, scope, isStored, parts,
    fun wantsData none => includes (missing wantsData none)⟩

theorem CacheOptions.Allows.withoutData (allows : options.Allows released path node)
    (isReleased : released path node.withoutData) :
    options.Allows released path node.withoutData := by
  obtain ⟨isPath, action, traverse, scope, isStored, parts, _⟩ := allows
  exact ⟨isPath, action, traverse, scope, isStored, parts.withoutData, fun _ _ => isReleased⟩

/-- Holds of a cache that holds only what it may. -/
def Cache.IsShaped (released : Path → Node → Prop) (cache : Cache) : Prop :=
  cache.store.Keeps (cache.options.Allows released)

namespace Cache

variable {cache : Cache}

theorem isLasting_isShaped (released : Path → Node → Prop) : IsLasting (IsShaped released) where
  new := fun _ _ => ⟨Table.distinct_nil, fun _ _ found => nomatch found⟩
  dwindles := by
    intro before after fewer shaped
    rw [IsShaped, fewer.options]
    exact shaped.within fewer.within

theorem IsShaped.commit (shaped : cache.IsShaped released)
    (allows : cache.options.Allows released node.path node) (now : Moment) (epoch : Epoch) :
    (cache.commit now node epoch).2.IsShaped released := by
  rw [IsShaped, options_commit, Cache.commit]
  split
  · exact shaped
  · exact Store.Keeps.upsert shaped allows now epoch

theorem IsShaped.mono {wider : Path → Node → Prop} (shaped : cache.IsShaped released)
    (includes : ∀ path node, released path node → wider path node) : cache.IsShaped wider :=
  ⟨shaped.distinct, fun path entry found =>
    (shaped.nodes path entry found).mono (includes path entry.node)⟩

end Cache

namespace World

variable {world : World} {id : CacheId} {visit : Visit} {stat : Option Stat}
  {data : Option Payload}

/-- Holds if a cache, if it is there, holds only what it may. -/
def Shaped (world : World) (id : CacheId) (released : Path → Node → Prop) : Prop :=
  world.Meets id (Cache.IsShaped released)

/-! ## The run of a fetch -/

/-- What a visit commits is allowed where it is visited, if nothing of it is missing. -/
theorem Shaped.commit (shaped : world.Shaped id released)
    (inScope : world.IsScoped visit) (isPath : node.path = visit.path)
    (parts : ∀ cache, world.caches[visit.cache]? = some cache →
      node.HasParts cache.options.sortChildren visit.action)
    (whole : node.data.isSome = visit.action.wantsData) :
    (world.commit visit node).Shaped id released := by
  obtain ⟨cache, found, scope⟩ := inScope
  unfold World.commit
  split
  · exact shaped
  next isStored =>
    simp only [found]
    have allows : cache.options.Allows released node.path node := by
      refine ⟨rfl, visit.action, visit.traverse, isPath ▸ scope, ?_, parts cache found, ?_⟩
      · simpa using isStored
      · intro wantsData none
        rw [none, wantsData] at whole
        cases whole
    have committed := shaped.setCache found fun _ kept => kept.commit allows world.now visit.epoch
    exact committed.of_quiet (Cache.isLasting_isShaped released)
      (congrArg caches (quiet_dispatchAll _ _ _))

theorem Shaped.visitRead (shaped : world.Shaped id released)
    (inScope : world.IsScoped visit) (hasStat : stat.isSome = visit.action.wantsStat)
    (hasData : data.isSome = visit.action.wantsData) {children : Option (List Text)}
    (listed : visit.action.wantsChildren = true → children.isSome = true)
    (sorted : ∀ cache, world.caches[visit.cache]? = some cache →
      cache.options.sortChildren = true → ∀ names, children = some names →
        Text.IsSorted names) :
    (world.visitRead visit stat data children).Shaped id released := by
  have lasting := Cache.isLasting_isShaped released
  let node : Node :=
    { path := visit.path, stat, data
      children := if visit.action.wantsChildren then children else none }
  have parts : ∀ cache, world.caches[visit.cache]? = some cache →
      node.HasParts cache.options.sortChildren visit.action := by
    intro cache found
    refine ⟨hasStat, ?_, ?_, fun isSome => hasData ▸ isSome⟩
    · change (if visit.action.wantsChildren then children else none).isSome = _
      split
      next wantsChildren => rw [listed wantsChildren, wantsChildren]
      next unwanted => exact (eq_false_of_ne_true unwanted).symm
    · intro sorts names kept
      change (if visit.action.wantsChildren then children else none) = some names at kept
      split at kept
      · exact sorted cache found sorts names kept
      · cases kept
  have committed : (world.commit visit node).Shaped id released :=
    shaped.commit inScope rfl parts hasData
  unfold World.visitRead
  simp only
  generalize world.commit visit _ = after at committed ⊢
  split
  · split
    · exact (ends_endVisit _ visit none).meets lasting
        ((deeds_reconcileChildren after visit _).meets lasting (Option.some_ne_none id).symm
          committed)
    · exact (ends_endVisit after visit none).meets lasting committed
  · exact (ends_endVisit after visit none).meets lasting committed

theorem Shaped.visitChildren (shaped : world.Shaped id released)
    (inScope : world.IsScoped visit) (hasStat : stat.isSome = visit.action.wantsStat)
    (hasData : data.isSome = visit.action.wantsData) :
    (world.visitChildren visit stat data).Shaped id released := by
  unfold World.visitChildren
  split
  next skipped =>
    have unwanted : visit.action.wantsChildren = false := by
      simp only [Bool.and_eq_true, Bool.not_eq_true'] at skipped
      exact skipped.1
    refine shaped.visitRead inScope hasStat hasData (fun wantsChildren => ?_)
      (fun _ _ _ _ none => nomatch none)
    rw [unwanted] at wantsChildren
    cases wantsChildren
  · split
    next fault ensemble _ =>
      have placed : (world.setEnsemble ensemble).Shaped id released := shaped
      exact (ends_visitFault _ visit fault).meets (Cache.isLasting_isShaped released) placed
    next names ensemble _ =>
      have placed : (world.setEnsemble ensemble).Shaped id released := shaped
      refine placed.visitRead inScope hasStat hasData (fun _ => rfl) ?_
      intro cache found sorts listing isListing
      have sameCache : world.caches[visit.cache]? = some cache := found
      simp only [sameCache, sorts, if_true, Option.some.injEq] at isListing
      subst isListing
      exact Text.isSorted_sort names

theorem Shaped.visitData (shaped : world.Shaped id released)
    (inScope : world.IsScoped visit) (wantsData : visit.action.wantsData = true)
    (answer : DataAnswer) :
    (world.visitData visit answer).Shaped id released := by
  cases answer with
  | error fault =>
      exact (ends_visitFault world visit fault).meets (Cache.isLasting_isShaped released) shaped
  | ok read =>
      obtain ⟨data, stat⟩ := read
      exact shaped.visitChildren inScope (Action.wantsStat_of_wantsData _ wantsData).symm
        wantsData.symm

theorem Shaped.beginVisit (shaped : world.Shaped id released)
    (inScope : world.IsScoped visit) :
    (world.beginVisit visit).Shaped id released := by
  have lasting := Cache.isLasting_isShaped released
  have placed : ∀ ensemble,
      (world.setEnsemble ensemble).Shaped id released := fun _ => shaped
  unfold World.beginVisit
  split
  next wantsData =>
    split
    · exact shaped
    next answer ensemble _ => exact (placed ensemble).visitData inScope wantsData answer
  next noData =>
    have unwanted : visit.action.wantsData = false := eq_false_of_ne_true noData
    split
    next wantsStat =>
      split
      next fault ensemble _ =>
        exact (ends_endVisit _ visit _).meets lasting (placed ensemble)
      next ensemble _ => exact (ends_visitAbsent _ visit).meets lasting (placed ensemble)
      next stat ensemble _ =>
        exact (placed ensemble).visitChildren inScope wantsStat.symm unwanted.symm
    next noStat =>
      exact shaped.visitChildren inScope (eq_false_of_ne_true noStat).symm unwanted.symm

theorem Shaped.runFetch (shaped : world.Shaped id released) (fetch : Fetch) :
    (world.runFetch fetch).Shaped id released := by
  have lasting := Cache.isLasting_isShaped released
  have counted : ∀ state : World, state.Shaped id released →
      (state.countDown fetch.refresh).Shaped id released := fun state kept =>
    kept.of_quiet lasting (congrArg caches (quiet_countDown state fetch.refresh))
  unfold World.runFetch
  cases found : world.caches[fetch.cache]? with
  | none => exact counted world shaped
  | some cache =>
      simp only
      split
      · exact counted world shaped
      · split
        · exact counted world shaped
        next action traverse scope =>
          have connected : ∀ connection : Connection Ensemble CacheId,
              ({ world with connection } : World).Shaped id released :=
            fun _ => shaped
          split
          next failure connection _ =>
            exact counted _ ((connected connection).of_quiet lasting
              (congrArg caches (quiet_report _ _ _ _)))
          next session connection _ =>
            have stillFound : ({ world with connection } : World).caches[fetch.cache]? =
                some cache := found
            have begun := isTended_beginFetch cache.store
            have registered : World.Shaped _ id released :=
              (connected connection).setStore lasting stillFound begun.policy begun.within
            exact registered.beginVisit
              ⟨_, getElem?_setCache stillFound { cache with store := cache.store.beginFetch.2 },
                scope⟩

/-! ## Fetches that wait -/

/-- Every fetch that waits with a payload was asked for it, and lies in the scope of its cache. -/
def AwaitsData (world : World) : Prop :=
  ∀ visit answer, world.Bears visit answer →
    world.IsScoped visit ∧ visit.action.wantsData = true

theorem AwaitsData.undergo (awaits : world.AwaitsData) (incident : Incident) :
    (world.undergo incident).AwaitsData := by
  intro visit answer bears
  have still : ∀ {after : World}, after.Retains world → world.Bears visit answer →
      after.IsScoped visit ∧ visit.action.wantsData = true := by
    intro after retains earlier
    obtain ⟨inScope, wantsData⟩ := awaits visit answer earlier
    exact ⟨inScope.of_retains retains, wantsData⟩
  rcases undergo_step_or_recalls world incident with rfl | ⟨ensemble, _, recalls⟩
  · change World.Bears world.step visit answer at bears
    have yields := yields_step world
    refine (?_ : world.step.IsScoped visit ∧ visit.action.wantsData = true)
    cases yields with
    | nothing recalls => exact still recalls.retains (recalls.answers visit answer bears)
    | node draws learns => exact still (Yields.node draws learns).retains (learns.bears bears)
    | @answer middle hold other taken prepares inScope wantsData stands waits =>
        have retains : world.step.Retains world :=
          (Yields.answer prepares inScope wantsData stands waits).retains
        rw [waits] at bears
        rcases bears with queued | ⟨otherHold, suspended⟩
        · exact still retains (prepares.recalls.answers visit answer (Or.inl queued))
        · rcases List.mem_append.mp suspended with old | new
          · exact still retains (prepares.recalls.answers visit answer (Or.inr ⟨otherHold, old⟩))
          · cases List.mem_singleton.mp new
            exact ⟨inScope.of_retains retains, wantsData⟩
  · exact still recalls.retains (recalls.answers visit answer bears)

theorem Shaped.step (shaped : world.Shaped id released)
    (awaits : world.AwaitsData) : world.step.Shaped id released := by
  unfold World.step
  cases queue : world.queue with
  | nil => exact shaped
  | cons task tasks =>
      have popped : ({ world with queue := tasks } : World).Shaped id released :=
        shaped
      cases task with
      | fetch fetch => exact popped.runFetch fetch
      | deliver place subscriber =>
          exact popped.of_quiet (Cache.isLasting_isShaped released)
            (congrArg caches (quiet_deliver _ place subscriber))
      | resume visit answer =>
          have bears : world.Bears visit answer := by
            left
            rw [queue]
            exact List.mem_cons_self
          obtain ⟨inScope, wantsData⟩ := awaits visit answer bears
          exact popped.visitData inScope wantsData answer

/-! ## Released payloads -/

/-- At some point of a run a user released the payload of the node that was cached at a path, and
this is what was left of it. -/
def Released (start : World) (incidents : List Incident) (id : CacheId) (path : Path)
    (node : Node) : Prop :=
  ∃ earlier version whole,
    earlier ++ [.command (.clearDataIf id path version) rfl] <+: incidents ∧
      (start.undergoAll earlier).cached id path = some whole ∧ whole.data.isSome = true ∧
      ((start.undergoAll earlier).clearDataIf id path version).1 = true ∧
      node = whole.withoutData

theorem Released.append {start : World} {incidents : List Incident}
    (isReleased : start.Released incidents id path node) (later : List Incident) :
    start.Released (incidents ++ later) id path node := by
  obtain ⟨earlier, version, whole, isEarlier, rest⟩ := isReleased
  exact ⟨earlier, version, whole, isEarlier.trans (List.prefix_append incidents later), rest⟩

end World

end WatchedTree
