import WatchedTree.Proofs.Connection.Tree
import WatchedTree.Proofs.Ensemble.Time
import WatchedTree.Proofs.World.Script

/-!
# What a world knows of the remote side

A world knows the stats of its cached nodes, and the answers that fetches have taken and not yet
used. Everything but a read and a commit leaves it with what it knew before, or with less.
-/
namespace WatchedTree

namespace Store

variable {store after before : Store} {path : Path}

/-- Entries of the one store are entries of the other, with the same stats. -/
structure Recalls (after before : Store) : Prop where
  distinct : before.entries.Distinct → after.entries.Distinct
  stats : ∀ path entry, after.entries.get? path = some entry →
    ∃ old, before.entries.get? path = some old ∧ entry.node.stat = old.node.stat

theorem Within.recalls (within : after.Within before) : after.Recalls before where
  distinct := within.distinct
  stats := by
    intro path entry found
    obtain ⟨old, present, sameNode⟩ := within.nodes path entry found
    exact ⟨old, present, congrArg Node.stat sameNode⟩

theorem Recalls.trans {first second third : Store} (left : second.Recalls first)
    (right : third.Recalls second) : third.Recalls first where
  distinct := fun distinct => right.distinct (left.distinct distinct)
  stats := by
    intro path entry found
    obtain ⟨middle, inMiddle, sameMiddle⟩ := right.stats path entry found
    obtain ⟨old, present, sameOld⟩ := left.stats path middle inMiddle
    exact ⟨old, present, sameMiddle.trans sameOld⟩

theorem Keeps.recalls {property : Path → Option Stat → Prop}
    (keeps : before.Keeps fun path node => property path node.stat)
    (recalls : after.Recalls before) : after.Keeps fun path node => property path node.stat where
  distinct := recalls.distinct keeps.distinct
  nodes := by
    intro path entry found
    obtain ⟨old, present, sameStat⟩ := recalls.stats path entry found
    rw [sameStat]
    exact keeps.nodes path old present

theorem recalls_update (store : Store) (now : Moment) (path : Path) {change : Node → Option Node}
    (same : ∀ old new, change old = some new → new.stat = old.stat) :
    (store.update now path change).2.Recalls store := by
  unfold update live?
  cases found : store.entries.get? path with
  | none => exact (Within.of_entries rfl).recalls
  | some entry =>
      simp only
      by_cases expired : store.isExpired now entry = true
      · rw [if_pos expired]
        exact (Within.of_entries rfl).recalls
      · rw [if_neg expired]
        simp only
        cases changed : change entry.node with
        | none => exact (Within.of_entries rfl).recalls
        | some node =>
            refine ⟨fun distinct => distinct.put path _, ?_⟩
            intro key other kept
            rw [Table.get?_put] at kept
            split at kept
            next isPath =>
              cases kept
              exact ⟨entry, isPath ▸ found, same entry.node node changed⟩
            · exact ⟨other, kept, rfl⟩

end Store

/-- A later cache, under the same options, that has learnt nothing new. -/
structure Cache.Recalls (after before : Cache) : Prop where
  options : after.options = before.options
  store : after.store.Recalls before.store

namespace Cache

variable {cache after before : Cache}

theorem recalls_of_store (options : after.options = before.options)
    (store : after.store = before.store) : after.Recalls before :=
  ⟨options, store ▸ (Store.Within.of_entries rfl).recalls⟩

theorem recalls_within {store : Store} (within : store.Within cache.store) :
    Cache.Recalls { cache with store } cache := ⟨rfl, within.recalls⟩

theorem recalls_removeSubtrees (cache : Cache) (now : Moment) (paths : List Path) :
    (removeSubtrees now paths cache).2.Recalls cache := by
  have within : (removeSubtrees now paths cache).2.store.Within cache.store := by
    apply removeSubtrees_induction (motive := fun store => store.Within cache.store)
    · intro store path within
      exact (Store.within_removeSubtree store now path).trans within
    · exact Store.Within.of_entries rfl
  refine ⟨?_, within.recalls⟩
  rw [removeSubtrees_eq]

end Cache

namespace World

variable {world after before first second third : World} {id : CacheId} {cache : Cache}
  {visit : Visit} {path : Path}

/-- A fetch waits in the queue or for the release of a hold, with the answer that it has taken. -/
def Bears (world : World) (visit : Visit) (answer : DataAnswer) : Prop :=
  .resume visit answer ∈ world.queue ++ world.deferred ∨
    ∃ hold, { hold, visit, answer } ∈ world.suspended

/-- A later world over the same tree that has learnt nothing new. -/
structure Recalls (after before : World) : Prop where
  tree : after.ensemble.SameTree before.ensemble
  retains : after.Retains before
  caches : ∀ (id : CacheId) (later : Cache), after.caches[id]? = some later →
    (∃ cache, before.caches[id]? = some cache ∧ later.Recalls cache) ∨ later.store.entries = []
  answers : ∀ visit answer, after.Bears visit answer → before.Bears visit answer

theorem Recalls.trans (left : second.Recalls first) (right : third.Recalls second) :
    third.Recalls first where
  tree := right.tree.trans left.tree
  retains := left.retains.trans right.retains
  caches := by
    intro id later found
    rcases right.caches id later found with ⟨middle, inMiddle, recalls⟩ | empty
    · rcases left.caches id middle inMiddle with ⟨cache, present, earlier⟩ | empty
      · exact Or.inl ⟨cache, present, recalls.options.trans earlier.options,
          earlier.store.trans recalls.store⟩
      · refine Or.inr (Table.eq_nil_of_forall_get? fun path entry present => ?_)
        obtain ⟨old, nowhere, _⟩ := recalls.store.stats path entry present
        rw [empty] at nowhere
        cases nowhere
    · exact Or.inr empty
  answers := fun visit answer bears => left.answers visit answer (right.answers visit answer bears)

/-! ## Small changes -/

/-- The same caches, and no answer that was not there. -/
theorem recalls_of_caches (tree : after.ensemble.SameTree before.ensemble)
    (caches : after.caches = before.caches)
    (answers : ∀ visit answer, after.Bears visit answer → before.Bears visit answer) :
    after.Recalls before where
  tree := tree
  retains := retains_of_caches caches
  caches := fun _ later found => Or.inl ⟨later, caches ▸ found, Cache.recalls_of_store rfl rfl⟩
  answers := answers

theorem Recalls.refl (world : World) : world.Recalls world :=
  recalls_of_caches ⟨rfl, rfl⟩ rfl fun _ _ bears => bears

theorem recalls_of_quiet (same : after.quiet = before.quiet) : after.Recalls before where
  tree := by
    rw [← quiet_ensemble after, same, quiet_ensemble]
    exact ⟨rfl, rfl⟩
  retains := retains_of_quiet (congrArg caches same)
  caches := by
    intro id later found
    obtain ⟨cache, present, alike⟩ := exists_of_quiet_caches (congrArg caches same).symm found
    exact Or.inl ⟨cache, present, Cache.recalls_of_store (Cache.options_of_quiet alike).symm
      (Cache.store_of_quiet alike).symm⟩
  answers := by
    have ofTasks : ∀ {tasks others : List Task} {task : Task},
        tasks.filter (fun task => !task.isDelivery) = others.filter (fun task => !task.isDelivery) →
          task.isDelivery = false → task ∈ tasks → task ∈ others := by
      intro tasks others task sameTasks isWork member
      have kept : task ∈ tasks.filter (fun task => !task.isDelivery) :=
        List.mem_filter.mpr ⟨member, by simp [isWork]⟩
      rw [sameTasks] at kept
      exact (List.mem_filter.mp kept).1
    rintro visit answer (queued | ⟨hold, member⟩)
    · left
      rcases List.mem_append.mp queued with inQueue | isDeferred
      · exact List.mem_append_left _ (ofTasks (congrArg queue same) rfl inQueue)
      · exact List.mem_append_right _ (ofTasks (congrArg deferred same) rfl isDeferred)
    · right
      have suspended := congrArg World.suspended same
      rw [quiet_suspended, quiet_suspended] at suspended
      exact ⟨hold, suspended ▸ member⟩

theorem recalls_connect {connection : Connection Ensemble CacheId}
    (same : connection.remote.SameTree world.ensemble) :
    ({ world with connection } : World).Recalls world :=
  recalls_of_caches same rfl fun _ _ bears => bears

theorem recalls_setTree {ensemble : Ensemble} (same : ensemble.SameTree world.ensemble) :
    (world.setEnsemble ensemble).Recalls world := recalls_connect same

theorem recalls_setCache (found : world.caches[id]? = some cache) {other : Cache}
    (recalls : other.Recalls cache) : (world.setCache id other).Recalls world where
  tree := ⟨rfl, rfl⟩
  retains := by
    intro index held present
    by_cases isId : index = id
    · subst isId
      rw [found] at present
      cases present
      exact ⟨other, getElem?_setCache found other, recalls.options⟩
    · refine ⟨held, ?_, rfl⟩
      rw [setCache, List.getElem?_set_ne (Ne.symm isId)]
      exact present
  caches := by
    intro index later present
    left
    by_cases isId : index = id
    · subst isId
      rw [getElem?_setCache found] at present
      cases present
      exact ⟨cache, found, recalls⟩
    · rw [setCache, List.getElem?_set_ne (Ne.symm isId)] at present
      exact ⟨later, present, Cache.recalls_of_store rfl rfl⟩
  answers := fun _ _ bears => bears

theorem recalls_updateStore (world : World) (id : CacheId) {change : Store → Store}
    (within : ∀ store, (change store).Within store) :
    (world.updateCache id fun cache => { cache with store := change cache.store }).Recalls
      world := by
  cases found : world.caches[id]? with
  | none =>
      rw [updateCache_of_none _ found]
      exact .refl world
  | some cache =>
      rw [← setCache_eq_updateCache _ found]
      exact recalls_setCache found (Cache.recalls_within (within cache.store))

/-- Fetches and deliveries that are queued bring no answers. -/
theorem recalls_enqueue (world : World) {tasks : List Task}
    (fresh : ∀ visit answer, .resume visit answer ∉ tasks) :
    (world.enqueue tasks).Recalls world := by
  refine recalls_of_caches ⟨rfl, rfl⟩ rfl ?_
  rintro visit answer (queued | suspended)
  · left
    rcases List.mem_append.mp queued with inQueue | isDeferred
    · rcases List.mem_append.mp inQueue with old | new
      · exact List.mem_append_left _ old
      · exact absurd new (fresh visit answer)
    · exact List.mem_append_right _ isDeferred
  · exact Or.inr suspended

/-! ## The run of a fetch -/

theorem recalls_dispatchAll (world : World) (id : CacheId) (events : List CacheEvent) :
    (world.dispatchAll id events).Recalls world :=
  recalls_of_quiet (quiet_dispatchAll world id events)

theorem recalls_spawn (world : World) (fetch : Fetch) : (world.spawn fetch).Recalls world := by
  have queued : (world.enqueue [.fetch fetch]).Recalls world :=
    recalls_enqueue world fun _ _ member => nomatch List.mem_singleton.mp member
  have spawned := quiet_spawn world fetch
  split at spawned
  · refine queued.trans (recalls_of_quiet ?_)
    rw [spawned, quiet_enqueue]
    rfl
  · exact recalls_of_quiet spawned

theorem recalls_foldl {Item : Type} {act : World → Item → World}
    (recalls : ∀ world item, (act world item).Recalls world) (items : List Item) (world : World) :
    (items.foldl act world).Recalls world := by
  induction items generalizing world with
  | nil => exact .refl world
  | cons item others inductionHypothesis =>
      exact (recalls world item).trans (inductionHypothesis _)

theorem recalls_spawnAll (world : World) (fetches : List Fetch) :
    (world.spawnAll fetches).Recalls world := recalls_foldl recalls_spawn fetches world

theorem recalls_backgroundRefresh (world : World) (id : CacheId) (path : Path) (full : Bool) :
    (world.backgroundRefresh id path full).Recalls world := by
  have added := recalls_of_quiet (quiet_addRefresh world id path none)
  exact added.trans (recalls_spawn _ _)

theorem recalls_removeSubtree (world : World) (id : CacheId) (path : Path) :
    (world.removeSubtree id path).Recalls world := by
  unfold removeSubtree
  cases found : world.caches[id]? with
  | none => exact .refl world
  | some cache =>
      have removed : (world.setCache id (cache.removeSubtree world.now path).2).Recalls world :=
        recalls_setCache found
          ⟨rfl, (Store.within_removeSubtree cache.store world.now path).recalls⟩
      exact removed.trans (recalls_dispatchAll _ id _)

theorem recalls_endVisit (world : World) (visit : Visit) (failure : Option Failure) :
    (world.endVisit visit failure).Recalls world := by
  have ended : (world.updateCache visit.cache fun cache =>
      { cache with store := cache.store.endFetch visit.epoch }).Recalls world :=
    recalls_updateStore world visit.cache fun store => (isTended_endFetch store visit.epoch).within
  refine ended.trans (recalls_of_quiet ?_)
  rw [quiet_endVisit]
  symm
  apply quiet_updateCache
  intro cache
  rfl

theorem recalls_visitAbsent (world : World) (visit : Visit) :
    (world.visitAbsent visit).Recalls world := by
  refine (recalls_removeSubtree world visit.cache visit.path).trans ?_
  unfold visitAbsent
  simp only
  generalize world.removeSubtree visit.cache visit.path = dropped
  split
  · exact recalls_endVisit dropped visit none
  · split
    · exact recalls_endVisit dropped visit none
    · have sameTree := dropped.ensemble.sameTree_readStat visit.session visit.path
      split
      next ensemble answered =>
        rw [answered] at sameTree
        exact (recalls_setTree sameTree).trans (recalls_endVisit _ visit _)
      next ensemble answered =>
        rw [answered] at sameTree
        exact (recalls_setTree sameTree).trans (recalls_endVisit _ visit none)
      next ensemble answered =>
        rw [answered] at sameTree
        exact ((recalls_setTree sameTree).trans (recalls_spawn _ _)).trans
          (recalls_endVisit _ visit none)

theorem recalls_visitFault (world : World) (visit : Visit) (fault : TransportFault) :
    (world.visitFault visit fault).Recalls world := by
  unfold visitFault
  split
  · exact recalls_visitAbsent world visit
  · exact recalls_endVisit world visit _

theorem recalls_reconcileChildren (world : World) (visit : Visit) (names : List Text) :
    (world.reconcileChildren visit names).Recalls world := by
  unfold reconcileChildren
  cases found : world.caches[visit.cache]? with
  | none => exact .refl world
  | some cache =>
      have removed := recalls_setCache found
        (cache.recalls_removeSubtrees world.now (cache.vanished world.now visit.path names))
      exact (removed.trans (recalls_dispatchAll _ _ _)).trans (recalls_spawnAll _ _)

/-! ## What a fetch learns -/

/-- A visit of a path in the scope of its cache. -/
def IsScoped (world : World) (visit : Visit) : Prop :=
  ∃ cache, world.caches[visit.cache]? = some cache ∧
    cache.scope visit.path = some (visit.action, visit.traverse)

theorem IsScoped.of_retains (inScope : before.IsScoped visit) (retains : after.Retains before) :
    after.IsScoped visit := by
  obtain ⟨cache, found, scope⟩ := inScope
  obtain ⟨later, laterFound, sameOptions⟩ := retains visit.cache cache found
  refine ⟨later, laterFound, ?_⟩
  rw [Cache.scope, sameOptions]
  exact scope

/-- Nothing new is learnt, and each cache shows what it showed before. -/
structure Prepares (after before : World) : Prop where
  recalls : after.Recalls before
  options : after.caches.map (·.options) = before.caches.map (·.options)
  cached : ∀ id path, after.cached id path = before.cached id path

theorem Prepares.refl (world : World) : world.Prepares world := ⟨.refl world, rfl, fun _ _ => rfl⟩

theorem Prepares.trans (left : second.Prepares first) (right : third.Prepares second) :
    third.Prepares first :=
  ⟨left.recalls.trans right.recalls, right.options.trans left.options,
    fun id path => (right.cached id path).trans (left.cached id path)⟩

theorem Prepares.exists_cache (prepares : after.Prepares before)
    (found : after.caches[id]? = some cache) :
    ∃ earlier, before.caches[id]? = some earlier ∧ cache.options = earlier.options := by
  have both := congrArg (fun options : List CacheOptions => options[id]?) prepares.options
  simp only [List.getElem?_map, found, Option.map_some] at both
  obtain ⟨earlier, present, same⟩ := Option.map_eq_some_iff.mp both.symm
  exact ⟨earlier, present, same.symm⟩

theorem IsScoped.of_prepares (inScope : after.IsScoped visit) (prepares : after.Prepares before) :
    before.IsScoped visit := by
  obtain ⟨cache, found, scope⟩ := inScope
  obtain ⟨earlier, present, sameOptions⟩ := prepares.exists_cache found
  refine ⟨earlier, present, ?_⟩
  rw [Cache.scope, ← sameOptions]
  exact scope

theorem prepares_setTree {ensemble : Ensemble} (same : ensemble.SameTree world.ensemble) :
    (world.setEnsemble ensemble).Prepares world := ⟨recalls_setTree same, rfl, fun _ _ => rfl⟩

/-- A visit commits a node with the stat that it has read, or fails; besides, nothing is learnt. -/
def Learns (before : World) (visit : Visit) (stat : Option Stat) (after : World) : Prop :=
  after.Recalls before ∨
    ∃ (middle : World) (node : Node), middle.Prepares before ∧ node.path = visit.path ∧
      node.stat = stat ∧ after.Recalls (middle.commit visit node)

theorem Learns.of_prepares {stat : Option Stat} (prepares : second.Prepares first)
    (learns : second.Learns visit stat third) : first.Learns visit stat third := by
  rcases learns with recalls | ⟨middle, node, later, isPath, isStat, recalls⟩
  · exact Or.inl (prepares.recalls.trans recalls)
  · exact Or.inr ⟨middle, node, prepares.trans later, isPath, isStat, recalls⟩

/-- A commit touches nothing but the caches. -/
theorem exists_recalls_commit (world : World) (visit : Visit) (node : Node) :
    ∃ caches, (world.commit visit node).Recalls { world with caches } := by
  unfold commit
  split
  · exact ⟨world.caches, .refl world⟩
  · split
    · exact ⟨world.caches, .refl world⟩
    · exact ⟨_, recalls_dispatchAll (world.setCache visit.cache _) visit.cache _⟩

theorem Learns.bears {stat : Option Stat} (learns : before.Learns visit stat after)
    {other : Visit} {answer : DataAnswer} (bears : after.Bears other answer) :
    before.Bears other answer := by
  rcases learns with recalls | ⟨middle, node, prepares, _, _, recalls⟩
  · exact recalls.answers other answer bears
  · obtain ⟨caches, committed⟩ := exists_recalls_commit middle visit node
    exact prepares.recalls.answers other answer
      ((committed.trans recalls).answers other answer bears)

theorem Learns.sameTree {stat : Option Stat} (learns : before.Learns visit stat after) :
    after.ensemble.SameTree before.ensemble := by
  rcases learns with recalls | ⟨middle, node, prepares, _, _, recalls⟩
  · exact recalls.tree
  · obtain ⟨caches, committed⟩ := exists_recalls_commit middle visit node
    exact (committed.trans recalls).tree.trans prepares.recalls.tree

theorem learns_visitRead (world : World) (visit : Visit) (stat : Option Stat)
    (data : Option Payload) (children : Option (List Text)) :
    world.Learns visit stat (world.visitRead visit stat data children) := by
  refine Or.inr ⟨world, { path := visit.path, stat, data
                          children := if visit.action.wantsChildren then children else none },
    .refl world, rfl, rfl, ?_⟩
  unfold visitRead
  simp only
  split
  · split
    · exact (recalls_reconcileChildren _ visit _).trans (recalls_endVisit _ visit none)
    · exact recalls_endVisit _ visit none
  · exact recalls_endVisit _ visit none

theorem learns_visitChildren (world : World) (visit : Visit) (stat : Option Stat)
    (data : Option Payload) : world.Learns visit stat (world.visitChildren visit stat data) := by
  unfold visitChildren
  split
  · exact learns_visitRead world visit stat data none
  · have sameTree := world.ensemble.sameTree_readChildren visit.session visit.path
    split
    next ensemble answered =>
      rw [answered] at sameTree
      exact Or.inl ((recalls_setTree sameTree).trans (recalls_visitFault _ visit _))
    next ensemble answered =>
      rw [answered] at sameTree
      exact .of_prepares (prepares_setTree sameTree) (learns_visitRead _ visit stat data _)

/-- Where a visit has the stat from that it commits: from an answer that was held, from the tree, or
it does without. -/
inductive Draws (world : World) (visit : Visit) : Option Stat → Prop where
  | held {data : Payload} {stat : Stat} (bears : world.Bears visit (.ok (data, stat))) :
      Draws world visit (some stat)
  | read {stat : Stat} (inScope : world.IsScoped visit)
      (stands : world.ensemble.stat? visit.path = some stat) : Draws world visit (some stat)
  | skipped (inScope : world.IsScoped visit) (noStat : visit.action.wantsStat = false) :
      Draws world visit none

/-- What the run of a task comes to. -/
inductive Yields (before after : World) : Prop where
  | nothing (recalls : after.Recalls before)
  | node {visit : Visit} {stat : Option Stat} (draws : before.Draws visit stat)
      (learns : before.Learns visit stat after)
  /-- The fetch waits for the release of a hold, with what it has read. -/
  | answer {middle : World} {hold : HoldId} {visit : Visit} {answer : DataAnswer}
      (prepares : middle.Prepares before) (inScope : before.IsScoped visit)
      (wantsData : visit.action.wantsData = true)
      (stands : ∀ data stat, answer = .ok (data, stat) →
        before.ensemble.stat? visit.path = some stat)
      (waits : after =
        { middle with suspended := middle.suspended ++ [{ hold, visit, answer }] })

theorem Yields.sameTree (yields : before.Yields after) :
    after.ensemble.SameTree before.ensemble := by
  cases yields with
  | nothing recalls => exact recalls.tree
  | node _ learns => exact learns.sameTree
  | answer prepares _ _ _ waits =>
      rw [waits]
      exact prepares.recalls.tree

theorem Yields.retains (yields : before.Yields after) : after.Retains before := by
  cases yields with
  | nothing recalls => exact recalls.retains
  | node _ learns =>
      rcases learns with recalls | ⟨middle, node, prepares, _, _, recalls⟩
      · exact recalls.retains
      · exact (prepares.recalls.retains.trans (commits_commit middle _ node).retains).trans
          recalls.retains
  | answer prepares _ _ _ waits =>
      rw [waits]
      exact prepares.recalls.retains

theorem Draws.of_prepares {stat : Option Stat} (prepares : second.Prepares first)
    (draws : second.Draws visit stat) : first.Draws visit stat := by
  cases draws with
  | held bears => exact .held (prepares.recalls.answers _ _ bears)
  | read inScope stands =>
      exact .read (inScope.of_prepares prepares) (prepares.recalls.tree.stat? _ ▸ stands)
  | skipped inScope noStat => exact .skipped (inScope.of_prepares prepares) noStat

theorem yields_beginVisit {middle : World} (prepares : middle.Prepares world)
    (inScope : world.IsScoped visit) : world.Yields (middle.beginVisit visit) := by
  have stats := prepares.recalls.tree.stat? visit.path
  unfold beginVisit
  split
  next wantsData =>
    have sameTree := middle.ensemble.sameTree_readData visit.session visit.path
    have answered : ∀ data stat,
        (middle.ensemble.readData visit.session visit.path).1 = .ok (data, stat) →
          world.ensemble.stat? visit.path = some stat := fun data stat isAnswer =>
      stats ▸ Ensemble.stat?_eq_some_iff.mpr ⟨_, Ensemble.get?_of_readData isAnswer, rfl⟩
    split
    next answer hold ensemble isRead =>
      rw [isRead] at sameTree answered
      exact .answer (prepares.trans (prepares_setTree sameTree)) inScope wantsData answered rfl
    next answer ensemble isRead =>
      rw [isRead] at sameTree answered
      have placed := prepares.trans (prepares_setTree sameTree)
      unfold visitData
      split
      · exact .nothing (placed.recalls.trans (recalls_visitFault _ visit _))
      next data stat =>
        exact .node (.read inScope (answered data stat rfl))
          (.of_prepares placed (learns_visitChildren _ visit _ _))
  next noData =>
    split
    · have sameTree := middle.ensemble.sameTree_readStat visit.session visit.path
      split
      next ensemble isRead =>
        rw [isRead] at sameTree
        exact .nothing ((prepares.trans (prepares_setTree sameTree)).recalls.trans
          (recalls_endVisit _ visit _))
      next ensemble isRead =>
        rw [isRead] at sameTree
        exact .nothing ((prepares.trans (prepares_setTree sameTree)).recalls.trans
          (recalls_visitAbsent _ visit))
      next stat ensemble isRead =>
        have stands := Ensemble.stat?_eq_some_iff.mpr
          (Ensemble.get?_of_readStat (congrArg Prod.fst isRead))
        rw [isRead] at sameTree
        exact .node (.read inScope (stats ▸ stands))
          (.of_prepares (prepares.trans (prepares_setTree sameTree))
            (learns_visitChildren _ visit _ _))
    next noStat =>
      exact .node (.skipped inScope (eq_false_of_ne_true noStat))
        (.of_prepares prepares (learns_visitChildren _ visit none none))

theorem yields_runFetch (world : World) (fetch : Fetch) : world.Yields (world.runFetch fetch) := by
  have counted : world.Yields (world.countDown fetch.refresh) :=
    .nothing (recalls_of_quiet (quiet_countDown world fetch.refresh))
  unfold runFetch
  cases found : world.caches[fetch.cache]? with
  | none => exact counted
  | some cache =>
      simp only
      split
      · exact counted
      · split
        · exact counted
        next action traverse scope =>
          have sameTree := world.connection.sameTree_acquire world.now
          split
          next failure connection answered =>
            rw [answered] at sameTree
            refine .nothing ((recalls_connect sameTree).trans (recalls_of_quiet ?_))
            rw [quiet_countDown, quiet_report]
          next session connection answered =>
            rw [answered] at sameTree
            have connected : ({ world with connection } : World).Prepares world :=
              ⟨recalls_connect sameTree, rfl, fun _ _ => rfl⟩
            have stillFound : ({ world with connection } : World).caches[fetch.cache]? =
                some cache := found
            have begun := isTended_beginFetch cache.store
            have registered : (({ world with connection } : World).setCache fetch.cache
                { cache with store := cache.store.beginFetch.2 }).Prepares
                  { world with connection } :=
              ⟨recalls_setCache stillFound (Cache.recalls_within begun.within),
                map_caches_setCache stillFound rfl,
                fun id path => cached_setCache_of_peek stillFound path fun _ => rfl⟩
            exact yields_beginVisit (connected.trans registered) ⟨cache, found, scope⟩

theorem yields_step (world : World) : world.Yields world.step := by
  unfold step
  cases queue : world.queue with
  | nil => exact .nothing (.refl world)
  | cons task tasks =>
      have popped : ({ world with queue := tasks } : World).Prepares world := by
        refine ⟨recalls_of_caches ⟨rfl, rfl⟩ rfl ?_, rfl, fun _ _ => rfl⟩
        rintro visit answer (queued | suspended)
        · left
          rw [queue]
          exact List.mem_cons_of_mem _ queued
        · exact Or.inr suspended
      cases task with
      | deliver cache subscriber =>
          exact .nothing (popped.recalls.trans (recalls_of_quiet (quiet_deliver _ cache subscriber)))
      | resume visit answer =>
          change world.Yields (({ world with queue := tasks } : World).visitData visit answer)
          unfold visitData
          split
          · exact .nothing (popped.recalls.trans (recalls_visitFault _ visit _))
          next data stat =>
            have bears : world.Bears visit (.ok (data, stat)) := by
              left
              rw [queue]
              exact List.mem_cons_self
            exact .node (.held bears) (.of_prepares popped (learns_visitChildren _ visit _ _))
      | fetch fetch =>
          cases yields_runFetch { world with queue := tasks } fetch with
          | nothing recalls => exact .nothing (popped.recalls.trans recalls)
          | node draws learns =>
              exact .node (draws.of_prepares popped) (.of_prepares popped learns)
          | answer prepares inScope wantsData stands waits =>
              exact .answer (popped.trans prepares) inScope wantsData stands waits

/-! ## Events -/

theorem recalls_tell (event : Event) (id : CacheId) (world : World) :
    (tell event id world).Recalls world := by
  unfold tell
  cases found : world.caches[id]? with
  | none => exact .refl world
  | some cache =>
      simp only
      split
      · exact .refl world
      · split
        · have aware : Cache.Recalls { cache with connected := event.state == .syncConnected }
              cache := Cache.recalls_of_store rfl rfl
          have noted := recalls_setCache found aware
          split
          · exact noted.trans (recalls_backgroundRefresh _ id _ true)
          · exact noted
        · split
          · exact .refl world
          next path _ =>
            split
            · exact .refl world
            · split
              · exact .refl world
              · exact recalls_backgroundRefresh world id path true
              · exact recalls_backgroundRefresh world id path false
              · exact recalls_backgroundRefresh world id path false
              · have removed := recalls_removeSubtree world id path
                split
                · exact removed.trans (recalls_backgroundRefresh _ id path true)
                · exact removed

theorem recalls_forward (world : World) (event : Event) :
    (Connection.forward (·.connection) (tell event) world).Recalls world := by
  have heard : ∀ told : World, (told.connection.listeners.snapshot.foldl
      (fun state id => tell event id state) told).Recalls told :=
    fun told => recalls_foldl (fun world id => recalls_tell event id world) _ told
  unfold Connection.forward
  cases world.connection.observer with
  | none => exact heard world
  | some observer => exact (recalls_tell event observer world).trans (heard _)

theorem recalls_occur (world : World) (event : Event) : (world.occur event).Recalls world := by
  have absorbed : ({ world with connection := world.connection.absorb world.now event } :
      World).Recalls world := recalls_connect (world.connection.sameTree_absorb world.now event)
  exact absorbed.trans (recalls_forward _ event)

theorem recalls_deliverEvent (world : World) (delivery : Delivery) :
    (world.deliverEvent delivery).Recalls world := by
  unfold deliverEvent
  split
  · exact recalls_occur world delivery.event
  · exact .refl world

theorem recalls_change (world : World)
    (attempt : Ensemble → Except TransportFault (List Delivery) × Ensemble) :
    (world.change attempt).2.Recalls (world.setEnsemble (attempt world.ensemble).2) := by
  unfold change
  split
  next attempted => rw [attempted]; exact .refl _
  next attempted => rw [attempted]; exact recalls_foldl recalls_deliverEvent _ _

theorem recalls_expireSessions (world : World) : world.expireSessions.Recalls world := by
  refine recalls_foldl (fun world session => ?_) world.ensemble.openSessions world
  have expired : (world.setEnsemble (world.ensemble.expireSession session.id)).Recalls world :=
    recalls_setTree ⟨rfl, rfl⟩
  exact expired.trans (recalls_deliverEvent _ _)

/-! ## Commands -/

theorem recalls_release (world : World) (hold : HoldId) : (world.release hold).Recalls world := by
  refine recalls_of_caches ⟨rfl, rfl⟩ rfl ?_
  rintro visit answer (queued | ⟨other, suspended⟩)
  · rcases List.mem_append.mp queued with inQueue | isDeferred
    · rcases List.mem_append.mp inQueue with old | woken
      · exact Or.inl (List.mem_append_left _ old)
      · obtain ⟨suspension, isWoken, isResume⟩ := List.mem_map.mp woken
        cases isResume
        exact Or.inr ⟨suspension.hold, (List.mem_filter.mp isWoken).1⟩
    · exact Or.inl (List.mem_append_right _ isDeferred)
  · exact Or.inr ⟨other, (List.mem_filter.mp suspended).1⟩

theorem recalls_build (world : World) (path : Path) (calls : List BuilderCall) :
    (world.build path calls).2.Recalls world := by
  unfold build
  split
  · exact .refl world
  next options _ =>
    refine ⟨⟨rfl, rfl⟩, ?_, ?_, fun _ _ bears => bears⟩
    · intro id cache found
      refine ⟨cache, ?_, rfl⟩
      exact (List.getElem?_append_left (List.getElem?_eq_some_iff.mp found).1).trans found
    · intro id later found
      rcases getElem?_concat_cases found with isOld | ⟨_, rfl⟩
      · exact Or.inl ⟨later, isOld, Cache.recalls_of_store rfl rfl⟩
      · exact Or.inr rfl

theorem recalls_refresh (world : World) (id : CacheId) (path : Path) :
    (world.refresh id path).2.Recalls world := by
  have settled : ∀ outcome, (world.settledToken outcome).2.Recalls world :=
    fun outcome => recalls_of_quiet (quiet_settledToken world outcome)
  unfold refresh
  split
  · exact settled _
  · split
    · exact settled _
    · exact settled _
    · split
      · exact settled _
      · have acquired : world.acquire.2.Recalls world :=
          recalls_connect (world.connection.sameTree_acquire world.now)
        split
        next failure after answered =>
          rw [answered] at acquired
          exact acquired.trans (recalls_of_quiet (by simp))
        next session after answered =>
          rw [answered] at acquired
          have added : ((after.addChannel {}).2.addRefresh id path
              (some (after.addChannel {}).1)).2.Recalls after := recalls_of_quiet (by simp)
          exact (acquired.trans added).trans (recalls_spawn _ _)

theorem recalls_refreshAll (world : World) (id : CacheId) :
    (world.refreshAll id).2.Recalls world := by
  unfold refreshAll
  split
  · exact recalls_of_quiet (quiet_settledToken world _)
  · exact recalls_refresh world id _

theorem recalls_start (world : World) (id : CacheId) : (world.start id).2.Recalls world := by
  unfold start
  cases found : world.caches[id]? with
  | none => exact .refl world
  | some cache =>
      simp only
      split
      · exact .refl world
      · split
        · exact .refl world
        · exact .refl world
        · have registered : ({ world with
              connection := { world.connection with
                listeners := (world.connection.listeners.add id).2 } } : World).Recalls world :=
            recalls_connect ⟨rfl, rfl⟩
          have stillFound : ({ world with
              connection := { world.connection with
                listeners := (world.connection.listeners.add id).2 } } : World).caches[id]? =
              some cache := found
          have running : Cache.Recalls { cache with
              phase := .started
              connected := world.connection.isConnected
              registration := some (world.connection.listeners.add id).1 } cache :=
            Cache.recalls_of_store rfl rfl
          have started := registered.trans (recalls_setCache stillFound running)
          split
          · exact started.trans (recalls_refreshAll _ id)
          · exact started.trans (recalls_of_quiet (quiet_settledToken _ _))

theorem recalls_closeCache (world : World) (id : CacheId) :
    (world.closeCache id).Recalls world := by
  unfold closeCache
  cases found : world.caches[id]? with
  | none => exact .refl world
  | some cache =>
      simp only
      split
      · exact .refl world
      · have left : ∀ listeners : Registry CacheId,
            ((({ world with connection := { world.connection with listeners } } : World).setCache id
              cache.close).enqueue (cache.feed.idle.map (Task.deliver id))).Recalls world := by
          intro listeners
          have kept : ({ world with connection := { world.connection with listeners } } :
              World).Recalls world := recalls_connect ⟨rfl, rfl⟩
          have stillFound : ({ world with connection := { world.connection with listeners } } :
              World).caches[id]? = some cache := found
          have closed : cache.close.Recalls cache :=
            ⟨rfl, (Store.within_clear cache.store).recalls⟩
          exact (kept.trans (recalls_setCache stillFound closed)).trans
            (recalls_of_quiet (quiet_enqueue_deliveries _ id _))
        exact left _

theorem recalls_get (world : World) (id : CacheId) (path : Path) :
    (world.get id path).2.Recalls world := by
  unfold get
  cases found : world.caches[id]? with
  | none => exact .refl world
  | some cache =>
      exact recalls_setCache found
        (Cache.recalls_within (Store.within_get cache.store world.now path))

theorem recalls_clear (world : World) (id : CacheId) (path : Path) :
    (world.clear id path).2.Recalls world := by
  unfold clear
  cases found : world.caches[id]? with
  | none => exact .refl world
  | some cache =>
      exact recalls_setCache found
        (Cache.recalls_within (Store.within_remove cache.store world.now path))

theorem recalls_clearDataIf (world : World) (id : CacheId) (path : Path) (version : Int) :
    (world.clearDataIf id path version).2.Recalls world := by
  unfold clearDataIf
  cases found : world.caches[id]? with
  | none => exact .refl world
  | some cache =>
      refine recalls_setCache found ⟨rfl, Store.recalls_update cache.store world.now path ?_⟩
      intro old new changed
      split at changed
      · cases changed
        rfl
      · cases changed

theorem recalls_requeue (world : World) : world.requeue.Recalls world := by
  refine recalls_of_caches ⟨rfl, rfl⟩ rfl ?_
  rintro visit answer (queued | suspended)
  · refine Or.inl ?_
    rw [requeue, List.append_nil] at queued
    exact queued
  · exact Or.inr suspended

end World

/-- Another remote side takes the place of the one there was. -/
def Incident.isTurn : Incident → Bool
  | .turn _ => true
  | _ => false

namespace World

variable {world : World}

/-- Every incident but the run of a task changes the tree, or leaves it, and nothing is learnt. -/
theorem exists_recalls_obey (world : World) {command : Command}
    (single : command.isRound = false) (noTask : command ≠ .step) :
    ∃ ensemble, (world.ensemble.IsDated → ensemble.Evolves world.ensemble) ∧
      (world.obey command).Recalls (world.setEnsemble ensemble) := by
  have kept : ∀ {after : World}, after.Recalls world →
      ∃ ensemble, (world.ensemble.IsDated → ensemble.Evolves world.ensemble) ∧
        after.Recalls (world.setEnsemble ensemble) :=
    fun recalls => ⟨world.ensemble, fun dated => dated.evolves_of_sameTree ⟨rfl, rfl⟩, recalls⟩
  cases command with
  | step => exact absurd rfl noTask
  | round | advance => cases single
  | create path data owner =>
      exact ⟨_, fun dated => dated.evolves_of_advances (Ensemble.advances_create _ path data owner),
        recalls_change world _⟩
  | setData path data =>
      exact ⟨_, fun dated => dated.evolves_of_advances (Ensemble.advances_setData _ path data),
        recalls_change world _⟩
  | delete path =>
      exact ⟨_, fun dated => dated.evolves_of_advances (Ensemble.advances_delete _ path),
        recalls_change world _⟩
  | replaceSilently path data =>
      have stats := fun other => world.ensemble.stat?_replaceSilently path other data
      exact ⟨_, fun dated => dated.evolves_of_stats stats rfl, .refl _⟩
  | failReads | healReads | refuseSessions | hold => exact kept (recalls_setTree ⟨rfl, rfl⟩)
  | announce state => exact kept (recalls_foldl (fun _ _ => recalls_deliverEvent _ _) _ world)
  | expireSessions => exact kept (recalls_expireSessions world)
  | release hold => exact kept (recalls_release world hold)
  | occur event => exact kept (recalls_occur world event)
  | startConnection =>
      exact kept (recalls_connect (world.connection.sameTree_openSession world.now))
  | acquire => exact kept (recalls_connect (world.connection.sameTree_acquire world.now))
  | closeConnection => exact kept (recalls_connect (world.connection.sameTree_close world.now))
  | pollFailure | readCounters => exact kept (recalls_connect ⟨rfl, rfl⟩)
  | build path calls => exact kept (recalls_build world path calls)
  | start id => exact kept (recalls_start world id)
  | closeCache id => exact kept (recalls_closeCache world id)
  | refresh id path => exact kept (recalls_refresh world id path)
  | refreshAll id => exact kept (recalls_refreshAll world id)
  | readToken token => exact kept (recalls_of_quiet (quiet_readToken world token))
  | cancelToken token => exact kept (recalls_of_quiet (quiet_updateChannel world token _))
  | listen id listener => exact kept (recalls_of_quiet (quiet_listen world id listener))
  | unlisten id registration => exact kept (recalls_of_quiet (quiet_unlisten world id registration))
  | onError id listener => exact kept (recalls_of_quiet (quiet_onError world id listener))
  | offError id registration => exact kept (recalls_of_quiet (quiet_offError world id registration))
  | get id path => exact kept (recalls_get world id path)
  | clear id path => exact kept (recalls_clear world id path)
  | clearAll id => exact kept (recalls_updateStore world id fun store => store.within_clear)
  | clearDataIf id path version => exact kept (recalls_clearDataIf world id path version)

/-- Every incident runs a task, or changes the tree or leaves it and nothing is learnt. Only another
remote side may take the tree back in time. -/
theorem undergo_step_or_recalls (world : World) (incident : Incident) :
    incident = .step ∨
      ∃ ensemble,
        (incident.isTurn = false → world.ensemble.IsDated → ensemble.Evolves world.ensemble) ∧
        (world.undergo incident).Recalls (world.setEnsemble ensemble) := by
  have kept : ∀ {after : World}, after.Recalls world →
      ∃ ensemble,
        (incident.isTurn = false → world.ensemble.IsDated → ensemble.Evolves world.ensemble) ∧
        after.Recalls (world.setEnsemble ensemble) := fun recalls =>
    ⟨world.ensemble, fun _ dated => dated.evolves_of_sameTree ⟨rfl, rfl⟩, recalls⟩
  cases incident with
  | command given single =>
      by_cases isStep : given = .step
      · subst isStep
        exact Or.inl rfl
      · obtain ⟨ensemble, evolves, recalls⟩ := exists_recalls_obey world single isStep
        exact Or.inr ⟨ensemble, fun _ => evolves, recalls⟩
  | turn ensemble => exact Or.inr ⟨ensemble, fun same _ => Bool.noConfusion same, .refl _⟩
  | elapse span => exact Or.inr (kept (recalls_of_caches ⟨rfl, rfl⟩ rfl fun _ _ bears => bears))
  | requeue => exact Or.inr (kept (recalls_requeue world))

end World

end WatchedTree
