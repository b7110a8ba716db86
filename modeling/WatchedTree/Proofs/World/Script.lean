import WatchedTree.Proofs.Cache.Script
import WatchedTree.Proofs.World.Lasting

/-!
# What is told as nodes come and go

Two things change what a cache without bounds holds at a path: a commit puts a node in the place of
another, and a removal takes one away. Both tell of it, and nothing else does.
-/
namespace WatchedTree

/-- Holds if a store expires as the options say, every node carries the path it is cached at, and
the base is valid. -/
structure Cache.IsTidy (cache : Cache) : Prop where
  policy : cache.store.policy = cache.options.eviction
  keyed : cache.IsKeyed
  base : cache.options.basePath.IsValid

namespace Cache

variable {cache before after : Cache}

theorem isTidy_ofOptions (options : CacheOptions) (valid : options.basePath.IsValid) :
    (ofOptions options).IsTidy where
  policy := rfl
  keyed := ⟨Table.distinct_nil, fun _ _ found => nomatch found⟩
  base := valid

theorem IsTidy.within (tidy : before.IsTidy) (options : after.options = before.options)
    (policy : after.store.policy = before.store.policy)
    (within : after.store.Within before.store) : after.IsTidy where
  policy := by rw [policy, options, tidy.policy]
  keyed := Store.Keeps.within tidy.keyed within
  base := options ▸ tidy.base

theorem isLasting_isTidy : IsLasting IsTidy where
  new := isTidy_ofOptions
  dwindles := fun fewer tidy => tidy.within fewer.options fewer.policy fewer.within

theorem IsTidy.commit (tidy : cache.IsTidy) (now : Moment) (node : Node) (epoch : Epoch) :
    (cache.commit now node epoch).2.IsTidy := by
  unfold Cache.commit
  split
  · exact tidy
  · have fence := Store.fence_upsert cache.store now node epoch
    exact ⟨Eq.trans (congrArg Fence.policy fence) tidy.policy,
      Store.Keeps.upsert tidy.keyed rfl now epoch, tidy.base⟩

theorem IsTidy.isUnbounded (tidy : cache.IsTidy) (boundless : cache.options.eviction = {}) :
    cache.store.IsUnbounded := tidy.policy.trans boundless

end Cache

namespace World

open CacheEvent (between)

variable {world first second third : World} {running : Option RefreshId}
  {cleared : Option CacheId} {id : CacheId} {cache : Cache} {refresh : RefreshId}
  {options : CacheOptions} {path : Path}

/-- What a cache has told of a path. -/
def toldOf (world : World) (id : CacheId) (path : Path) : List CacheEvent :=
  CacheEvent.about (world.nodeEvents id) path

theorem toldOf_of_journal (same : second.journal id = first.journal id) (path : Path) :
    second.toldOf id path = first.toldOf id path := by
  rw [toldOf, toldOf, nodeEvents_of_journal same]

theorem toldOf_of_more {told : List CacheEvent}
    (journal : second.journal id = first.journal id ++ told)
    (nodes : ∀ event ∈ told, event.node?.isSome = true) (path : Path) :
    second.toldOf id path = first.toldOf id path ++ CacheEvent.about told path := by
  have all : told.filter (fun event => event.node?.isSome) = told :=
    List.filter_eq_self.mpr nodes
  rw [toldOf, toldOf, nodeEvents, nodeEvents, journal, List.filter_append, all,
    CacheEvent.about_append]

/-! ## Options stay -/

/-- Every cache is still there, with the options it had. -/
def Retains (after before : World) : Prop :=
  ∀ (id : CacheId) (cache : Cache), before.caches[id]? = some cache →
    ∃ later, after.caches[id]? = some later ∧ later.options = cache.options

theorem retains_of_caches (caches : second.caches = first.caches) : second.Retains first :=
  fun _ cache found => ⟨cache, caches ▸ found, rfl⟩

theorem Retains.trans (left : second.Retains first) (right : third.Retains second) :
    third.Retains first := by
  intro id cache found
  obtain ⟨middle, middleFound, sameMiddle⟩ := left id cache found
  obtain ⟨last, lastFound, sameLast⟩ := right id middle middleFound
  exact ⟨last, lastFound, sameLast.trans sameMiddle⟩

theorem retains_of_quiet (same : second.quiet.caches = first.quiet.caches) :
    second.Retains first := by
  intro id cache found
  obtain ⟨later, laterFound, isLater⟩ := exists_of_quiet_caches same found
  exact ⟨later, laterFound, Cache.options_of_quiet isLater⟩

theorem Deeds.retains (deeds : first.Deeds running cleared second) : second.Retains first := by
  induction deeds with
  | refl => exact retains_of_caches rfl
  | tail _ deed inductionHypothesis =>
      apply inductionHypothesis.trans
      intro id cache found
      obtain ⟨later, laterFound, stays⟩ := deed.stays found
      exact ⟨later, laterFound, stays.options⟩

theorem Commits.retains (commits : first.Commits second) : second.Retains first := by
  intro id cache found
  have stays : ∃ later, second.caches[id]? = some later ∧ Stays later cache none :=
    commits.stays found
  obtain ⟨later, laterFound, staying⟩ := stays
  exact ⟨later, laterFound, staying.options⟩

/-- Holds if a cache, if it is there, has the options. -/
def Abides (world : World) (id : CacheId) (options : CacheOptions) : Prop :=
  ∀ cache, world.caches[id]? = some cache → cache.options = options

theorem Abides.of_retains (abides : second.Abides id options) (retains : second.Retains first) :
    first.Abides id options := by
  intro cache found
  obtain ⟨later, laterFound, same⟩ := retains id cache found
  exact same.symm.trans (abides later laterFound)

/-! ## Stores stay tidy -/

/-- Holds if a cache, if it is there, is tidy. -/
def Tidy (world : World) (id : CacheId) : Prop :=
  ∀ cache, world.caches[id]? = some cache → cache.IsTidy

theorem Deeds.tidy (deeds : first.Deeds running cleared second) (spared : cleared ≠ some id)
    (tidy : first.Tidy id) : second.Tidy id := deeds.meets Cache.isLasting_isTidy spared tidy

theorem Commits.tidy (commits : first.Commits second) (tidy : first.Tidy id) : second.Tidy id :=
  commits.meets Cache.isLasting_isTidy
    (fun _ now node epoch kept => kept.commit now node epoch) tidy

/-! ## What is cached -/

theorem cached_setCache (found : world.caches[id]? = some cache) (after : Cache) (path : Path) :
    (world.setCache id after).cached id path = after.store.peek world.now path :=
  cached_of_found (getElem?_setCache found after) path

theorem cached_setCache_of_ne {other : CacheId} (apart : id ≠ other) (after : Cache)
    (path : Path) : (world.setCache other after).cached id path = world.cached id path := by
  rw [cached, cached, setCache, List.getElem?_set_ne (Ne.symm apart)]

/-- A cache through which as much is seen of a path as before. -/
theorem cached_setCache_of_peek {other : CacheId} (found : world.caches[other]? = some cache)
    {after : Cache} (path : Path)
    (same : other = id → after.store.peek world.now path = cache.store.peek world.now path) :
    (world.setCache other after).cached id path = world.cached id path := by
  by_cases isOther : id = other
  · subst isOther
    rw [cached_setCache found, same rfl, cached_of_found found]
  · exact cached_setCache_of_ne isOther after path

theorem cached_of_quiet (same : second.quiet.caches = first.quiet.caches)
    (now : second.now = first.now) (path : Path) :
    second.cached id path = first.cached id path := by
  cases found : first.caches[id]? with
  | some cache =>
      obtain ⟨later, laterFound, alike⟩ := exists_of_quiet_caches same found
      rw [cached_of_found laterFound, cached_of_found found, Cache.store_of_quiet alike, now]
  | none =>
      cases later : second.caches[id]? with
      | none => rw [cached, cached, found, later]
      | some cache =>
          obtain ⟨held, isHeld, _⟩ := exists_of_quiet_caches same.symm later
          rw [found] at isHeld
          cases isHeld

theorem cached_dispatchAll (world : World) (other : CacheId) (events : List CacheEvent)
    (path : Path) : (world.dispatchAll other events).cached id path = world.cached id path := by
  have same := quiet_dispatchAll world other events
  have now : (world.dispatchAll other events).quiet.now = world.quiet.now :=
    congrArg World.now same
  exact cached_of_quiet (congrArg caches same) now path

/-- Without bounds, what is cached depends on nothing but the entries. -/
theorem cached_of_entries (tidy : first.Tidy id) (tidyLater : second.Tidy id)
    (abides : second.Abides id options) (retains : second.Retains first)
    (boundless : options.eviction = {})
    (same : (second.caches[id]?).map (·.store.entries) = (first.caches[id]?).map (·.store.entries))
    (path : Path) : second.cached id path = first.cached id path := by
  cases found : first.caches[id]? with
  | none =>
      rw [found, Option.map_none, Option.map_eq_none_iff] at same
      rw [cached, cached, found, same]
  | some cache =>
      rw [found, Option.map_some, Option.map_eq_some_iff] at same
      obtain ⟨later, laterFound, sameEntries⟩ := same
      have before := (abides.of_retains retains) cache found
      have after := abides later laterFound
      have unbounded := (tidy cache found).isUnbounded (before ▸ boundless)
      have unboundedLater := (tidyLater later laterFound).isUnbounded (after ▸ boundless)
      rw [cached_of_found laterFound, cached_of_found found, unbounded.peek_eq,
        unboundedLater.peek_eq, sameEntries]

/-! ## What goes is told -/

/-- A path keeps what is cached there, or loses it, and that is told. -/
inductive Trims (after before : World) (id : CacheId) (path : Path) : Prop where
  | keeps (cached : after.cached id path = before.cached id path)
      (told : after.toldOf id path = before.toldOf id path)
  | loses (cached : after.cached id path = none)
      (told : after.toldOf id path =
        before.toldOf id path ++ (before.cached id path).toList.map .nodeDeleted)

theorem Trims.trans (left : second.Trims first id path) (right : third.Trims second id path) :
    third.Trims first id path := by
  cases right with
  | keeps cached told =>
      cases left with
      | keeps earlier earlierTold =>
          exact .keeps (cached.trans earlier) (told.trans earlierTold)
      | loses earlier earlierTold => exact .loses (cached.trans earlier) (told.trans earlierTold)
  | loses cached told =>
      refine .loses cached ?_
      cases left with
      | keeps earlier earlierTold => rw [told, earlier, earlierTold]
      | loses earlier earlierTold =>
          rw [told, earlier, earlierTold]
          exact List.append_nil _

theorem trims_of_caches (tidy : first.Tidy id) (abides : first.Abides id options)
    (boundless : options.eviction = {}) (caches : second.caches = first.caches) (path : Path) :
    second.Trims first id path := by
  have tidyLater : second.Tidy id := fun cache found => tidy cache (caches ▸ found)
  have abidesLater : second.Abides id options := fun cache found => abides cache (caches ▸ found)
  refine .keeps ?_ (toldOf_of_journal (journal_of_caches caches id) path)
  exact cached_of_entries tidy tidyLater abidesLater (retains_of_caches caches) boundless
    (by rw [caches]) path

theorem trims_spawn (world : World) (fetch : Fetch) (path : Path) :
    (world.spawn fetch).Trims world id path := by
  refine .keeps (cached_of_quiet (caches_quiet_spawn world fetch) (now_spawn world fetch) path) ?_
  rw [toldOf, nodeEvents_spawn]
  rfl

/-- What is done to one cache, and told of it, is neither seen nor heard of another. -/
theorem unnoticed_of_other {other : CacheId} (found : world.caches[other]? = some cache)
    {after : Cache} (feed : after.feed = cache.feed) (events : List CacheEvent)
    (apart : id ≠ other) (path : Path) :
    ((world.setCache other after).dispatchAll other events).cached id path =
        world.cached id path ∧
      ((world.setCache other after).dispatchAll other events).toldOf id path =
        world.toldOf id path := by
  refine ⟨?_, toldOf_of_journal ?_ path⟩
  · rw [cached_dispatchAll, cached_setCache_of_ne apart]
  · rw [journal_dispatchAll_of_ne (getElem?_setCache found after) apart,
      journal_setCache_of_feed found feed]

/-- What is told right after a change to a cache. -/
theorem toldOf_setCache (found : world.caches[id]? = some cache) (after : Cache)
    (feed : after.feed = cache.feed) {events : List CacheEvent}
    (nodes : ∀ event ∈ events, event.node?.isSome = true) (path : Path) :
    ((world.setCache id after).dispatchAll id events).toldOf id path =
      world.toldOf id path ++ CacheEvent.about events path := by
  have journal := journal_dispatchAll (getElem?_setCache found after) events
  rw [journal_setCache_of_feed found feed] at journal
  exact toldOf_of_more journal nodes path

theorem trims_remove (tidy : world.Tidy id) {other : CacheId}
    (found : world.caches[other]? = some cache) (paths : List Path) (path : Path) :
    ((world.setCache other (Cache.removeSubtrees world.now paths cache).2).dispatchAll other
      (Cache.removeSubtrees world.now paths cache).1).Trims world id path := by
  have feed := congrArg Cache.feed (Cache.removeSubtrees_eq cache world.now paths)
  by_cases isOther : id = other
  · subst isOther
    have nodes : ∀ event ∈ (Cache.removeSubtrees world.now paths cache).1,
        event.node?.isSome = true := fun _ member => Cache.node_of_mem_removeSubtrees member
    have told := toldOf_setCache found _ feed nodes path
    rw [Cache.events_removeSubtrees (tidy cache found).keyed] at told
    have left := cached_setCache found (Cache.removeSubtrees world.now paths cache).2 path
    rw [Cache.peek_removeSubtrees, ← cached_of_found found] at left
    by_cases covered : ∃ doomed ∈ paths, Path.Covers doomed path
    · rw [if_pos covered] at told left
      rw [Cache.deletions, ← cached_of_found found] at told
      exact .loses ((cached_dispatchAll _ _ _ _).trans left) told
    · rw [if_neg covered] at told left
      rw [List.append_nil] at told
      exact .keeps ((cached_dispatchAll _ _ _ _).trans left) told
  · obtain ⟨cached, told⟩ := unnoticed_of_other found feed
      (Cache.removeSubtrees world.now paths cache).1 isOther path
    exact .keeps cached told

theorem Deed.trims (deed : first.Deed running cleared second) (spared : cleared ≠ some id)
    (tidy : first.Tidy id) (abides : first.Abides id options) (boundless : options.eviction = {})
    (path : Path) : second.Trims first id path := by
  cases deed with
  | pass caches => exact trims_of_caches tidy abides boundless caches path
  | tend found tended =>
      refine .keeps ?_ (toldOf_of_journal (journal_setCache_of_journal found tended.journal) path)
      exact cached_setCache_of_peek found path fun _ => by rw [tended.store]
  | @keep _ _ other before store found tended =>
      have journal : (first.setCache other { before with store }).journal id = first.journal id :=
        journal_setCache_of_feed found rfl
      refine .keeps ?_ (toldOf_of_journal journal path)
      apply cached_setCache_of_peek found path
      intro same
      subst same
      have unbounded := (tidy before found).isUnbounded (abides before found ▸ boundless)
      exact tended.peek unbounded first.now path
  | clear found cleared =>
      refine .keeps ?_ (toldOf_of_journal (journal_setCache_of_journal found cleared.journal) path)
      exact cached_setCache_of_ne (fun same => spared (congrArg some same.symm)) _ path
  | remove found paths => exact trims_remove tidy found paths path
  | spawn fetch => exact trims_spawn first fetch path
  | @launch _ other _ _ _ base full =>
      have added : (first.addRefresh other base none).2.Trims first id path :=
        trims_of_caches tidy abides boundless (by rfl) path
      exact added.trans (trims_spawn _ _ path)
  | @request _ other _ _ _ base full =>
      have added : ((first.addChannel {}).2.addRefresh other base
          (some first.channels.length)).2.Trims first id path :=
        trims_of_caches tidy abides boundless (by rfl) path
      exact added.trans (trims_spawn _ _ path)
  | settle => exact trims_of_caches tidy abides boundless (by rfl) path
  | build options _ =>
      exact .keeps (cached_build options path) (toldOf_of_journal (journal_build options) path)

theorem Deeds.trims (deeds : first.Deeds running cleared second) (spared : cleared ≠ some id)
    (tidy : first.Tidy id) (abides : second.Abides id options) (boundless : options.eviction = {})
    (path : Path) : second.Trims first id path := by
  induction deeds with
  | refl => exact .keeps rfl rfl
  | @tail middle last earlier deed inductionHypothesis =>
      have abidesMiddle := abides.of_retains (Deeds.retains (Relation.ReflTransGen.single deed))
      have tidyMiddle := Deeds.tidy earlier spared tidy
      exact (inductionHypothesis abidesMiddle).trans
        (deed.trims spared tidyMiddle abidesMiddle boundless path)

theorem Ends.trims (ends : first.Ends refresh second) (tidy : first.Tidy id)
    (abides : second.Abides id options) (boundless : options.eviction = {}) (path : Path) :
    second.Trims first id path := by
  obtain ⟨last, deeds, rfl⟩ := ends
  have quietly := quiet_countDown last refresh
  have now : (last.countDown refresh).quiet.now = last.quiet.now := congrArg World.now quietly
  have spared : (none : Option CacheId) ≠ some id := (Option.some_ne_none id).symm
  have abidesLast := abides.of_retains (retains_of_quiet (congrArg caches quietly))
  apply (deeds.trims spared tidy abidesLast boundless path).trans
  refine .keeps (cached_of_quiet (congrArg caches quietly) now path) ?_
  rw [toldOf, nodeEvents_countDown, toldOf]

/-! ## What comes is told -/

/-- What is cached at a path has taken the place of what was cached there before, and just that was
told: of a node that has come the new one, of a node that has gone the old one. -/
def Rewrites (after before : World) (id : CacheId) (path : Path)
    (isSame : Node → Node → Bool) : Prop :=
  after.toldOf id path = before.toldOf id path ++
    between isSame (before.cached id path) (after.cached id path)

theorem Trims.rewrites {isSame : Node → Node → Bool}
    (reflexive : ∀ node, isSame node node = true) (trims : second.Trims first id path) :
    second.Rewrites first id path isSame := by
  cases trims with
  | keeps cached told =>
      rw [Rewrites, told, cached, CacheEvent.between_self reflexive, List.append_nil]
  | loses gone told => rw [Rewrites, told, gone, CacheEvent.between_none]

/-- What a commit tells of a path is what has become of it. -/
theorem Commits.rewrites (commits : first.Commits second) (tidy : first.Tidy id)
    (abides : first.Abides id options) (boundless : options.eviction = {})
    (stock : options.comparator.IsStock) (path : Path) :
    second.Rewrites first id path options.comparator.isSame := by
  have reflexive := stock.equivalence.refl
  unfold Rewrites
  rcases commits with rfl | ⟨other, cache, node, epoch, found, rfl⟩
  · rw [CacheEvent.between_self reflexive, List.append_nil]
  · have feed : (cache.commit first.now node epoch).2.feed = cache.feed := by
      unfold Cache.commit
      split <;> rfl
    by_cases isOther : id = other
    · subst isOther
      have isOptions := abides cache found
      subst isOptions
      have unbounded := (tidy cache found).isUnbounded boundless
      have nodes : ∀ event ∈ (cache.commit first.now node epoch).1.toList,
          event.node?.isSome = true := fun _ member => Cache.node_of_mem_commit member
      rw [toldOf_setCache found _ feed nodes, cached_dispatchAll, cached_setCache found,
        Cache.about_commit unbounded reflexive, cached_of_found found]
    · obtain ⟨cached, told⟩ := unnoticed_of_other found feed
        (cache.commit first.now node epoch).1.toList isOther path
      rw [told, cached, CacheEvent.between_self reflexive, List.append_nil]

/-! ## Incidents -/

theorem Handles.retains (handles : first.Handles refresh second) : second.Retains first := by
  obtain ⟨last, ⟨_, _, earlier, _, commits, later⟩, counted | ⟨_, _, waits⟩⟩ := handles
  · rw [counted]
    exact ((earlier.retains.trans commits.retains).trans later.retains).trans
      (retains_of_quiet (congrArg caches (quiet_countDown last refresh)))
  · rw [waits]
    exact (earlier.retains.trans commits.retains).trans later.retains

theorem Handles.tidy (handles : first.Handles refresh second) (tidy : first.Tidy id) :
    second.Tidy id :=
  handles.meets Cache.isLasting_isTidy (fun _ now node epoch kept => kept.commit now node epoch)
    tidy

variable {incident : Incident}

theorem retains_undergo (attended : world.Attended) (incident : Incident) :
    (world.undergo incident).Retains world := by
  rcases undergo_cases attended incident with ⟨channels, same⟩ |
    ⟨task, tasks, refresh, rfl, _, _, handles⟩ | deeds
  · rw [same]
    exact retains_of_caches rfl
  · exact handles.retains
  · exact deeds.retains

theorem retains_undergoAll (attended : world.Attended) (incidents : List Incident) :
    (world.undergoAll incidents).Retains world := by
  induction incidents generalizing world with
  | nil => exact retains_of_caches rfl
  | cons incident others inductionHypothesis =>
      exact (retains_undergo attended incident).trans
        (inductionHypothesis (attended.undergo incident))

theorem Tidy.undergo (tidy : world.Tidy id) (attended : world.Attended)
    (spared : incident.clears? ≠ some id) : (world.undergo incident).Tidy id := by
  rcases undergo_cases attended incident with ⟨channels, same⟩ |
    ⟨task, tasks, refresh, rfl, _, _, handles⟩ | deeds
  · rw [same]
    exact tidy
  · exact handles.tidy tidy
  · exact deeds.tidy spared tidy

/-! ## Runs -/

end World

end WatchedTree
