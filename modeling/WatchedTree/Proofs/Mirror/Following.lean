import WatchedTree.Proofs.Mirror.Fetches
import WatchedTree.Proofs.Mirror.Hearing
import WatchedTree.Proofs.Mirror.Upkeep
import WatchedTree.Proofs.World.Outcome

/-!
# A world that follows its tree

The mirror of a steady world keeps track of the tree through every change below the root, through
every refresh, and through every task that is run.
-/
namespace WatchedTree

open WatchedTree.Path

namespace World

/-- A sound world whose one cache keeps track of the tree. -/
structure Mirrors (world : World) (cache : Cache) (session : SessionId) : Prop where
  serves : world.quiet.Serves cache session
  sound : world.Sound
  tracks : (world.quiet.mirror cache session).Tracks

/-- A world in which a cache under these options keeps track of the tree. -/
def IsMirroring (world : World) (options : CacheOptions) (session : SessionId) : Prop :=
  ∃ cache, world.Mirrors cache session ∧ cache.options = options

variable {world : World} {cache : Cache} {session : SessionId} {path : Path}
  {options : CacheOptions}

/-- Only what lies below the base is cached. -/
theorem Mirrors.isBelow_of_shown (mirrors : world.Mirrors cache session)
    (isShown : (world.quiet.mirror cache session).shown path ≠ none) :
    isBelow cache.options.basePath path = true := by
  obtain ⟨node, cached⟩ := Option.ne_none_iff_exists'.mp isShown
  obtain ⟨action, traverse, scope, isStored⟩ :=
    ((mirrors.serves.hosts.cacheSound mirrors.sound).entries.of_peek cached).stored
  have inScope := mirrors.serves.scope path
  rw [Cache.scope, scope] at inScope
  by_contra notBelow
  rw [if_neg notBelow] at inScope
  by_cases isBase : path = cache.options.basePath
  · rw [if_pos isBase] at inScope
    cases inScope
    cases isStored
  · rw [if_neg isBase] at inScope
    cases inScope

/-- The mirror still keeps track if it shows and is told the same, and all that was about to be
fetched in its scope still is. -/
theorem Mirrors.waits (mirrors : world.Mirrors cache session) {later : World} {kept : Cache}
    (persists : later.Persists world kept cache session) : later.Mirrors kept session := by
  refine ⟨persists.hosts.serves (persists.options ▸ mirrors.serves.mode), persists.sound, ?_⟩
  apply mirrors.tracks.waited
  · exact
      { base := congrArg CacheOptions.basePath persists.options
        session := rfl
        nodes := persists.nodes
        sessions := persists.sessions
        shown := persists.shown
        pending := by
          rintro _ covers ⟨fetch, member, rfl⟩
          have inScope : cache.scope fetch.path ≠ none :=
            fun outside => mirrors.serves.scope_eq_none_iff.mp outside covers
          exact ⟨fetch, persists.queued fetch member inScope, rfl⟩
        within := fun _ isShown => covers_of_isBelow (mirrors.isBelow_of_shown isShown) }
  · exact persists.sound.remote

/-! ## Fetches -/

theorem healthy_surveyed {ensemble : Ensemble} (healthy : ensemble.failing = [])
    (unheld : ensemble.heldReads = []) (id : SessionId) (path : Path) (action : Action)
    (traverse : Bool) :
    (ensemble.surveyed id path action traverse).failing = [] ∧
      (ensemble.surveyed id path action traverse).heldReads = [] := by
  have taken : (ensemble.taken path).heldReads = [] := by
    simp [Ensemble.taken, unheld, Table.erase]
  unfold Ensemble.surveyed Ensemble.listed
  simp only
  split <;> split <;> (try split) <;> first | exact ⟨healthy, taken⟩ | exact ⟨healthy, unheld⟩

theorem healthy_missed {ensemble : Ensemble} (healthy : ensemble.failing = [])
    (unheld : ensemble.heldReads = []) (id : SessionId) (path : Path) (action : Action) :
    (ensemble.missed id path action).failing = [] ∧
      (ensemble.missed id path action).heldReads = [] := by
  have taken : (ensemble.taken path).heldReads = [] := by
    simp [Ensemble.taken, unheld, Table.erase]
  unfold Ensemble.missed
  split
  · exact ⟨healthy, taken⟩
  · split <;> exact ⟨healthy, unheld⟩

/-- What a fetch that reads stat and payload together leaves if it finds no node, with another look
at the stat if it is the base that is missing. -/
theorem missed_spec {ensemble : Ensemble} {handler : Generation}
    (single : ensemble.HasOnly session handler) (healthy : ensemble.failing = [])
    (unheld : ensemble.heldReads = []) (path : Path) {action : Action}
    (readsBoth : action.wantsStat = true → action.wantsData = true) (isBase : Prop)
    [Decidable isBase] :
    ∃ remote : Ensemble,
      remote = (if isBase then
        (ensemble.missed session path action).countRead.arm session .data path
        else ensemble.missed session path action) ∧
      remote.HasOnly session handler ∧ remote.failing = [] ∧ remote.heldReads = [] ∧
      remote.SameTree ensemble ∧
      ∀ kind key, remote.isArmed session kind key = true ↔
        (isBase ∧ kind = .data ∧ key = path) ∨ ensemble.isArmed session kind key = true := by
  have only := single.missed path action
  have isHealthy := healthy_missed healthy unheld session path action
  have tree := ensemble.sameTree_missed session path action
  have armed : ∀ kind key, (ensemble.missed session path action).isArmed session kind key = true ↔
      ensemble.isArmed session kind key = true := by
    intro kind key
    rw [Ensemble.isArmed_missed single.isOpen]
    apply or_iff_right
    rintro ⟨_, _, wantsStat, noData⟩
    rw [readsBoth wantsStat] at noData
    cases noData
  generalize ensemble.missed session path action = missed at only isHealthy tree armed
  by_cases base : isBase
  · have counted : missed.countRead.HasOnly session handler := only
    refine ⟨_, (if_pos base).symm, counted.arm, isHealthy.1, isHealthy.2, tree, ?_⟩
    intro kind key
    rw [Ensemble.isArmed_arm counted.isOpen, ← armed]
    simp only [base, true_and]
    exact Iff.rfl
  · refine ⟨_, (if_neg base).symm, only, isHealthy.1, isHealthy.2, tree, ?_⟩
    intro kind key
    simp only [base, false_and, false_or]
    exact armed kind key

/-- The children that a fetch of the cache goes on with. -/
def followUps (cache : Cache) (now : Moment) (fetch : Fetch) (names : List Text) : List Fetch :=
  (cache.wantedChildren now fetch.full fetch.path names).map fun path => { fetch with path }

/-- The cache after it read a node of the tree. -/
def readOf (cache : Cache) (now : Moment) (remote : Ensemble) (path : Path) (action : Action)
    (node : RemoteNode) : Cache :=
  let names := cache.listing remote path
  visited cache now action true (nodeOf path action node names) names

theorem Serves.quiet_runFetch_of_present (serves : world.quiet.Serves cache session)
    (remembers : cache.store.Remembers) {fetch : Fetch} (own : fetch.cache = 0) {action : Action}
    (scope : cache.scope fetch.path = some (action, true)) {node : RemoteNode}
    (present : world.ensemble.nodes.get? fetch.path = some node) :
    let read := readOf cache world.now world.ensemble fetch.path action node
    (world.runFetch fetch).quiet =
      ((world.quiet.setEnsemble (world.ensemble.surveyed session fetch.path action true)).setCache
        0 (read.ended cache.store.epoch)).enqueue
          ((followUps read world.now fetch (cache.listing world.ensemble fetch.path)).map
            Task.fetch) := by
  have outcome := serves.hosts.quiet_runFetch_of_present remembers own scope present
  simp only [if_true] at outcome
  simp only [followUps, List.map_map]
  exact outcome

theorem mem_listing {ensemble : Ensemble} {name : Text} :
    name ∈ cache.listing ensemble path ↔ name ∈ ensemble.childNames path :=
  Text.mem_ite_sort

/-- In a rooted tree a list of children leaves nothing out that stands below its path. -/
theorem firstBelow_mem_listing {ensemble : Ensemble} (sound : ensemble.Sound)
    (rooted : ensemble.IsRooted) (valid : path.IsValid) {key : Path}
    (held : key ∈ ensemble.nodes.keys) (below : isBelow path key = true) :
    firstBelow path key ∈ cache.listing ensemble path := by
  obtain ⟨node, found⟩ := Table.mem_keys_iff.mp held
  have keyValid := sound.valid key node found
  obtain ⟨isSegment, _⟩ := firstBelow_spec valid keyValid below
  have covers := covers_firstBelow valid keyValid below
  rw [mem_listing, Ensemble.mem_childNames valid]
  exact ⟨isSegment, rooted.mem_of_covers (valid.child isSegment) keyValid covers held⟩

/-- The base is only read for its children; what is below it is kept with stat and payload. -/
theorem Serves.scope_of_covers (serves : world.quiet.Serves cache session)
    (inScope : Covers cache.options.basePath path) :
    ∃ action, cache.scope path = some (action, true) ∧
      (path = cache.options.basePath → action = .notStored) ∧
        (path ≠ cache.options.basePath → action = .statAndData) := by
  rw [serves.scope]
  by_cases isBase : path = cache.options.basePath
  · exact ⟨.notStored, by rw [if_pos isBase], fun _ => rfl, fun notBase => absurd isBase notBase⟩
  · exact ⟨.statAndData, by rw [if_neg isBase, if_pos (inScope.resolve_left isBase)],
      fun same => absurd same isBase, fun _ => rfl⟩

/-! ## A fetch that finds its node -/

section Found

variable {fetch : Fetch} {node : RemoteNode} (action : Action)
  (serves : world.quiet.Serves cache session) (sound : world.Sound)
  (present : world.ensemble.nodes.get? fetch.path = some node)

include serves sound present

/-- The node itself is shown, if it is kept, and of the others what the list of its children does
not leave out. -/
theorem Serves.peek_readOf (key : Path) :
    (readOf cache world.now world.ensemble fetch.path action node).store.peek world.now key =
      if key = fetch.path then
        if action.isStored = true then
          some (nodeOf fetch.path action node (cache.listing world.ensemble fetch.path))
        else cache.store.peek world.now key
      else if isBelow fetch.path key = true ∧
          firstBelow fetch.path key ∉ cache.listing world.ensemble fetch.path then none
      else cache.store.peek world.now key := by
  have cacheSound := serves.hosts.cacheSound sound
  have notOlder : ∀ old, cache.store.peek world.now fetch.path = some old →
      (nodeOf fetch.path action node (cache.listing world.ensemble fetch.path)).isOlderThan old =
        false := fun old cached => notOlder_of_sound cacheSound present cached
  have shown : (readOf cache world.now world.ensemble fetch.path action node).store.peek world.now
      key =
        if key = fetch.path then
          if action.isStored = true then
            some (nodeOf fetch.path action node (cache.listing world.ensemble fetch.path))
          else cache.store.peek world.now key
        else if true = true ∧ isBelow fetch.path key = true ∧
            firstBelow fetch.path key ∉ cache.listing world.ensemble fetch.path then none
        else cache.store.peek world.now key :=
    peek_visited serves.unbounded cacheSound.remembers cacheSound.isPlaced serves.isStarted
      (sound.remote.valid _ _ present) notOlder key
  simp only [true_and] at shown
  exact shown

/-- Once the fetch has run the world still serves the cache. -/
theorem Serves.runFetch_of_present (own : fetch.cache = 0)
    (scope : cache.scope fetch.path = some (action, true)) :
    (world.runFetch fetch).quiet.Serves
      ((readOf cache world.now world.ensemble fetch.path action node).ended cache.store.epoch)
      session := by
  have options : (readOf cache world.now world.ensemble fetch.path action node).options =
      cache.options := options_visited
  have phase : (readOf cache world.now world.ensemble fetch.path action node).phase =
      cache.phase := phase_visited
  have unbounded : (readOf cache world.now world.ensemble fetch.path action
      node).store.IsUnbounded := isUnbounded_visited serves.unbounded
  have healthy := healthy_surveyed serves.healthy serves.unheld session fetch.path action true
  have single := serves.single.surveyed fetch.path action true
  have outcome := serves.quiet_runFetch_of_present (serves.hosts.cacheSound sound).remembers own scope
    present
  simp only at outcome
  rw [outcome]
  generalize readOf cache world.now world.ensemble fetch.path action node = read
    at options phase unbounded ⊢
  have ownFollowUps : ∀ other ∈ followUps read world.now fetch
      (cache.listing world.ensemble fetch.path), other.cache = 0 := by
    intro other member
    obtain ⟨key, _, rfl⟩ := List.mem_map.mp member
    exact own
  have endedOptions : (read.ended cache.store.epoch).options = cache.options := options
  have endedPhase : (read.ended cache.store.epoch).phase = cache.phase := phase
  have endedUnbounded : (read.ended cache.store.epoch).store.IsUnbounded := unbounded
  exact ((serves.setEnsemble single healthy.1 healthy.2).setCache endedOptions endedPhase
    endedUnbounded).enqueue ownFollowUps

/-- A child of the node that is not shown is fetched next. -/
theorem Serves.exists_followUp (key : Path) (held : key ∈ world.ensemble.nodes.keys)
    (below : isBelow cache.options.basePath key = true) (isParent : key.parent = fetch.path)
    (unseen : (readOf cache world.now world.ensemble fetch.path action node).store.peek world.now
      key = none) :
    { fetch with path := key } ∈
      followUps (readOf cache world.now world.ensemble fetch.path action node) world.now fetch
        (cache.listing world.ensemble fetch.path) := by
  have options : (readOf cache world.now world.ensemble fetch.path action node).options =
      cache.options := options_visited
  generalize readOf cache world.now world.ensemble fetch.path action node = read
    at options unseen ⊢
  obtain ⟨remote, found⟩ := Table.mem_keys_iff.mp held
  have keyValid := sound.remote.valid key remote found
  have notRoot := ne_root_of_isBelow (serves.hosts.cacheSound sound).base below
  have isChild := child_parent_name keyValid notRoot
  rw [isParent] at isChild
  have listed : name key ∈ cache.listing world.ensemble fetch.path := by
    rw [mem_listing, Ensemble.mem_childNames (sound.remote.valid _ _ present), isChild]
    exact ⟨isSegment_name keyValid notRoot, held⟩
  have unstored : read.store.contains world.now key = false := by
    rw [Store.contains]
    exact Option.isSome_eq_false_iff.mpr (Option.isNone_iff_eq_none.mpr unseen)
  have wanted : read.wantsFetch world.now fetch.full key = true := by
    have keyScope := serves.scope key
    rw [if_neg (Ne.symm (ne_of_isBelow below)), if_pos below] at keyScope
    rw [Cache.wantsFetch, Cache.scope, options, ← Cache.scope, keyScope]
    simp [Action.isStored, unstored]
  have member : key ∈ read.wantedChildren world.now fetch.full fetch.path
      (cache.listing world.ensemble fetch.path) :=
    Cache.mem_wantedChildren.mpr ⟨name key, listed, isChild.symm, wanted⟩
  exact List.mem_map.mpr ⟨key, member, rfl⟩

end Found

theorem Serves.finds (serves : world.quiet.Serves cache session) (sound : world.Sound)
    (rooted : world.ensemble.IsRooted) {fetch : Fetch} (own : fetch.cache = 0)
    (inScope : Covers cache.options.basePath fetch.path) {node : RemoteNode}
    (present : world.ensemble.nodes.get? fetch.path = some node) :
    ∃ after : Cache, after.options = cache.options ∧
      (world.runFetch fetch).quiet.Serves after session ∧
        ((world.runFetch fetch).quiet.mirror after session).Finds
          (world.quiet.mirror cache session) fetch.path := by
  obtain ⟨action, scope, _, isStored⟩ := serves.scope_of_covers inScope
  have outcome := serves.quiet_runFetch_of_present (serves.hosts.cacheSound sound).remembers own scope
    present
  have later := serves.runFetch_of_present action sound present own scope
  have options : (readOf cache world.now world.ensemble fetch.path action node).options =
      cache.options := options_visited
  have shown := serves.peek_readOf action sound present
  have queued := serves.exists_followUp action sound present
  have isOpen : world.ensemble.IsOpen session := serves.single.isOpen
  simp only at outcome
  generalize readOf cache world.now world.ensemble fetch.path action node = read
    at outcome later options shown queued
  have ended := fun key => Cache.peek_ended read cache.store.epoch world.now key
  refine ⟨read.ended cache.store.epoch, options, later, ?_⟩
  rw [outcome]
  refine
    { base := congrArg CacheOptions.basePath options
      session := rfl
      tree := Ensemble.sameTree_surveyed _ _ _ _ _
      armed := fun kind key armed => (Ensemble.isArmed_surveyed isOpen).mpr (Or.inr armed)
      others := ?_
      pending := ?_
      covered := inScope
      present := Table.mem_keys_iff.mpr ⟨node, present⟩
      listed := (Ensemble.isArmed_surveyed isOpen).mpr (Or.inl ⟨rfl, by simp [Ensemble.watches]⟩)
      image := ?_
      kept := ?_
      unseen := ?_
      wanted := ?_ }
  · intro kind key other armed
    exact ((Ensemble.isArmed_surveyed isOpen).mp armed).resolve_left fun added => other added.1
  · rintro key _ ⟨queued, member, isPath⟩
    exact ⟨queued, List.mem_append_left _ member, isPath⟩
  · intro notBase
    have isAction := isStored notBase
    subst isAction
    have armed : (world.ensemble.surveyed session fetch.path .statAndData true).isArmed session
        .data fetch.path = true := (Ensemble.isArmed_surveyed isOpen).mpr (Or.inl ⟨rfl, rfl⟩)
    refine ⟨armed, ?_⟩
    change (read.ended cache.store.epoch).store.peek world.now fetch.path =
      (world.ensemble.nodes.get? fetch.path).map (Mirror.imageOf fetch.path)
    have stores : Action.statAndData.isStored = true := rfl
    rw [ended, shown, if_pos rfl, if_pos stores, present]
    rfl
  · -- The list of children leaves no node out.
    intro key held other
    change (read.ended cache.store.epoch).store.peek world.now key = cache.store.peek world.now key
    rw [ended, shown, if_neg other, if_neg]
    rintro ⟨below, leftOut⟩
    exact leftOut (firstBelow_mem_listing sound.remote rooted
      (sound.remote.valid _ _ present) held below)
  · intro key other unseen
    change (read.ended cache.store.epoch).store.peek world.now key = none
    rw [ended, shown, if_neg other]
    split
    · rfl
    · exact unseen
  · intro key held below isParent unseen
    have member := queued key held below isParent ((ended key).symm.trans unseen)
    exact ⟨_, List.mem_append_right _ (List.mem_map.mpr ⟨_, member, rfl⟩), rfl⟩

/-! ## A fetch that finds no node -/

theorem Serves.misses (serves : world.quiet.Serves cache session) (sound : world.Sound)
    {fetch : Fetch} (own : fetch.cache = 0)
    (inScope : Covers cache.options.basePath fetch.path)
    (absent : world.ensemble.nodes.get? fetch.path = none) :
    ∃ after : Cache, after.options = cache.options ∧
      (world.runFetch fetch).quiet.Serves after session ∧
        ((world.runFetch fetch).quiet.mirror after session).Misses
          (world.quiet.mirror cache session) fetch.path := by
  have cacheSound := serves.hosts.cacheSound sound
  obtain ⟨action, scope, isBase, isBelow⟩ := serves.scope_of_covers inScope
  have readsBoth : action.wantsStat = true → action.wantsData = true := by
    by_cases same : fetch.path = cache.options.basePath
    · rw [isBase same]
      exact id
    · rw [isBelow same]
      exact id
  have outcome := serves.hosts.quiet_runFetch_of_absent cacheSound.remembers own scope (by simp)
    absent
  obtain ⟨remote, isRemote, spec⟩ := missed_spec serves.single serves.healthy serves.unheld
    fetch.path readsBoth (fetch.path = cache.options.basePath)
  simp only at outcome
  obtain ⟨single, healthy, unheld, tree, armed⟩ := spec
  rw [quiet_ensemble] at isRemote
  rw [← isRemote] at outcome
  let after := (cache.begun.removeSubtree world.now fetch.path).2.ended cache.store.epoch
  have shown : ∀ key, after.store.peek world.now key =
      if Covers fetch.path key then none else cache.store.peek world.now key := by
    intro key
    rw [Cache.peek_ended, Cache.removeSubtree_eq]
    simp only
    rw [Store.peek_removeSubtree, Cache.peek_begun]
  have begunUnbounded : cache.begun.store.IsUnbounded := serves.unbounded
  have unbounded : after.store.IsUnbounded :=
    Cache.isUnbounded_removeSubtree begunUnbounded world.now fetch.path
  have later := (serves.setEnsemble single healthy unheld).setCache
    (show after.options = cache.options from rfl) rfl unbounded
  refine ⟨after, rfl, outcome ▸ later, ?_⟩
  rw [outcome]
  refine
    { base := rfl
      session := rfl
      tree := tree
      armed := fun kind key wasArmed => (armed kind key).mpr (Or.inr wasArmed)
      others := ?_
      pending := fun _ _ pending => pending
      absent := Table.get?_eq_none_iff.mp absent
      unlisted := ?_
      awaited := fun isBase => (armed .data _).mpr (Or.inl ⟨isBase, rfl, rfl⟩)
      gone := fun key covers => (shown key).trans (if_pos covers)
      kept := fun key uncovered => (shown key).trans (if_neg uncovered) }
  · intro kind key other isArmed
    exact ((armed kind key).mp isArmed).resolve_left fun added => other added.2.2
  · intro isArmed
    exact ((armed .child _).mp isArmed).resolve_left fun added => by cases added.2.1

/-! ## Tasks -/

theorem Serves.popped (serves : world.quiet.Serves cache session) {task : Task}
    {tasks : List Task} (queue : world.queue = task :: tasks) :
    ({ world with queue := tasks } : World).quiet.Serves cache session :=
  (serves.hosts.popped queue).serves serves.mode

/-- What was queued behind a task is still queued once the task is taken. -/
theorem pending_of_popped {fetch : Fetch} {tasks : List Task}
    (queue : world.queue = .fetch fetch :: tasks) {key : Path} (other : key ≠ fetch.path)
    (pending : (world.quiet.mirror cache session).pending key) :
    (({ world with queue := tasks } : World).quiet.mirror cache session).pending key := by
  obtain ⟨queued, member, isPath⟩ := pending
  obtain ⟨inQueue, notDelivery⟩ := List.mem_filter.mp member
  rw [queue] at inQueue
  rcases List.mem_cons.mp inQueue with isFirst | later
  · cases isFirst
    exact absurd isPath.symm other
  · exact ⟨queued, List.mem_filter.mpr ⟨later, notDelivery⟩, isPath⟩

/-- What a fetch in scope finds, or does not find, is taken into the mirror. -/
theorem Mirrors.runFetch (mirrors : world.Mirrors cache session) {fetch : Fetch}
    {tasks : List Task} (queue : world.queue = .fetch fetch :: tasks) (own : fetch.cache = 0)
    (inScope : Covers cache.options.basePath fetch.path) :
    (({ world with queue := tasks } : World).runFetch fetch).IsMirroring cache.options session := by
  have rest := mirrors.serves.popped queue
  have popped := (mirrors.sound.popped queue).sound
  have valid := mirrors.sound.fetches fetch (by simp [queue])
  have sound := (popped.runFetch valid).sound
  cases found : world.ensemble.nodes.get? fetch.path with
  | none =>
      obtain ⟨after, options, serves, misses⟩ := rest.misses popped own inScope found
      have tracks := mirrors.tracks.missed valid
        (misses.of_queued fun key other => pending_of_popped queue other)
      exact ⟨after, ⟨serves, sound, tracks⟩, options⟩
  | some node =>
      obtain ⟨after, options, serves, finds⟩ :=
        rest.finds popped mirrors.tracks.rooted own inScope found
      have tracks := mirrors.tracks.found
        (finds.of_queued fun key other => pending_of_popped queue other)
      exact ⟨after, ⟨serves, sound, tracks⟩, options⟩

/-- A mirror that keeps track of the tree keeps it. -/
theorem upheld_mirrors (session : SessionId) :
    IsUpheld (fun world cache => world.Mirrors cache session) session where
  hosts := fun mirrors => mirrors.serves.hosts
  sound := Mirrors.sound
  waits := fun mirrors persists => mirrors.waits persists
  fetches := fun mirrors queue own inScope =>
    mirrors.runFetch queue own (not_not.mp (mt mirrors.serves.scope_eq_none_iff.mpr inScope))

/-! ## Changes -/

/-- The cache hears of what a change fired. -/
theorem Serves.hear_fires (serves : world.quiet.Serves cache session) (changed : Ensemble)
    (sessions : changed.sessions = world.ensemble.sessions)
    (failing : changed.failing = world.ensemble.failing)
    (heldReads : changed.heldReads = world.ensemble.heldReads)
    {fires : List (WatchKind × EventKind × Path)}
    (distinct : fires.Pairwise fun first second =>
      ¬ (second.1 = first.1 ∧ second.2.2 = first.2.2))
    (isChange : ∀ fire ∈ fires, fire.2.1 ≠ .session) :
    ∃ after, ((Ensemble.fireEach fires changed).1.foldl deliverEvent
        (world.setEnsemble (Ensemble.fireEach fires changed).2)).Heard
      (world.setEnsemble (Ensemble.fireEach fires changed).2) cache session
      (world.ensemble.told session fires) after := by
  have single : changed.HasOnly session world.connection.generation := by
    obtain ⟨only, isOnly, rest⟩ := serves.single
    exact ⟨only, sessions.trans isOnly, rest⟩
  have firedServes : (world.setEnsemble (Ensemble.fireEach fires changed).2).quiet.Serves cache
      session := by
    rw [quiet_setEnsemble]
    apply serves.setEnsemble (single.fireEach fires)
    · rw [Ensemble.fireEach_eq]
      exact failing.trans serves.healthy
    · rw [Ensemble.fireEach_eq]
      exact heldReads.trans serves.unheld
  have told : (Ensemble.fireEach fires changed).1 =
      (world.ensemble.told session fires).map fun event =>
        { handler := world.connection.generation, event := .ofNode event.1 event.2 } := by
    have sameArmed : ∀ kind path, changed.isArmed session kind path =
        world.ensemble.isArmed session kind path := by
      intro kind path
      unfold Ensemble.isArmed Ensemble.session?
      rw [sessions]
    rw [single.fireEach_fst distinct, Ensemble.told, List.map_map]
    simp only [sameArmed]
    rfl
  rw [told]
  apply firedServes.hear_all
  intro event member
  obtain ⟨fire, isFired, rfl⟩ := List.mem_map.mp member
  exact isChange fire (List.mem_filter.mp isFired).1

theorem distinct_creationFires (path : Path) :
    (Ensemble.creationFires path).Pairwise fun first second =>
      ¬ (second.1 = first.1 ∧ second.2.2 = first.2.2) := by
  simp [Ensemble.creationFires]

theorem distinct_deletionFires (valid : path.IsValid) (notRoot : path ≠ root) :
    (Ensemble.deletionFires path).Pairwise fun first second =>
      ¬ (second.1 = first.1 ∧ second.2.2 = first.2.2) := by
  have parent : path.parent ≠ path := by
    obtain ⟨upper, segment, upperValid, isSegment, rfl⟩ := valid.exists_child notRoot
    rw [parent_child upperValid isSegment]
    exact ne_of_isBelow (isBelow_child upperValid isSegment)
  simp [Ensemble.deletionFires, parent]

theorem change_of_error {attempt : Ensemble → Except TransportFault (List Delivery) × Ensemble}
    {fault : TransportFault} {ensemble : Ensemble}
    (refused : attempt world.ensemble = (.error fault, ensemble)) :
    (world.change attempt).2 = world.setEnsemble ensemble := by
  simp [change, refused]

theorem change_of_ok {attempt : Ensemble → Except TransportFault (List Delivery) × Ensemble}
    {deliveries : List Delivery} {ensemble : Ensemble}
    (done : attempt world.ensemble = (.ok deliveries, ensemble)) :
    (world.change attempt).2 = deliveries.foldl deliverEvent (world.setEnsemble ensemble) := by
  simp [change, done]

theorem Mirrors.create (mirrors : world.Mirrors cache session) (valid : path.IsValid)
    (data : Payload) (owner : Int) :
    (world.create path data owner).2.IsMirroring cache.options session := by
  have sound := (mirrors.sound.create valid data owner).sound
  unfold World.create at sound ⊢
  rcases world.ensemble.create_cases path data owner with ⟨fault, refused⟩ | ⟨absent, parent, done⟩
  · rw [change_of_error refused]
    exact ⟨cache, (upheld_mirrors session).refuse mirrors, rfl⟩
  · rw [change_of_ok done] at sound ⊢
    obtain ⟨after, heard⟩ := mirrors.serves.hear_fires (world.ensemble.grown path data owner)
      rfl rfl rfl (distinct_creationFires path) (by simp [Ensemble.creationFires])
    have parentHeld : path.parent ∈ world.ensemble.nodes.keys := Table.contains_iff.mp parent
    refine ⟨after, ⟨heard.serves, sound, ?_⟩, heard.options⟩
    exact mirrors.tracks.created valid absent parentHeld heard.hears

theorem Mirrors.setData (mirrors : world.Mirrors cache session) (valid : path.IsValid)
    (data : Payload) : (world.setData path data).2.IsMirroring cache.options session := by
  have sound := (mirrors.sound.setData valid data).sound
  unfold World.setData at sound ⊢
  rcases world.ensemble.setData_cases path data with ⟨fault, refused⟩ | ⟨present, done⟩
  · rw [change_of_error refused]
    exact ⟨cache, (upheld_mirrors session).refuse mirrors, rfl⟩
  · rw [change_of_ok done] at sound ⊢
    have isChange : ∀ fire ∈ [(WatchKind.data, EventKind.dataChanged, path)],
        fire.2.1 ≠ .session := by simp
    obtain ⟨after, heard⟩ := mirrors.serves.hear_fires (world.ensemble.rewritten path data)
      rfl rfl rfl (List.pairwise_singleton _ _) isChange
    refine ⟨after, ⟨heard.serves, sound, ?_⟩, heard.options⟩
    exact mirrors.tracks.rewritten (Table.contains_iff.mp present) heard.hears

theorem Mirrors.delete (mirrors : world.Mirrors cache session) (valid : path.IsValid)
    (notRoot : path ≠ root) :
    (world.delete path).2.IsMirroring cache.options session := by
  have sound := (mirrors.sound.delete valid).sound
  unfold World.delete at sound ⊢
  rcases world.ensemble.delete_cases path with ⟨fault, refused⟩ | ⟨bare, present, done⟩
  · rw [change_of_error refused]
    exact ⟨cache, (upheld_mirrors session).refuse mirrors, rfl⟩
  · rw [change_of_ok done] at sound ⊢
    obtain ⟨after, heard⟩ := mirrors.serves.hear_fires (world.ensemble.pruned path)
      rfl rfl rfl (distinct_deletionFires valid notRoot) (by simp [Ensemble.deletionFires])
    have nothingBelow : ∀ key ∈ world.ensemble.nodes.keys, isBelow path key = false := by
      intro key member
      rw [← isPrefixOf_append_slash notRoot valid]
      exact bare key member
    refine ⟨after, ⟨heard.serves, sound, ?_⟩, heard.options⟩
    exact mirrors.tracks.deleted valid (Table.contains_iff.mp present) nothingBelow heard.hears

end World

end WatchedTree
