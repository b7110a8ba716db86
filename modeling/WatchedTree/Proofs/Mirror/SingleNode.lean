import WatchedTree.Proofs.Mirror.Convergence
import WatchedTree.Proofs.Mirror.Portrait

/-!
# The mirror of a single node

A cache of one node, on a steady session: whatever is changed, refreshed or run, and in whatever
order, it has the portrait of its node or is about to fetch it.
-/
namespace WatchedTree

open WatchedTree.Path

namespace World

/-- A fetch of the path is queued. -/
def IsFetching (world : World) (path : Path) : Prop :=
  ∃ fetch, Task.fetch fetch ∈ world.queue ∧ fetch.path = path

/-- A sound world whose one cache keeps one node. -/
structure Tends (world : World) (cache : Cache) (session : SessionId) (action : Action) :
    Prop where
  hosts : world.quiet.Hosts cache session
  sound : world.Sound
  mode : cache.options.mode = .singleNode action
  isStored : action.isStored = true

/-- The cache has the portrait of its node unless it is about to fetch it. -/
structure Attends (world : World) (cache : Cache) (session : SessionId) (action : Action) :
    Prop extends world.Tends cache session action where
  attended : world.quiet.IsFetching cache.options.basePath ∨
    cache.Portrays world.now session action world.ensemble

/-- A world in which a cache under these options attends to its node. -/
def IsAttending (world : World) (options : CacheOptions) (session : SessionId) (action : Action) :
    Prop :=
  ∃ cache, world.Attends cache session action ∧ cache.options = options

variable {world : World} {cache : Cache} {session : SessionId} {action : Action} {path : Path}
  {options : CacheOptions} {kind : EventKind}

theorem scope_singleNode (mode : cache.options.mode = .singleNode action) (path : Path) :
    cache.scope path = if path = cache.options.basePath then some (action, false) else none := by
  rw [Cache.scope, mode]
  rfl

theorem isFetching_enqueue (world : World) {fetch : Fetch} {fetches : List Fetch}
    (member : fetch ∈ fetches) : (world.enqueue (fetches.map Task.fetch)).IsFetching fetch.path :=
  ⟨fetch, List.mem_append_right _ (List.mem_map.mpr ⟨fetch, member, rfl⟩), rfl⟩

/-- The cache still attends if it sees the same, and the fetch that was queued still is. -/
theorem Attends.waits (attends : world.Attends cache session action) {later : World}
    {after : Cache} (persists : later.Persists world after cache session) :
    later.Attends after session action := by
  have options := persists.options
  have nodes := persists.nodes
  refine ⟨⟨persists.hosts, persists.sound, options ▸ attends.mode, attends.isStored⟩, ?_⟩
  rw [options]
  rcases attends.attended with ⟨fetch, member, isBase⟩ | portrays
  · have inScope : cache.scope fetch.path ≠ none := by
      rw [scope_singleNode attends.mode, if_pos isBase]
      exact Option.some_ne_none _
    exact Or.inl ⟨fetch, persists.queued fetch member inScope, isBase⟩
  · have armed : ∀ kind key, later.ensemble.isArmed session kind key =
        world.ensemble.isArmed session kind key := by
      intro kind key
      rw [Ensemble.isArmed, Ensemble.session?, persists.sessions, ← Ensemble.session?,
        ← Ensemble.isArmed]
    have names : ∀ key, after.listing later.ensemble key = cache.listing world.ensemble key := by
      intro key
      rw [Cache.listing, Ensemble.childNames_of_keys (congrArg Table.keys nodes), options,
        ← Cache.listing]
    refine Or.inr ⟨?_, ?_, ?_⟩
    · rw [options, nodes, armed, persists.shown]
      exact portrays.absent
    · rw [options, nodes, names, persists.shown]
      exact portrays.present
    · rw [options, nodes]
      simp only [armed]
      exact portrays.watched

/-! ## Events -/

/-- A later world in which the cache has been told of events: if one of them was about its base it
is about to fetch it, and else nothing has happened. -/
structure Alerted (later world : World) (cache : Cache) (session : SessionId)
    (told : List (EventKind × Path)) (after : Cache) : Prop where
  hosts : later.quiet.Hosts after session
  connection : later.connection = world.connection
  options : after.options = cache.options
  outcome : later.quiet.IsFetching cache.options.basePath ∨
    (∀ event ∈ told, event.2 ≠ cache.options.basePath) ∧ later.quiet = world.quiet

/-- Any event of the base brings on a fetch of it. -/
theorem Hosts.alert (hosts : world.quiet.Hosts cache session)
    (mode : cache.options.mode = .singleNode action) (isChange : kind ≠ .session) (path : Path) :
    ∃ after, (tell (.ofNode kind path) 0 world).Alerted world cache session [(kind, path)] after := by
  obtain ⟨other, found, rfl⟩ := exists_of_quiet hosts.found
  have scope : other.scope path =
      if path = other.options.basePath then some (action, false) else none :=
    scope_singleNode mode path
  have phase : other.phase = .started := hosts.isStarted
  rw [tell_ofNode world found phase isChange, scope]
  by_cases isBase : path = other.options.basePath
  · have refreshes : ∀ full, (world.backgroundRefresh 0 path full).Alerted world other.quiet session
        [(kind, path)] other.quiet := by
      intro full
      have queued := hosts.quiet_backgroundRefresh path full
      have connection := congrArg World.connection queued
      let fetch : Fetch := { cache := 0, refresh := world.refreshes.length, path, full }
      have own : ∀ queued ∈ [fetch], queued.cache = 0 := by simp [fetch]
      refine ⟨queued ▸ hosts.enqueue own, connection, rfl, Or.inl ?_⟩
      rw [queued, Cache.quiet_options, ← isBase]
      exact isFetching_enqueue world.quiet (List.mem_singleton.mpr rfl)
    rw [if_pos isBase]
    simp only [Option.isNone_some, Bool.false_eq_true, if_false]
    cases kind with
    | session => exact absurd rfl isChange
    | created => exact ⟨other.quiet, refreshes true⟩
    | dataChanged => exact ⟨other.quiet, refreshes false⟩
    | childrenChanged => exact ⟨other.quiet, refreshes false⟩
    | deleted =>
        simp only [if_pos isBase]
        let after := (other.quiet.removeSubtree world.now path).2
        have removed : (world.removeSubtree 0 path).quiet = world.quiet.setCache 0 after := by
          rw [quiet_removeSubtree, ← setCache_eq_updateCache _ hosts.found]
        have phase : after.phase = other.quiet.phase := other.quiet.phase_removeSubtree world.now path
        have unbounded : after.store.IsUnbounded :=
          Cache.isUnbounded_removeSubtree hosts.unbounded world.now path
        have kept : (world.removeSubtree 0 path).quiet.Hosts after session :=
          removed ▸ hosts.setCache phase unbounded
        have queued := kept.quiet_backgroundRefresh path true
        have connection : ((world.removeSubtree 0 path).backgroundRefresh 0 path true).connection =
            world.connection := by
          rw [← quiet_connection, queued, removed]
          rfl
        let fetch : Fetch :=
          { cache := 0, refresh := (world.removeSubtree 0 path).refreshes.length, path
            full := true }
        have own : ∀ queued ∈ [fetch], queued.cache = 0 := by simp [fetch]
        refine ⟨after, queued ▸ kept.enqueue own, connection, rfl, Or.inl ?_⟩
        rw [queued, Cache.quiet_options, ← isBase]
        exact isFetching_enqueue (world.removeSubtree 0 path).quiet (List.mem_singleton.mpr rfl)
  · rw [if_neg isBase]
    simp only [Option.isNone_none, if_true]
    exact ⟨other.quiet, hosts, rfl, rfl, Or.inr ⟨by simp [isBase], rfl⟩⟩

/-- Several events, each handed to the handler of the session, in their order. -/
theorem Hosts.alert_all {told : List (EventKind × Path)}
    (isChange : ∀ event ∈ told, event.1 ≠ .session) (hosts : world.quiet.Hosts cache session)
    (mode : cache.options.mode = .singleNode action) :
    ∃ after, ((told.map fun event =>
        { handler := world.connection.generation, event := .ofNode event.1 event.2 }).foldl
          deliverEvent world).Alerted world cache session told after := by
  induction told generalizing world cache with
  | nil => exact ⟨cache, hosts, rfl, rfl, Or.inr ⟨by simp, rfl⟩⟩
  | cons event others inductionHypothesis =>
      obtain ⟨kind, path⟩ := event
      have first : kind ≠ .session := isChange (kind, path) List.mem_cons_self
      obtain ⟨middle, alerted⟩ := hosts.alert mode first path
      have rest : ∀ event ∈ others, event.1 ≠ .session :=
        fun event member => isChange event (List.mem_cons_of_mem _ member)
      obtain ⟨after, later⟩ :=
        inductionHypothesis rest alerted.hosts (alerted.options.symm ▸ mode)
      rw [List.map_cons, List.foldl_cons, hosts.deliverEvent_ofNode first path]
      rw [alerted.connection] at later
      refine ⟨after, later.hosts, later.connection.trans alerted.connection,
        later.options.trans alerted.options, ?_⟩
      have outcome := later.outcome
      rw [alerted.options] at outcome
      rcases outcome with fetching | ⟨elsewhere, same⟩
      · exact Or.inl fetching
      · rcases alerted.outcome with fetching | ⟨firstElsewhere, firstSame⟩
        · exact Or.inl (same ▸ fetching)
        · refine Or.inr ⟨?_, same.trans firstSame⟩
          intro event member
          rcases List.mem_cons.mp member with rfl | inOthers
          · exact firstElsewhere _ (List.mem_singleton.mpr rfl)
          · exact elsewhere event inOthers

/-! ## Fetches -/

/-- What is made of a remote node depicts it. -/
theorem depicts_nodeOf (path : Path) (action : Action) (remote : RemoteNode) (names : List Text) :
    (nodeOf path action remote names).Depicts path action remote names where
  path := rfl
  data := rfl
  children := rfl
  own := by
    unfold nodeOf
    by_cases wantsStat : action.wantsStat = true
    · simp [wantsStat]
    · simp [wantsStat]
  stat := fun _ => rfl

/-- The cache tends to its node if it has its portrait after a fetch. -/
theorem Tends.of_portrayed (tends : world.Tends cache session action) {later : World}
    {after : Cache} {remote : Ensemble} (sound : later.Sound)
    (done : later.quiet = (world.quiet.setEnsemble remote).setCache 0 after)
    (options : after.options = cache.options) (phase : after.phase = cache.phase)
    (unbounded : after.store.IsUnbounded)
    (single : remote.HasOnly session world.connection.generation) (healthy : remote.failing = [])
    (unheld : remote.heldReads = [])
    (portrays : after.Portrays world.now session action remote) :
    later.IsAttending cache.options session action := by
  have hosts : ((world.quiet.setEnsemble remote).setCache 0 after).Hosts after session :=
    (tends.hosts.setEnsemble single healthy unheld).setCache phase unbounded
  have now := congrArg World.now done
  have isRemote := congrArg World.ensemble done
  rw [quiet_now] at now
  rw [quiet_ensemble] at isRemote
  refine ⟨after, ⟨⟨done ▸ hosts, sound, options ▸ tends.mode, tends.isStored⟩, Or.inr ?_⟩,
    options⟩
  rw [now, isRemote]
  exact portrays

section Base

variable {fetch : Fetch} (tends : world.Tends cache session action) (own : fetch.cache = 0)
  (isBase : fetch.path = cache.options.basePath)

include tends own isBase

/-- A fetch that finds the node leaves its portrait. -/
theorem Tends.runFetch_of_present {node : RemoteNode}
    (present : world.ensemble.nodes.get? fetch.path = some node) :
    (world.runFetch fetch).IsAttending cache.options session action := by
  have cacheSound := tends.hosts.cacheSound tends.sound
  have valid : fetch.path.IsValid := isBase ▸ cacheSound.base
  have scope : cache.scope fetch.path = some (action, false) := by
    rw [scope_singleNode tends.mode, if_pos isBase]
  have done := (tends.hosts.quiet_runFetch_of_present cacheSound.remembers own scope present).trans
    (enqueue_nil _)
  have isOpen : world.ensemble.IsOpen session := tends.hosts.single.isOpen
  let names := cache.listing world.ensemble fetch.path
  let kept := nodeOf fetch.path action node names
  let after := (visited cache world.now action false kept names).ended cache.store.epoch
  let surveyed := world.ensemble.surveyed session fetch.path action false
  have options : after.options = cache.options := options_visited
  have notOlder : ∀ old, cache.store.peek world.now kept.path = some old →
      kept.isOlderThan old = false := fun old cached => notOlder_of_sound cacheSound present cached
  have shown : after.store.peek world.now fetch.path = some kept := by
    rw [Cache.peek_ended, peek_visited tends.hosts.unbounded cacheSound.remembers
      cacheSound.isPlaced tends.hosts.isStarted valid notOlder]
    exact (if_pos rfl).trans (if_pos tends.isStored)
  have tree : surveyed.nodes = world.ensemble.nodes :=
    (Ensemble.sameTree_surveyed world.ensemble session fetch.path action false).1
  have found : surveyed.nodes.get? fetch.path = some node := by rw [tree, present]
  have listed : after.listing surveyed fetch.path = names := by
    rw [Cache.listing, Ensemble.childNames_of_keys (congrArg Table.keys tree), options,
      ← Cache.listing]
  have base : after.options.basePath = fetch.path := by rw [options, isBase]
  have healthy := healthy_surveyed tends.hosts.healthy tends.hosts.unheld session fetch.path
    action false
  refine tends.of_portrayed (tends.sound.runFetch valid).sound done options phase_visited
    (isUnbounded_visited tends.hosts.unbounded)
    (tends.hosts.single.surveyed fetch.path action false) healthy.1 healthy.2 ?_
  refine ⟨?_, ?_, ?_⟩
  · intro missing
    rw [base] at missing
    cases found.symm.trans missing
  · intro other isOther
    rw [base] at isOther ⊢
    cases found.symm.trans isOther
    refine ⟨kept, shown, ?_⟩
    rw [listed]
    exact depicts_nodeOf fetch.path action node names
  · intro _ kind isWatched
    rw [base]
    exact (Ensemble.isArmed_surveyed isOpen).mpr (Or.inl ⟨rfl, isWatched⟩)

/-- A fetch that finds no node leaves nothing but a watch for the node. -/
theorem Tends.runFetch_of_absent (absent : world.ensemble.nodes.get? fetch.path = none) :
    (world.runFetch fetch).IsAttending cache.options session action := by
  have cacheSound := tends.hosts.cacheSound tends.sound
  have valid : fetch.path.IsValid := isBase ▸ cacheSound.base
  have scope : cache.scope fetch.path = some (action, false) := by
    rw [scope_singleNode tends.mode, if_pos isBase]
  have reads : (action.wantsStat || action.wantsChildren || false) = true := by
    have isStored := tends.isStored
    by_contra noReads
    simp only [Bool.or_false, Bool.or_eq_true, not_or, Bool.not_eq_true] at noReads
    rw [action.not_isStored_of_no_reads noReads.1 noReads.2] at isStored
    cases isStored
  have done := tends.hosts.quiet_runFetch_of_absent cacheSound.remembers own scope reads absent
  simp only [if_pos isBase] at done
  let missed := world.ensemble.missed session fetch.path action
  let remote := missed.countRead.arm session .data fetch.path
  let after := (cache.begun.removeSubtree world.now fetch.path).2.ended cache.store.epoch
  have counted : missed.countRead.HasOnly session world.connection.generation :=
    tends.hosts.single.missed fetch.path action
  have healthy := healthy_missed tends.hosts.healthy tends.hosts.unheld session fetch.path
    action
  have begunUnbounded : cache.begun.store.IsUnbounded := tends.hosts.unbounded
  have shown : after.store.peek world.now fetch.path = none := by
    rw [Cache.peek_ended, Cache.removeSubtree_eq]
    simp only
    rw [Store.peek_removeSubtree, if_pos (covers_refl fetch.path)]
  have tree : remote.nodes = world.ensemble.nodes :=
    (Ensemble.sameTree_missed world.ensemble session fetch.path action).1
  have missing : remote.nodes.get? cache.options.basePath = none := by
    rw [tree, ← isBase, absent]
  refine tends.of_portrayed (tends.sound.runFetch valid).sound done rfl rfl
    (Cache.isUnbounded_removeSubtree begunUnbounded world.now fetch.path) counted.arm healthy.1
    healthy.2 ?_
  refine ⟨fun _ => ⟨?_, ?_⟩, fun node isFound => ?_, fun isFound => ?_⟩
  · exact isBase ▸ shown
  · exact (Ensemble.isArmed_arm counted.isOpen).mpr (Or.inl ⟨rfl, isBase.symm⟩)
  · cases missing.symm.trans isFound
  · have someNode : (remote.nodes.get? cache.options.basePath).isSome = true := isFound
    rw [missing] at someNode
    cases someNode

end Base

/-- A cache that attends to its node does so on and on. -/
theorem upheld_attends (session : SessionId) (action : Action) :
    IsUpheld (fun world cache => world.Attends cache session action) session where
  hosts := fun attends => attends.hosts
  sound := fun attends => attends.sound
  waits := fun attends persists => attends.waits persists
  fetches := by
    intro world cache fetch tasks attends queue own inScope
    have popped : ({ world with queue := tasks } : World).Tends cache session action :=
      ⟨attends.hosts.popped queue, (attends.sound.popped queue).sound, attends.mode,
        attends.isStored⟩
    have isBase : fetch.path = cache.options.basePath := by
      by_contra notBase
      rw [scope_singleNode attends.mode, if_neg notBase] at inScope
      exact inScope rfl
    cases found : world.ensemble.nodes.get? fetch.path with
    | none => exact popped.runFetch_of_absent own isBase found
    | some node => exact popped.runFetch_of_present own isBase found

/-! ## Changes -/

/-- A change keeps the cache attending if it leaves the portrait right where no watch on the base is
fired. -/
theorem Attends.change (attends : world.Attends cache session action)
    {attempt : Ensemble → Except TransportFault (List Delivery) × Ensemble} {changed : Ensemble}
    {fires : List (WatchKind × EventKind × Path)}
    (done : attempt world.ensemble =
      (.ok (Ensemble.fireEach fires changed).1, (Ensemble.fireEach fires changed).2))
    (sound : (world.change attempt).2.Sound)
    (sessions : changed.sessions = world.ensemble.sessions)
    (failing : changed.failing = world.ensemble.failing)
    (heldReads : changed.heldReads = world.ensemble.heldReads)
    (isChange : ∀ fire ∈ fires, fire.2.1 ≠ .session)
    (portrays : cache.Portrays world.now session action world.ensemble →
      cache.Unstirred session world.ensemble fires →
        cache.Portrays world.now session action changed) :
    (world.change attempt).2.IsAttending cache.options session action := by
  have single : changed.HasOnly session world.connection.generation := by
    obtain ⟨only, isOnly, rest⟩ := attends.hosts.single
    exact ⟨only, sessions.trans isOnly, rest⟩
  have sameArmed : ∀ watch key, changed.isArmed session watch key =
      world.ensemble.isArmed session watch key := by
    intro watch key
    rw [Ensemble.isArmed, Ensemble.session?, sessions, ← Ensemble.session?, ← Ensemble.isArmed]
  obtain ⟨told, deliveries, fired, complete⟩ := Ensemble.exists_told single fires
  have firedHosts : (world.setEnsemble (Ensemble.fireEach fires changed).2).quiet.Hosts cache
      session := by
    apply attends.hosts.setEnsemble (single.fireEach fires)
    · rw [Ensemble.fireEach_eq]
      exact failing.trans attends.hosts.healthy
    · rw [Ensemble.fireEach_eq]
      exact heldReads.trans attends.hosts.unheld
  have toldChange : ∀ event ∈ told, event.1 ≠ .session := by
    intro event member
    obtain ⟨watch, isFired⟩ := fired event member
    exact isChange _ isFired
  obtain ⟨after, alerted⟩ := firedHosts.alert_all toldChange attends.mode
  have handler : (world.setEnsemble (Ensemble.fireEach fires changed).2).connection.generation =
      world.connection.generation := rfl
  rw [handler] at alerted
  rw [change_of_ok done, deliveries] at sound ⊢
  refine ⟨after, ⟨⟨alerted.hosts, sound, alerted.options ▸ attends.mode, attends.isStored⟩, ?_⟩,
    alerted.options⟩
  rw [alerted.options]
  rcases alerted.outcome with fetching | ⟨elsewhere, same⟩
  · exact Or.inl fetching
  · rcases attends.attended with fetching | portrayed
    · exact Or.inl (same ▸ fetching)
    · -- No event was about the base, so none of its armed watches was fired.
      have unstirred : cache.Unstirred session world.ensemble fires := by
        intro fire member isBase
        apply eq_false_of_ne_true
        intro armed
        rw [← sameArmed, ← isBase] at armed
        obtain ⟨kind, isTold⟩ := complete fire member armed
        exact elsewhere _ isTold isBase
      have stillUnstirred : cache.Unstirred session changed fires := by
        intro fire member isBase
        rw [sameArmed]
        exact unstirred fire member isBase
      have isSame : after = cache := by
        have caches := alerted.hosts.caches
        rw [same, firedHosts.caches] at caches
        exact (List.singleton_inj.mp caches).symm
      have now := congrArg World.now same
      have remote := congrArg World.ensemble same
      rw [quiet_now] at now
      rw [quiet_ensemble] at remote
      refine Or.inr ?_
      rw [isSame, now, remote]
      exact (portrays portrayed unstirred).fireEach stillUnstirred

theorem Attends.create (attends : world.Attends cache session action) (valid : path.IsValid)
    (data : Payload) (owner : Int) :
    (world.create path data owner).2.IsAttending cache.options session action := by
  have sound := (attends.sound.create valid data owner).sound
  unfold World.create at sound ⊢
  rcases world.ensemble.create_cases path data owner with ⟨fault, refused⟩ | ⟨absent, _, done⟩
  · rw [change_of_error refused]
    exact ⟨cache, (upheld_attends session action).refuse attends, rfl⟩
  · have base := (attends.hosts.cacheSound attends.sound).base
    exact attends.change done sound rfl rfl rfl (by simp [Ensemble.creationFires])
      fun portrays unstirred => portrays.grown base absent unstirred data owner

theorem Attends.setData (attends : world.Attends cache session action) (valid : path.IsValid)
    (data : Payload) : (world.setData path data).2.IsAttending cache.options session action := by
  have sound := (attends.sound.setData valid data).sound
  unfold World.setData at sound ⊢
  rcases world.ensemble.setData_cases path data with ⟨fault, refused⟩ | ⟨_, done⟩
  · rw [change_of_error refused]
    exact ⟨cache, (upheld_attends session action).refuse attends, rfl⟩
  · exact attends.change done sound rfl rfl rfl (by simp)
      fun portrays unstirred => portrays.rewritten unstirred data

theorem Attends.delete (attends : world.Attends cache session action) (valid : path.IsValid) :
    (world.delete path).2.IsAttending cache.options session action := by
  have sound := (attends.sound.delete valid).sound
  unfold World.delete at sound ⊢
  rcases world.ensemble.delete_cases path with ⟨fault, refused⟩ | ⟨_, _, done⟩
  · rw [change_of_error refused]
    exact ⟨cache, (upheld_attends session action).refuse attends, rfl⟩
  · have base := (attends.hosts.cacheSound attends.sound).base
    exact attends.change done sound rfl rfl rfl (by simp [Ensemble.deletionFires])
      fun portrays unstirred => portrays.pruned base attends.isStored unstirred

end World

end WatchedTree
