import WatchedTree.Proofs.Connection.Tree
import WatchedTree.Proofs.Sweep.Drain

/-!
# A refresh of a whole cache is complete and exact

From any state of the cache, and over any tree that stands still, the refresh fetches what is due
and once, leaves in the cache what is to be kept and no more, tells of every difference once, and
resolves its token.
-/
namespace WatchedTree

open WatchedTree.Path

namespace World

variable {world : World} {id : CacheId} {cache : Cache} {session : SessionId}
  {connection : Connection Ensemble CacheId}

/-- The refresh of a cache as it stands, over the tree as it stands. -/
def sweepOf (world : World) (id : CacheId) (options : CacheOptions) : Sweep :=
  { options, remote := world.ensemble, before := world.cached id }

def errandOf (world : World) (id : CacheId) (session : SessionId) : Errand :=
  { cache := id
    refresh := world.refreshes.length
    channel := world.channels.length
    session
    said := world.journal id }

/-- A world in which a refresh with a token was added, and nothing queued for it yet. -/
def issued (world : World) (id : CacheId) (path : Path)
    (connection : Connection Ensemble CacheId) : World :=
  { world with
    connection
    channels := world.channels ++ [{}]
    refreshes := world.refreshes ++
      [{ cache := id, refresher := { path }, channel := some world.channels.length }] }

theorem refreshAll_eq (found : world.caches[id]? = some cache) (isStarted : cache.phase = .started)
    (acquired : world.connection.acquire world.now = (.ok session, connection)) :
    world.refreshAll id =
      (world.channels.length,
        (world.issued id cache.options.basePath connection).spawn
          ((world.errandOf id session).fetch cache.options.basePath)) := by
  have inScope : ¬ (cache.scope cache.options.basePath).isNone = true := by
    rw [Option.isNone_iff_eq_none]
    exact (world.sweepOf id cache.options).scope_base_ne_none
  have handed : world.acquire = (.ok session, { world with connection }) := by
    rw [World.acquire, acquired]
  unfold refreshAll refresh
  simp only [found, isStarted, if_neg inScope, handed]
  rfl

theorem sound_sweepOf (sound : world.Sound) (found : world.caches[id]? = some cache)
    (stock : cache.options.mode.IsStock) (rooted : world.ensemble.IsRooted) :
    (world.sweepOf id cache.options).Sound where
  base := (sound.caches id cache found).base
  stock := stock
  remote := sound.remote
  rooted := rooted
  before := by
    intro path node cached
    have isCached : cache.store.peek world.now path = some node := by
      rw [← cached_of_found found]
      exact cached
    have fits := (sound.caches id cache found).entries.of_peek isCached
    exact ⟨fits.valid, fits.isPath, fits.stored⟩

theorem awaits_issued (world : World) (id : CacheId) (path : Path)
    (connection : Connection Ensemble CacheId) :
    (world.issued id path connection).Awaits id world.refreshes.length world.channels.length path
      0 where
  refresh := by
    rw [issued, List.getElem?_append_right (Nat.le_refl _), Nat.sub_self]
    rfl
  channel := by
    rw [issued, List.getElem?_append_right (Nat.le_refl _), Nat.sub_self]
    rfl

theorem queue_issued {path : Path} (resting : ∀ task ∈ world.queue, task.isDelivery = true) :
    (world.issued id path connection).quiet.queue = [] := by
  apply List.filter_eq_nil_iff.mpr
  intro task member
  rw [resting task member]
  exact Bool.false_ne_true

/-- A world with a fetch of the base, for a refresh that was issued, is at the first stage. -/
theorem sweeps_opening {after : World} (sound : after.Sound)
    (found : world.caches[id]? = some cache) (isStarted : cache.phase = .started)
    (unbounded : cache.options.eviction = {})
    (resting : ∀ task ∈ world.queue, task.isDelivery = true)
    (atHand : connection.IsAtHand world.now session)
    (sameTree : connection.remote.SameTree world.ensemble)
    (answers : ∀ path, cache.scope path ≠ none → connection.remote.Answers session path)
    (quiet : after.quiet = (world.issued id cache.options.basePath connection).quiet.enqueue
      [.fetch ((world.errandOf id session).fetch cache.options.basePath)])
    (adds : after.Adds (world.issued id cache.options.basePath connection) id
      world.refreshes.length [] 1) :
    after.Sweeps (world.errandOf id session) (world.sweepOf id cache.options)
      (world.sweepOf id cache.options).opening := by
  have now : after.now = world.now := by
    rw [← quiet_now, quiet]
    rfl
  have held : after.connection = connection := by
    rw [← quiet_connection, quiet]
    rfl
  have place : (world.issued id cache.options.basePath connection).caches[id]? = some cache := found
  have quietFound : after.quiet.caches[id]? = some cache.quiet := by
    rw [quiet]
    exact quiet_found place
  obtain ⟨other, otherFound, isOther⟩ := exists_of_quiet quietFound
  exact
    { sound := sound
      unbounded := unbounded
      found := by
        refine ⟨other, otherFound, ?_, ?_, ?_⟩
        · exact Cache.options_of_quiet isOther
        · exact (Cache.phase_of_quiet isOther).trans isStarted
        · intro key
          rw [Cache.store_of_quiet isOther, now]
          exact cached_of_found found key
      queue := by
        rw [quiet]
        change (world.issued id cache.options.basePath connection).quiet.queue ++ _ = _
        rw [queue_issued resting]
        rfl
      connection := by
        rw [held, now]
        exact atHand
      tree := by
        rw [ensemble, held]
        exact sameTree.1
      answers := by
        rw [ensemble, held]
        exact answers
      journal := by
        rw [Sweep.opening, if_neg (List.cons_ne_nil _ _), List.append_nil, List.append_nil]
        exact adds.journal.trans (List.append_nil _)
      awaits := fun _ => (awaits_issued world id cache.options.basePath connection).adds adds
      resolved := fun none => absurd none (List.cons_ne_nil _ _) }

/-- A refresh of a whole cache begins with the first stage. -/
theorem sweeps_refreshAll (sound : world.Sound) (found : world.caches[id]? = some cache)
    (isStarted : cache.phase = .started) (unbounded : cache.options.eviction = {})
    (resting : ∀ task ∈ world.queue, task.isDelivery = true)
    (acquired : world.connection.acquire world.now = (.ok session, connection))
    (lasting : connection.acquire world.now = (.ok session, connection))
    (answers : ∀ path, cache.scope path ≠ none → connection.remote.Answers session path) :
    (world.refreshAll id).2.Sweeps (world.errandOf id session) (world.sweepOf id cache.options)
      (world.sweepOf id cache.options).opening := by
  have still := (sound.refreshAll id).sound
  have atHand := Connection.isAtHand_of_acquire lasting
  have sameTree := Connection.sameTree_acquire world.connection world.now
  have place : (world.issued id cache.options.basePath connection).caches[id]? = some cache := found
  have quiet := quiet_spawn (world.issued id cache.options.basePath connection)
    ((world.errandOf id session).fetch cache.options.basePath)
  rw [acquired] at sameTree
  rw [refreshAll_eq found isStarted acquired] at still ⊢
  exact sweeps_opening still found isStarted unbounded resting atHand sameTree answers
    (quiet.trans (if_pos (accepts_of_started place isStarted))) (adds_spawn place isStarted)

/-- What a refresh of a whole cache comes to, by the fetches that were run for it. -/
structure Completes (world before : World) (id : CacheId) (token : ChannelId) (sweep : Sweep)
    (fetches : List Fetch) : Prop where
  idle : world.isIdle = true
  own : ∀ fetch ∈ fetches, fetch.cache = id
  once : (fetches.map Fetch.path).Nodup
  fetched : ∀ path, path ∈ fetches.map Fetch.path ↔ sweep.IsDue path
  cached : ∀ path, world.cached id path = sweep.target path
  token : (world.readToken token).1 = some (.ok ())
  told : ∃ told, world.journal id = before.journal id ++ told ++ sweep.closing ∧
    ∀ path, CacheEvent.about told path = sweep.news path

/-- A sweep that was carried out has fetched, kept and told what it should. -/
theorem Sweeps.completes {errand : Errand} {sweep : Sweep} {last : Sweep.Stage}
    (sweeps : world.Sweeps errand sweep last) (admits : sweep.Admits last) (sound : sweep.Sound)
    (idle : world.isIdle = true) {before : World}
    (said : errand.said = before.journal errand.cache) :
    world.Completes before errand.cache errand.channel sweep
      (last.visited.map errand.fetch) := by
  have done : last.pending = [] := by
    have queue : world.queue = [] := List.isEmpty_iff.mp (Bool.and_eq_true_iff.mp idle).1
    have nothing := sweeps.queue
    rw [World.quiet, queue] at nothing
    exact List.map_eq_nil_iff.mp nothing.symm
  have paths : (last.visited.map errand.fetch).map Fetch.path = last.visited := by
    rw [List.map_map]
    exact List.map_id _
  obtain ⟨cache, found, _, _, isCached⟩ := sweeps.found
  refine
    { idle := idle
      own := ?_
      once := by
        rw [paths]
        exact admits.once
      fetched := by
        intro path
        rw [paths]
        exact admits.mem_visited_of_done done
      cached := ?_
      token := by
        rw [readToken, sweeps.resolved done]
        rfl
      told := ?_ }
  · intro fetch member
    obtain ⟨path, _, rfl⟩ := List.mem_map.mp member
    rfl
  · intro path
    rw [cached_of_found found, ← isCached]
    by_cases valid : path.IsValid
    · exact (admits.settled_of_done done valid).1
    · rw [(sound.nothing_of_invalid valid).2, isCached]
      cases peeked : cache.store.peek world.now path with
      | none => rfl
      | some node =>
          have fits := (sweeps.sound.caches errand.cache cache found).entries.of_peek peeked
          exact absurd fits.valid valid
  · refine ⟨last.told, ?_, ?_⟩
    · have journal := sweeps.journal
      rw [if_pos done, said] at journal
      exact journal
    · intro path
      by_cases valid : path.IsValid
      · exact (admits.settled_of_done done valid).2
      · obtain ⟨uncached, unwanted⟩ := sound.nothing_of_invalid valid
        rw [Sweep.news_of_not_cached uncached unwanted]
        exact CacheEvent.about_of_invalid admits.valid valid

/-- Once the handle is there and the reads are answered, the refresh of a cache over a tree that
stands still comes to its end, whatever state the cache was in: it fetches every path that is due
once and no other, leaves of the tree what is to be kept, tells of every difference once, and
resolves its token. -/
theorem refreshAll_completes (config : ConnectionConfig) {commands : List Command}
    (valid : ∀ command ∈ commands, command.IsValid)
    (found : ((ofConfig config).obeyAll commands).caches[id]? = some cache)
    (isStarted : cache.phase = .started) (stock : cache.options.mode.IsStock)
    (unbounded : cache.options.eviction = {})
    (resting : ∀ task ∈ ((ofConfig config).obeyAll commands).queue, task.isDelivery = true)
    (acquired : ((ofConfig config).obeyAll commands).connection.acquire
      ((ofConfig config).obeyAll commands).now = (.ok session, connection))
    (lasting : connection.acquire ((ofConfig config).obeyAll commands).now =
      (.ok session, connection))
    (answers : ∀ path, cache.scope path ≠ none → connection.remote.Answers session path)
    (rooted : ((ofConfig config).obeyAll commands).ensemble.IsRooted) :
    let world := (ofConfig config).obeyAll commands
    let refreshing := (world.refreshAll id).2
    ∃ count, (rounds count refreshing).Completes world id (world.refreshAll id).1
      (world.sweepOf id cache.options) (fetchedIn count refreshing) := by
  intro world refreshing
  have sound : world.Sound := sound_of_reached config valid
  have isSweep := sound_sweepOf sound found stock rooted
  have opened := sweeps_refreshAll sound found isStarted unbounded resting acquired lasting answers
  obtain ⟨count, last, idle, settled⟩ := opened.settles isSweep (Sweep.admits_opening isSweep)
  have token : (world.refreshAll id).1 = world.channels.length := by
    rw [refreshAll_eq found isStarted acquired]
  have completes : (rounds count refreshing).Completes world id world.channels.length
      (world.sweepOf id cache.options)
      (last.visited.map (world.errandOf id session).fetch) :=
    settled.sweeps.completes settled.admits isSweep idle rfl
  rw [settled.visited] at completes
  refine ⟨count, ?_⟩
  rw [token]
  exact completes

/-- The session expires and cannot be replaced. Meanwhile a cached child is deleted, and another one
is created; no watch tells of it. The refresh opens a session and makes up for both. -/
theorem refreshAll_completes_of_expired :
    let base : Path := ['/', 'a']
    let commands : List Command :=
      [.startConnection, .announce .syncConnected, .create base [] 0, .create (base.child ['b']) [1] 0,
        .build base [], .start 0, .step, .step, .refuseSessions true, .expireSessions,
        .delete (base.child ['b']), .create (base.child ['c']) [2] 0, .refuseSessions false,
        .pollFailure]
    let world := (ofConfig defaultConfig).obeyAll commands
    let refreshing := (world.refreshAll 0).2
    ∃ options count, (rounds count refreshing).Completes world 0 (world.refreshAll 0).1
      (world.sweepOf 0 options) (fetchedIn count refreshing) ∧
        world.connection.session = none ∧
        (world.cached 0 (base.child ['b'])).isSome = true ∧
        (rounds count refreshing).cached 0 (base.child ['b']) = none ∧
        world.cached 0 (base.child ['c']) = none ∧
        ((rounds count refreshing).cached 0 (base.child ['c'])).isSome = true := by
  intro base commands world refreshing
  have valid : ∀ command ∈ commands, command.IsValid := by decide
  have isThere : world.caches[0]?.isSome = true := by decide +kernel
  obtain ⟨cache, found⟩ := Option.isSome_iff_exists.mp isThere
  have isStarted : world.caches[0]?.map Cache.phase = some .started := by decide +kernel
  have isStock : world.caches[0]?.map (fun cache => decide cache.options.mode.IsStock) =
      some true := by decide +kernel
  have unbounded : world.caches[0]?.map (fun cache => cache.options.eviction) =
      some { maxEntries := none } := by decide +kernel
  have gone : world.caches[0]?.map (fun cache =>
      (world.sweepOf 0 cache.options).target (base.child ['b'])) = some none := by decide +kernel
  have isKept : world.caches[0]?.map (fun cache =>
      ((world.sweepOf 0 cache.options).target (base.child ['c'])).isSome) = some true := by
    decide +kernel
  rw [found, Option.map_some, Option.some_inj] at isStarted isStock unbounded gone isKept
  have resting : ∀ task ∈ world.queue, task.isDelivery = true := by decide +kernel
  have handed : (world.connection.acquire world.now).1 = .ok 2 := by decide +kernel
  have positive : world.connection.config.connectionTimeoutMillis ≠ 0 := by decide +kernel
  have acquired : world.connection.acquire world.now =
      (.ok 2, (world.connection.acquire world.now).2) := by
    rw [← handed]
  have healthy : (world.connection.acquire world.now).2.remote.failing = [] := by decide +kernel
  have unheld : (world.connection.acquire world.now).2.remote.heldReads = [] := by decide +kernel
  have isOpen : ((world.connection.acquire world.now).2.remote.session? 2).map
      RemoteSession.closed = some false := by decide +kernel
  have answers := Ensemble.answers_of_free isOpen healthy unheld
  have rooted : world.ensemble.IsRooted := by
    unfold Ensemble.IsRooted
    decide +kernel
  obtain ⟨count, completes⟩ := refreshAll_completes defaultConfig valid found isStarted
    (of_decide_eq_true isStock) unbounded resting acquired
    (Connection.acquire_of_acquire acquired positive) (fun path _ => answers path) rooted
  refine ⟨cache.options, count, completes, ?_, ?_, ?_, ?_, ?_⟩
  · decide +kernel
  · decide +kernel
  · rw [completes.cached, gone]
  · decide +kernel
  · rw [completes.cached, isKept]

end World

end WatchedTree
