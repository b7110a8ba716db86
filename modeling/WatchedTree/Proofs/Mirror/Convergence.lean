import WatchedTree.Proofs.Mirror.Following

/-!
# A steady world converges

Whatever is changed below the root, refreshed or run, and in whatever order: once no fetch is queued
the cache holds the nodes below its base, each with its present stat and payload, and nothing else.
-/
namespace WatchedTree

open WatchedTree.Path

namespace Command

/-- A change of the tree below the root. -/
def IsChange : Command → Prop
  | .create path _ _ | .setData path _ | .delete path => path.IsValid ∧ path ≠ root
  | _ => False

/-- What may go on around a steady cache: changes, refreshes, tasks, time, and what concerns those
who read and listen. -/
def IsSteady : Command → Prop
  | .create path _ _ | .setData path _ | .delete path => path.IsValid ∧ path ≠ root
  | .refresh _ path => path.IsValid
  | .refreshAll _ | .step | .round | .advance _ | .readToken _ | .cancelToken _ | .listen _ _
  | .unlisten _ _ | .onError _ _ | .offError _ _ | .get _ _ => True
  | _ => False

instance : DecidablePred IsChange := fun command =>
  match command with
  | .create path _ _ | .setData path _ | .delete path =>
      inferInstanceAs (Decidable (path.IsValid ∧ path ≠ root))
  | .replaceSilently _ _ | .failReads _ | .healReads _ | .refuseSessions _ | .announce _
  | .expireSessions | .hold _ | .release _ | .step | .round | .advance _ | .occur _
  | .startConnection | .acquire | .closeConnection | .pollFailure | .readCounters | .build _ _
  | .start _ | .closeCache _ | .refresh _ _ | .refreshAll _ | .readToken _ | .cancelToken _
  | .listen _ _ | .unlisten _ _ | .onError _ _ | .offError _ _ | .get _ _ | .clear _ _
  | .clearAll _ | .clearDataIf _ _ _ => isFalse id

instance : DecidablePred IsSteady := fun command =>
  match command with
  | .create path _ _ | .setData path _ | .delete path =>
      inferInstanceAs (Decidable (path.IsValid ∧ path ≠ root))
  | .refresh _ path => inferInstanceAs (Decidable path.IsValid)
  | .refreshAll _ | .step | .round | .advance _ | .readToken _ | .cancelToken _ | .listen _ _
  | .unlisten _ _ | .onError _ _ | .offError _ _ | .get _ _ => isTrue trivial
  | .replaceSilently _ _ | .failReads _ | .healReads _ | .refuseSessions _ | .announce _
  | .expireSessions | .hold _ | .release _ | .occur _ | .startConnection | .acquire
  | .closeConnection | .pollFailure | .readCounters | .build _ _ | .start _ | .closeCache _
  | .clear _ _ | .clearAll _ | .clearDataIf _ _ _ => isFalse id

theorem IsSteady.isChange_or_isCalm {command : Command} (steady : command.IsSteady) :
    command.IsChange ∨ command.IsCalm := by
  cases command with
  | create | setData | delete => exact Or.inl steady
  | _ => exact Or.inr steady

end Command

namespace World

variable {world : World} {cache : Cache} {session : SessionId} {options : CacheOptions}

/-! ## Runs -/

theorem Mirrors.obey (mirrors : world.Mirrors cache session) {command : Command}
    (steady : command.IsSteady) : (world.obey command).IsMirroring cache.options session := by
  rcases steady.isChange_or_isCalm with isChange | calm
  · cases command with
    | create path data owner => exact mirrors.create isChange.1 data owner
    | setData path data => exact mirrors.setData isChange.1 data
    | delete path => exact mirrors.delete isChange.1 isChange.2
    | _ => exact isChange.elim
  · exact (upheld_mirrors session).obey mirrors calm

theorem IsMirroring.obeyAll (mirroring : world.IsMirroring options session)
    {commands : List Command} (steady : ∀ command ∈ commands, command.IsSteady) :
    (world.obeyAll commands).IsMirroring options session := by
  induction commands generalizing world with
  | nil => exact mirroring
  | cons command others inductionHypothesis =>
      obtain ⟨cache, mirrors, rfl⟩ := mirroring
      have first := mirrors.obey (steady command List.mem_cons_self)
      exact inductionHypothesis first fun other member =>
        steady other (List.mem_cons_of_mem command member)

end World

/-! ## Before the start -/

namespace Ensemble

/-- A tree that one session is open to, and that nobody has read yet. -/
structure IsUnread (ensemble : Ensemble) : Prop where
  sound : ensemble.Sound
  rooted : ensemble.IsRooted
  sessions : ensemble.sessions = [{ id := 1, handler := 1 }]
  healthy : ensemble.failing = []
  unheld : ensemble.heldReads = []

variable {ensemble : Ensemble} {path : Path}

/-- Without watches nobody is told. -/
theorem fireEach_of_unread (sessions : ensemble.sessions = [{ id := 1, handler := 1 }])
    (fires : List (WatchKind × EventKind × Path)) : fireEach fires ensemble = ([], ensemble) := by
  have asleep : ∀ watch path, ({ id := 1, handler := 1 } : RemoteSession).isWatching watch path =
      false := by
    intro watch path
    cases watch <;> rfl
  induction fires with
  | nil => rfl
  | cons fire others inductionHypothesis =>
      obtain ⟨watch, kind, path⟩ := fire
      have fired : ensemble.fire watch kind path = ([], ensemble) := by
        unfold fire
        simp only [sessions, List.filter_cons, asleep, List.map_cons, List.map_nil,
          List.filter_nil, Bool.false_eq_true, if_false]
        rw [← sessions]
      rw [fireEach, fired]
      simp only [inductionHypothesis, List.nil_append]

theorem IsUnread.nextTransaction (unread : ensemble.IsUnread) :
    ensemble.nextTransaction.IsUnread :=
  ⟨unread.sound.nextTransaction.sound, unread.rooted, unread.sessions, unread.healthy,
    unread.unheld⟩

end Ensemble

namespace World

variable {config : ConnectionConfig} {options : CacheOptions} {remote : Ensemble} {path : Path}

/-- A connected world with one cache that has not started. -/
def prepared (config : ConnectionConfig) (options : CacheOptions) (remote : Ensemble) : World :=
  { connection :=
      { remote, config
        watcher := { status := { state := .connected } }
        session := some 1
        generation := 1 }
    caches := [Cache.ofOptions options] }

theorem obeyAll_opening {base : Path} {calls : List BuilderCall}
    (built : (CacheBuilder.applyAll base calls).build = .ok options) :
    (ofConfig config).obeyAll [.startConnection, .announce .syncConnected, .build base calls] =
      prepared config options { sessions := [{ id := 1, handler := 1 }] } := by
  have connected : ((ofConfig config).obey .startConnection).obey (.announce .syncConnected) =
      { connection :=
          { remote := { sessions := [{ id := 1, handler := 1 }] }, config
            watcher := { status := { state := .connected } }
            session := some 1
            generation := 1 } } := rfl
  simp only [obeyAll_cons, obeyAll_nil, connected]
  simp [obey, World.build, built, prepared]

theorem isUnread_opening :
    ({ sessions := [{ id := 1, handler := 1 }] } : Ensemble).IsUnread where
  sound := (sound_ofConfig defaultConfig).remote.of_eq rfl rfl
  rooted := by
    intro path member notRoot
    exact absurd (List.mem_singleton.mp member) notRoot
  sessions := rfl
  healthy := rfl
  unheld := rfl

/-- A change before the start is heard by nobody, and keeps what every such change keeps. -/
theorem change_prepared {Holds : Ensemble → Prop}
    (sessions : ∀ ensemble, Holds ensemble → ensemble.sessions = [{ id := 1, handler := 1 }])
    (next : Holds remote.nextTransaction)
    {attempt : Ensemble → Except TransportFault (List Delivery) × Ensemble}
    (outcome : (∃ fault, attempt remote = (.error fault, remote.nextTransaction)) ∨
      ∃ (changed : Ensemble) (fires : List (WatchKind × EventKind × Path)), Holds changed ∧
        attempt remote = (.ok (Ensemble.fireEach fires changed).1,
          (Ensemble.fireEach fires changed).2)) :
    ∃ after : Ensemble, Holds after ∧
      ((prepared config options remote).change attempt).2 = prepared config options after := by
  have ensemble : (prepared config options remote).ensemble = remote := rfl
  rcases outcome with ⟨fault, refused⟩ | ⟨changed, fires, changedHolds, done⟩
  · refine ⟨remote.nextTransaction, next, ?_⟩
    rw [← ensemble] at refused
    rw [change_of_error refused]
    rfl
  · refine ⟨changed, changedHolds, ?_⟩
    rw [Ensemble.fireEach_of_unread (sessions changed changedHolds), ← ensemble] at done
    rw [change_of_ok done]
    rfl

theorem obey_prepared (config : ConnectionConfig) (options : CacheOptions)
    (unread : remote.IsUnread) {command : Command}
    (isChange : command.IsChange) :
    ∃ after : Ensemble, after.IsUnread ∧
      (prepared config options remote).obey command = prepared config options after := by
  cases command with
  | create path data owner =>
      apply change_prepared (fun _ holds => holds.sessions) unread.nextTransaction
      rcases remote.create_cases path data owner with refused | ⟨_, parent, done⟩
      · exact Or.inl refused
      · have held : path.parent ∈ remote.nodes.keys := Table.contains_iff.mp parent
        have grown := unread.sound.grown isChange.1 data owner
        exact Or.inr ⟨_, _, ⟨grown.sound, unread.rooted.grown held data owner, unread.sessions,
          unread.healthy, unread.unheld⟩, done⟩
  | setData path data =>
      apply change_prepared (fun _ holds => holds.sessions) unread.nextTransaction
      rcases remote.setData_cases path data with refused | ⟨_, done⟩
      · exact Or.inl refused
      · have rewritten := unread.sound.rewritten path data
        exact Or.inr ⟨_, _, ⟨rewritten.sound, unread.rooted.rewritten data, unread.sessions,
          unread.healthy, unread.unheld⟩, done⟩
  | delete path =>
      apply change_prepared (fun _ holds => holds.sessions) unread.nextTransaction
      rcases remote.delete_cases path with refused | ⟨bare, _, done⟩
      · exact Or.inl refused
      · have pruned := unread.sound.pruned path
        have nothingBelow : ∀ key ∈ remote.nodes.keys, isBelow path key = false := by
          intro key member
          rw [← isPrefixOf_append_slash isChange.2 isChange.1]
          exact bare key member
        exact Or.inr ⟨_, _, ⟨pruned.sound,
          unread.rooted.pruned unread.sound isChange.1 nothingBelow, unread.sessions,
          unread.healthy, unread.unheld⟩, done⟩
  | _ => exact isChange.elim

theorem obeyAll_prepared (config : ConnectionConfig) (options : CacheOptions)
    (unread : remote.IsUnread) {commands : List Command}
    (changes : ∀ command ∈ commands, command.IsChange) :
    ∃ after : Ensemble, after.IsUnread ∧
      (prepared config options remote).obeyAll commands = prepared config options after := by
  induction commands generalizing remote with
  | nil => exact ⟨remote, unread, rfl⟩
  | cons command others inductionHypothesis =>
      obtain ⟨middle, middleUnread, first⟩ :=
        obey_prepared config options unread (changes command List.mem_cons_self)
      obtain ⟨after, afterUnread, rest⟩ := inductionHypothesis middleUnread fun other member =>
        changes other (List.mem_cons_of_mem command member)
      exact ⟨after, afterUnread, by rw [obeyAll_cons, first, rest]⟩

theorem sound_prepared (config : ConnectionConfig) (sound : remote.Sound)
    (valid : options.basePath.IsValid) : (prepared config options remote).Sound where
  remote := sound
  caches := by
    intro id cache found
    rw [List.mem_singleton.mp (List.mem_of_getElem? found)]
    exact Cache.sound_ofOptions valid
  fetches := by simp [prepared]
  resumes := by simp [prepared]
  held := by simp [prepared]
  deferred := by simp [prepared]

/-- The cache as it starts on a connected session. -/
def startedCache (options : CacheOptions) : Cache :=
  { Cache.ofOptions options with phase := .started, connected := true, registration := some 1 }

/-- The prepared world with the cache started, before it refreshes its base. -/
def startedWorld (config : ConnectionConfig) (options : CacheOptions) (remote : Ensemble) : World :=
  { connection :=
      { (prepared config options remote).connection with
        listeners := { entries := [(1, 0)], next := 2 } }
    caches := [startedCache options] }

/-- A cache that is to refresh on its start refreshes its base. -/
theorem obey_start_prepared (config : ConnectionConfig) (remote : Ensemble)
    (onStart : options.refreshOnStart = true) :
    (prepared config options remote).obey (.start 0) =
      ((startedWorld config options remote).refresh 0 options.basePath).2 := by
  have start : (prepared config options remote).obey (.start 0) =
      (if options.refreshOnStart then (startedWorld config options remote).refreshAll 0
        else (startedWorld config options remote).settledToken (.ok ())).2 := rfl
  rw [start, if_pos onStart]
  rfl

/-- The fetch that a cache starts with. -/
def firstFetch (options : CacheOptions) : Fetch :=
  { cache := 0, refresh := 0, path := options.basePath, full := true }

section Start

variable (config : ConnectionConfig) (sessions : remote.sessions = [{ id := 1, handler := 1 }])
  (healthy : remote.failing = []) (unheld : remote.heldReads = [])
  (unbounded : options.eviction = {})

include sessions healthy unheld unbounded

theorem hosts_startedWorld :
    (startedWorld config options remote).quiet.Hosts (startedCache options) 1 where
  caches := rfl
  isStarted := rfl
  unbounded := unbounded
  connection := ⟨rfl, rfl, rfl⟩
  unobserved := rfl
  listeners := rfl
  single := ⟨_, sessions, rfl, rfl, rfl⟩
  healthy := healthy
  unheld := unheld
  fetches := fun _ member => by cases member

/-- Once it has started, the cache is about to fetch its base. -/
theorem quiet_start_prepared (onStart : options.refreshOnStart = true)
    (inScope : (startedCache options).scope options.basePath ≠ none) :
    ((prepared config options remote).obey (.start 0)).quiet =
        (startedWorld config options remote).quiet.enqueue ([firstFetch options].map Task.fetch) ∧
      ((prepared config options remote).obey (.start 0)).quiet.Hosts (startedCache options) 1 := by
  have hosts := hosts_startedWorld config sessions healthy unheld unbounded
  have queued : ((prepared config options remote).obey (.start 0)).quiet =
      (startedWorld config options remote).quiet.enqueue ([firstFetch options].map Task.fetch) := by
    rw [obey_start_prepared config remote onStart, hosts.quiet_refresh,
      if_pos ⟨rfl, Option.isSome_iff_ne_none.mpr inScope⟩]
    rfl
  refine ⟨queued, queued ▸ hosts.enqueue ?_⟩
  intro fetch member
  rw [List.mem_singleton.mp member]
  rfl

end Start

/-- A cache that has just started has nothing to miss but what it is about to fetch. -/
theorem isMirroring_start (config : ConnectionConfig) (unread : remote.IsUnread)
    (valid : options.basePath.IsValid)
    (mode : options.mode = .subtree (.uniform .statAndData)) (unbounded : options.eviction = {})
    (onStart : options.refreshOnStart = true) :
    ((prepared config options remote).obey (.start 0)).IsMirroring options 1 := by
  have sound : ((prepared config options remote).obey (.start 0)).Sound :=
    ((sound_prepared config unread.sound valid).start 0).sound
  have inScope : (startedCache options).scope options.basePath ≠ none := by
    have before :=
      hosts_startedWorld config unread.sessions unread.healthy unread.unheld unbounded
    exact fun outside => (before.serves mode).scope_eq_none_iff.mp outside (covers_refl _)
  obtain ⟨queued, hosts⟩ := quiet_start_prepared config unread.sessions unread.healthy
    unread.unheld unbounded onStart inScope
  have asleep : ∀ kind path, remote.isArmed 1 kind path = false := by
    intro kind path
    unfold Ensemble.isArmed Ensemble.session?
    rw [unread.sessions]
    cases kind <;> rfl
  refine ⟨startedCache options, ⟨hosts.serves mode, sound, ?_⟩, rfl⟩
  rw [queued]
  have pending : (((startedWorld config options remote).quiet.enqueue
      ([firstFetch options].map Task.fetch)).mirror (startedCache options) 1).pending
        options.basePath :=
    ⟨firstFetch options, List.mem_append_right _ (List.mem_singleton.mpr rfl), rfl⟩
  exact
    { base := valid
      remote := unread.sound
      rooted := unread.rooted
      attended := by
        intro path
        by_cases isBase : path = options.basePath
        · exact Or.inl (Or.inr (Or.inl (isBase ▸ pending)))
        · refine Or.inr ⟨isBase, rfl, ?_⟩
          intro current
          have listed : remote.isArmed 1 .child path.parent = true := current.listed
          rw [asleep] at listed
          cases listed
      awaited := fun _ => Or.inl pending
      watched := by
        intro path armed
        have isArmed : remote.isArmed 1 .child path = true := armed
        rw [asleep] at isArmed
        cases isArmed }

/-! ## Convergence -/

/-- A run that connects, builds a cache over a tree that was changed before, and starts it. -/
def opening (base : Path) (calls : List BuilderCall) (before : List Command) : List Command :=
  [.startConnection, .announce .syncConnected, .build base calls] ++ before ++ [.start 0]

theorem isMirroring_opening (config : ConnectionConfig) {base : Path} {calls : List BuilderCall}
    (built : (CacheBuilder.applyAll base calls).build = .ok options)
    (mode : options.mode = .subtree (.uniform .statAndData)) (unbounded : options.eviction = {})
    (onStart : options.refreshOnStart = true) {before : List Command}
    (changes : ∀ command ∈ before, command.IsChange) :
    ((ofConfig config).obeyAll (opening base calls before)).IsMirroring options 1 := by
  obtain ⟨isBase, baseValid⟩ := basePath_of_build built
  have valid : options.basePath.IsValid := isBase ▸ baseValid
  obtain ⟨remote, unread, changed⟩ := obeyAll_prepared config options isUnread_opening changes
  rw [opening, obeyAll_append, obeyAll_append, obeyAll_opening built, changed]
  exact isMirroring_start config unread valid mode unbounded onStart

/-- The nodes below a base, as a cache of payloads and stats holds them. -/
def imageBelow (world : World) (base : Path) : List (Path × Node) :=
  (world.ensemble.nodes.filter fun pair => isBelow base pair.1).map fun pair =>
    (pair.1, Mirror.imageOf pair.1 pair.2)

theorem Mirrors.peek_of_drained {world : World} {cache : Cache} {session : SessionId}
    (mirrors : world.Mirrors cache session) (drained : ∀ fetch, .fetch fetch ∉ world.queue)
    (path : Path) :
    cache.store.peek world.now path =
      if isBelow cache.options.basePath path = true then
        (world.ensemble.nodes.get? path).map (Mirror.imageOf path)
      else none := by
  refine mirrors.tracks.shown_of_idle ?_ ?_ path
  · rintro key ⟨fetch, member, _⟩
    exact drained fetch (List.mem_filter.mp member).1
  · exact fun key isShown => mirrors.isBelow_of_shown isShown

theorem Mirrors.perm_of_drained {world : World} {cache : Cache} {session : SessionId}
    (mirrors : world.Mirrors cache session) (drained : ∀ fetch, .fetch fetch ∉ world.queue) :
    (cache.store.liveNodes world.now).Perm (world.imageBelow cache.options.basePath) := by
  have cached := (mirrors.serves.hosts.cacheSound mirrors.sound).entries.distinct
  have remote := mirrors.sound.remote.distinct
  have leftNodup : (cache.store.liveNodes world.now).Nodup :=
    List.Nodup.of_map Prod.fst (Store.distinct_liveNodes cached world.now)
  have rightNodup : (world.imageBelow cache.options.basePath).Nodup := by
    apply List.Nodup.of_map Prod.fst
    have kept := remote.filter fun pair => isBelow cache.options.basePath pair.1
    rw [imageBelow, List.map_map]
    exact kept
  rw [List.perm_ext_iff_of_nodup leftNodup rightNodup]
  rintro ⟨path, node⟩
  rw [Store.mem_liveNodes_iff cached, mirrors.peek_of_drained drained, imageBelow, List.mem_map]
  constructor
  · intro held
    split at held
    next below =>
      obtain ⟨found, present, rfl⟩ := Option.map_eq_some_iff.mp held
      exact ⟨(path, found), List.mem_filter.mpr
        ⟨(Table.mem_iff_get? remote).mpr present, below⟩, rfl⟩
    next => cases held
  · rintro ⟨⟨key, found⟩, member, same⟩
    cases same
    obtain ⟨inTree, below⟩ := List.mem_filter.mp member
    rw [if_pos below, (Table.mem_iff_get? remote).mp inTree]
    rfl

/-- Whenever no fetch is queued, the cache holds exactly the nodes below its base, each with the
present stat and payload; the base itself is never held. -/
theorem cached_perm_remote_of_drained (config : ConnectionConfig) {base : Path}
    {calls : List BuilderCall} {options : CacheOptions}
    (built : (CacheBuilder.applyAll base calls).build = .ok options)
    (mode : options.mode = .subtree (.uniform .statAndData)) (unbounded : options.eviction = {})
    (onStart : options.refreshOnStart = true) {before after : List Command}
    (changes : ∀ command ∈ before, command.IsChange)
    (steady : ∀ command ∈ after, command.IsSteady)
    (drained : ∀ fetch, .fetch fetch ∉
      ((ofConfig config).obeyAll (opening base calls before ++ after)).queue) :
    let world := (ofConfig config).obeyAll (opening base calls before ++ after)
    ∃ cache, world.caches = [cache] ∧
      (cache.store.liveNodes world.now).Perm (world.imageBelow base) ∧
        (∀ path, cache.store.peek world.now path =
          if isBelow base path = true then
            (world.ensemble.nodes.get? path).map (Mirror.imageOf path)
          else none) ∧
        cache.store.contains world.now base = false := by
  intro world
  have isBase := (basePath_of_build built).1
  have mirroring : world.IsMirroring options 1 := by
    have opened := isMirroring_opening config built mode unbounded onStart changes
    have kept := opened.obeyAll steady
    rw [← obeyAll_append] at kept
    exact kept
  obtain ⟨cache, mirrors, isOptions⟩ := mirroring
  have sameBase : cache.options.basePath = base := by rw [isOptions, isBase]
  have only := mirrors.serves.caches
  obtain ⟨other, isOnly, rfl⟩ : ∃ other, world.caches = [other] ∧ other.quiet = cache :=
    List.map_eq_singleton_iff.mp only
  have perm := mirrors.perm_of_drained drained
  have peek := mirrors.peek_of_drained drained
  rw [sameBase] at perm peek
  refine ⟨other, isOnly, perm, peek, ?_⟩
  have baseUnseen := peek base
  rw [if_neg (by simp [isBelow_irrefl])] at baseUnseen
  rw [Store.contains]
  exact Option.isSome_eq_false_iff.mpr (Option.isNone_iff_eq_none.mpr baseUnseen)

/-- The base is deleted and created again, with a child, while its fetches are still queued. -/
theorem cached_perm_remote_of_regrown :
    let before : List Command := [.create ['/', 'a'] [] 0]
    let after : List Command :=
      [.step, .create ['/', 'a', '/', 'b'] [7] 0, .setData ['/', 'a', '/', 'b'] [8],
        .delete ['/', 'a', '/', 'b'], .delete ['/', 'a'], .create ['/', 'a'] [] 0,
        .create ['/', 'a', '/', 'b'] [9] 3, .refresh 0 ['/', 'a', '/', 'b'], .step, .step, .step,
        .step, .step]
    let world := (ofConfig defaultConfig).obeyAll (opening ['/', 'a'] [] before ++ after)
    (∀ command ∈ after, command.IsSteady) ∧ (∀ fetch, .fetch fetch ∉ world.queue) ∧
      ∃ cache, world.caches = [cache] ∧
        (cache.store.liveNodes world.now).Perm (world.imageBelow ['/', 'a']) := by
  intro before after world
  have changes : ∀ command ∈ before, command.IsChange := by decide
  have steady : ∀ command ∈ after, command.IsSteady := by decide
  have empty : world.queue = [] := rfl
  have drained : ∀ fetch, .fetch fetch ∉ world.queue := by
    intro fetch
    rw [empty]
    exact List.not_mem_nil
  obtain ⟨cache, isOnly, perm, _⟩ :=
    cached_perm_remote_of_drained defaultConfig rfl rfl rfl rfl changes steady drained
  exact ⟨steady, drained, cache, isOnly, perm⟩

end World

end WatchedTree
