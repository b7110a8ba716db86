import WatchedTree.Proofs.Mirror.SingleNode

/-!
# The mirror of a single node converges

Whatever is changed at any path, refreshed or run, and in whatever order: once no fetch is queued
the cache holds the node at its base as its action keeps it, and nothing else.
-/
namespace WatchedTree

open WatchedTree.Path

namespace Command

/-- Holds of the changes of the tree. -/
def isEdit : Command → Bool
  | create _ _ _ | setData _ _ | delete _ => true
  | _ => false

/-- Holds of what may go on around a cache of one node: changes, refreshes, tasks, time, and what
concerns those who read and listen. -/
def isGentle : Command → Bool
  | create _ _ _ | setData _ _ | delete _ | refresh _ _ | refreshAll _ | step | round | advance _
  | readToken _ | cancelToken _ | listen _ _ | unlisten _ _ | onError _ _ | offError _ _
  | get _ _ => true
  | _ => false

theorem isEdit_or_isCalm {command : Command} (gentle : command.isGentle = true)
    (valid : command.IsValid) : command.isEdit = true ∨ command.IsCalm := by
  cases command with
  | create | setData | delete => exact Or.inl rfl
  | refresh id path => exact Or.inr (valid path rfl)
  | refreshAll | step | round | advance | readToken | cancelToken | listen | unlisten | onError
  | offError | get => exact Or.inr trivial
  | _ => cases gentle

end Command

/-! ## Before the start -/

/-- A tree in good order that one session is open to, and that nobody has read yet. -/
structure Ensemble.IsUnseen (ensemble : Ensemble) : Prop where
  sound : ensemble.Sound
  sessions : ensemble.sessions = [{ id := 1, handler := 1 }]
  healthy : ensemble.failing = []
  unheld : ensemble.heldReads = []

namespace World

variable {world : World} {session : SessionId} {action : Action} {options : CacheOptions}
  {config : ConnectionConfig} {remote : Ensemble}

theorem obey_prepared_of_edit (config : ConnectionConfig) (options : CacheOptions)
    (unseen : remote.IsUnseen) {command : Command} (edits : command.isEdit = true)
    (valid : command.IsValid) :
    ∃ after : Ensemble, after.IsUnseen ∧
      (prepared config options remote).obey command = prepared config options after := by
  have later : ∀ {after : Ensemble}, after.Follows remote → after.sessions = remote.sessions →
      after.failing = remote.failing → after.heldReads = remote.heldReads → after.IsUnseen := by
    intro after follows sessions failing heldReads
    exact ⟨follows.sound, sessions.trans unseen.sessions, failing.trans unseen.healthy,
      heldReads.trans unseen.unheld⟩
  have next := later unseen.sound.nextTransaction rfl rfl rfl
  cases command with
  | create path data owner =>
      apply change_prepared (fun _ holds => holds.sessions) next
      rcases remote.create_cases path data owner with refused | ⟨_, _, done⟩
      · exact Or.inl refused
      · exact Or.inr ⟨_, _, later (unseen.sound.grown (valid path rfl) data owner) rfl rfl rfl, done⟩
  | setData path data =>
      apply change_prepared (fun _ holds => holds.sessions) next
      rcases remote.setData_cases path data with refused | ⟨_, done⟩
      · exact Or.inl refused
      · exact Or.inr ⟨_, _, later (unseen.sound.rewritten path data) rfl rfl rfl, done⟩
  | delete path =>
      apply change_prepared (fun _ holds => holds.sessions) next
      rcases remote.delete_cases path with refused | ⟨_, _, done⟩
      · exact Or.inl refused
      · exact Or.inr ⟨_, _, later (unseen.sound.pruned path) rfl rfl rfl, done⟩
  | _ => cases edits

theorem obeyAll_prepared_of_edits (config : ConnectionConfig) (options : CacheOptions)
    (unseen : remote.IsUnseen) {commands : List Command}
    (edits : ∀ command ∈ commands, command.isEdit = true ∧ command.IsValid) :
    ∃ after : Ensemble, after.IsUnseen ∧
      (prepared config options remote).obeyAll commands = prepared config options after := by
  induction commands generalizing remote with
  | nil => exact ⟨remote, unseen, rfl⟩
  | cons command others inductionHypothesis =>
      obtain ⟨isEdit, valid⟩ := edits command List.mem_cons_self
      obtain ⟨middle, middleUnseen, first⟩ :=
        obey_prepared_of_edit config options unseen isEdit valid
      obtain ⟨after, afterUnseen, rest⟩ := inductionHypothesis middleUnseen fun other member =>
        edits other (List.mem_cons_of_mem command member)
      exact ⟨after, afterUnseen, by rw [obeyAll_cons, first, rest]⟩

/-- Once it has started, the cache is about to fetch its node. -/
theorem isAttending_start (config : ConnectionConfig) (unseen : remote.IsUnseen)
    (valid : options.basePath.IsValid) (mode : options.mode = .singleNode action)
    (isStored : action.isStored = true) (unbounded : options.eviction = {})
    (onStart : options.refreshOnStart = true) :
    ((prepared config options remote).obey (.start 0)).IsAttending options 1 action := by
  have sound : ((prepared config options remote).obey (.start 0)).Sound :=
    ((sound_prepared config unseen.sound valid).start 0).sound
  have inScope : (startedCache options).scope options.basePath ≠ none := by
    rw [scope_singleNode mode]
    exact Option.ne_none_iff_exists'.mpr ⟨_, if_pos rfl⟩
  obtain ⟨queued, hosts⟩ := quiet_start_prepared config unseen.sessions unseen.healthy
    unseen.unheld unbounded onStart inScope
  refine ⟨startedCache options, ⟨⟨hosts, sound, mode, isStored⟩, Or.inl ?_⟩, rfl⟩
  rw [queued]
  exact isFetching_enqueue (startedWorld config options remote).quiet
    (List.mem_singleton.mpr rfl)

theorem isAttending_opening (config : ConnectionConfig) {base : Path} {calls : List BuilderCall}
    (built : (CacheBuilder.applyAll base calls).build = .ok options)
    (mode : options.mode = .singleNode action) (isStored : action.isStored = true)
    (unbounded : options.eviction = {}) (onStart : options.refreshOnStart = true)
    {before : List Command}
    (edits : ∀ command ∈ before, command.isEdit = true ∧ command.IsValid) :
    ((ofConfig config).obeyAll (opening base calls before)).IsAttending options 1 action := by
  obtain ⟨isBase, baseValid⟩ := basePath_of_build built
  have valid : options.basePath.IsValid := isBase ▸ baseValid
  have unseen : ({ sessions := [{ id := 1, handler := 1 }] } : Ensemble).IsUnseen :=
    ⟨isUnread_opening.sound, rfl, rfl, rfl⟩
  obtain ⟨remote, edited, changed⟩ := obeyAll_prepared_of_edits config options unseen edits
  rw [opening, obeyAll_append, obeyAll_append, obeyAll_opening built, changed]
  exact isAttending_start config edited valid mode isStored unbounded onStart

/-! ## Runs -/

theorem Attends.obey {cache : Cache} (attends : world.Attends cache session action)
    {command : Command} (gentle : command.isGentle = true) (valid : command.IsValid) :
    (world.obey command).IsAttending cache.options session action := by
  rcases Command.isEdit_or_isCalm gentle valid with edits | calm
  · cases command with
    | create path data owner => exact attends.create (valid path rfl) data owner
    | setData path data => exact attends.setData (valid path rfl) data
    | delete path => exact attends.delete (valid path rfl)
    | _ => cases edits
  · exact (upheld_attends session action).obey attends calm

theorem IsAttending.obeyAll (attending : world.IsAttending options session action)
    {commands : List Command}
    (gentle : ∀ command ∈ commands, command.isGentle = true ∧ command.IsValid) :
    (world.obeyAll commands).IsAttending options session action := by
  induction commands generalizing world with
  | nil => exact attending
  | cons command others inductionHypothesis =>
      obtain ⟨cache, attends, rfl⟩ := attending
      obtain ⟨isGentle, valid⟩ := gentle command List.mem_cons_self
      exact inductionHypothesis (attends.obey isGentle valid) fun other member =>
        gentle other (List.mem_cons_of_mem command member)

/-- Only the node at the base is cached. -/
theorem Tends.peek_of_other {cache : Cache} (tends : world.Tends cache session action) {path : Path}
    (other : path ≠ cache.options.basePath) : cache.store.peek world.now path = none := by
  rw [Option.eq_none_iff_forall_ne_some]
  intro node cached
  obtain ⟨_, _, scope, _⟩ :=
    ((tends.hosts.cacheSound tends.sound).entries.of_peek cached).stored
  have outside := scope_singleNode tends.mode path
  rw [if_neg other, Cache.scope, scope] at outside
  cases outside

/-- The list of children as a cache keeps it. -/
def childList (world : World) (options : CacheOptions) (path : Path) : List Text :=
  if options.sortChildren then Text.sort (world.ensemble.childNames path)
  else world.ensemble.childNames path

/-- Whenever no fetch is queued, the cache of one node holds the node at its base exactly if there is
one, agreeing with it in all that its action keeps, and nothing else. -/
theorem node_mirrored_of_drained (config : ConnectionConfig) {base : Path}
    {calls : List BuilderCall} {options : CacheOptions} {action : Action}
    (built : (CacheBuilder.applyAll base calls).build = .ok options)
    (mode : options.mode = .singleNode action) (isStored : action.isStored = true)
    (unbounded : options.eviction = {}) (onStart : options.refreshOnStart = true)
    {before after : List Command}
    (edits : ∀ command ∈ before, command.isEdit = true ∧ command.IsValid)
    (gentle : ∀ command ∈ after, command.isGentle = true ∧ command.IsValid)
    (drained : ∀ fetch, .fetch fetch ∉
      ((ofConfig config).obeyAll (opening base calls before ++ after)).queue) :
    let world := (ofConfig config).obeyAll (opening base calls before ++ after)
    ∃ cache, world.caches = [cache] ∧
      (∀ path, path ≠ base → cache.store.peek world.now path = none) ∧
      (world.ensemble.nodes.get? base = none → cache.store.peek world.now base = none) ∧
      ∀ node, world.ensemble.nodes.get? base = some node →
        ∃ kept, cache.store.peek world.now base = some kept ∧
          kept.Depicts base action node (world.childList options base) := by
  intro world
  have isBase := (basePath_of_build built).1
  have attending : world.IsAttending options 1 action := by
    have opened := isAttending_opening config built mode isStored unbounded onStart edits
    have kept := opened.obeyAll gentle
    rw [← obeyAll_append] at kept
    exact kept
  obtain ⟨cache, attends, isOptions⟩ := attending
  have sameBase : cache.options.basePath = base := by rw [isOptions, isBase]
  have portrays : cache.Portrays world.now 1 action world.ensemble := by
    refine attends.attended.resolve_left ?_
    rintro ⟨fetch, member, _⟩
    exact drained fetch (List.mem_filter.mp member).1
  obtain ⟨other, isOnly, rfl⟩ : ∃ other, world.caches = [other] ∧ other.quiet = cache :=
    List.map_eq_singleton_iff.mp attends.hosts.caches
  have absent := portrays.absent
  have present := portrays.present
  rw [sameBase] at absent present
  refine ⟨other, isOnly, ?_, fun missing => (absent missing).1, ?_⟩
  · intro path isOther
    exact attends.peek_of_other (sameBase ▸ isOther)
  · intro node found
    obtain ⟨kept, shown, depicts⟩ := present node found
    rw [Cache.listing, isOptions] at depicts
    exact ⟨kept, shown, depicts⟩

/-- A run in which the node is deleted and created again, with children that come and go, while its
fetches are still queued. -/
def regrowth : List Command :=
  [.step, .create ['/', 'a', '/', 'b'] [7] 0, .setData ['/', 'a'] [8],
    .delete ['/', 'a', '/', 'b'], .delete ['/', 'a'], .step, .create ['/', 'a'] [9] 3,
    .create ['/', 'a', '/', 'c'] [] 0, .setData ['/', 'a', '/', 'c'] [1], .step, .step, .step, .step]

/-- The world after that run. -/
def regrown : World :=
  (ofConfig defaultConfig).obeyAll
    (opening ['/', 'a'] [.singleNode .statDataAndChildren] [.create ['/', 'a'] [] 0] ++ regrowth)

theorem node_mirrored_of_regrown :
    (∀ command ∈ regrowth, command.isGentle = true ∧ command.IsValid) ∧
      (∀ fetch, .fetch fetch ∉ regrown.queue) ∧
      ∃ cache kept, regrown.caches = [cache] ∧
        cache.store.peek regrown.now ['/', 'a'] = some kept ∧ kept.data = some [9] ∧
          kept.children = some [['c']] := by
  have edits : ∀ command ∈ [Command.create ['/', 'a'] [] 0],
      command.isEdit = true ∧ command.IsValid := by decide
  have gentle : ∀ command ∈ regrowth, command.isGentle = true ∧ command.IsValid := by decide
  have empty : regrown.queue.isEmpty = true := by decide +kernel
  have drained : ∀ fetch, .fetch fetch ∉ regrown.queue := by
    intro fetch
    rw [List.isEmpty_iff.mp empty]
    exact List.not_mem_nil
  have payload : (regrown.ensemble.nodes.get? ['/', 'a']).map (·.data) = some [9] := by
    decide +kernel
  have names : Text.sort (regrown.ensemble.childNames ['/', 'a']) = [['c']] := by decide +kernel
  obtain ⟨cache, isOnly, _, _, present⟩ :=
    node_mirrored_of_drained defaultConfig rfl rfl rfl rfl rfl edits gentle drained
  obtain ⟨node, found, isPayload⟩ := Option.map_eq_some_iff.mp payload
  obtain ⟨kept, shown, depicts⟩ := present node found
  refine ⟨gentle, drained, cache, kept, isOnly, shown, ?_, ?_⟩
  · rw [← isPayload]
    exact depicts.data
  · rw [← names]
    exact depicts.children

end World

end WatchedTree
