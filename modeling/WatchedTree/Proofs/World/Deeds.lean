import Mathlib.Logic.Relation
import WatchedTree.Proofs.World.Delivery
import WatchedTree.Proofs.World.Incident

/-!
# What incidents are made of

Every incident is a chain of small deeds, and so is the run of a fetch up to its end, but for the
one node that it may commit. A deed is known by what it does to entries, journals, refreshes and
channels; what all deeds keep, every run keeps.
-/
namespace WatchedTree

theorem getElem?_concat_cases {Item : Type} {items : List Item} {last item : Item} {place : Nat}
    (found : (items ++ [last])[place]? = some item) :
    items[place]? = some item ∨ place = items.length ∧ item = last := by
  rw [List.getElem?_append] at found
  split at found
  · exact Or.inl found
  next beyond =>
    obtain ⟨isLast, rfl⟩ := List.getElem?_eq_some_iff.mp found
    right
    rw [List.length_singleton] at isLast
    refine ⟨by omega, ?_⟩
    simp

/-- The fetch that a task begins. -/
def Task.fetch? : Task → Option Fetch
  | .fetch queued => some queued
  | .resume _ _ | .deliver _ _ => none

/-- The refresh that a task works for; a delivery works for none. -/
def Task.refresh? : Task → Option RefreshId
  | .fetch queued => some queued.refresh
  | .resume visit _ => some visit.fetch.refresh
  | .deliver _ _ => none

/-! ## Who is told of events -/

namespace Connection

variable {Remote Listener : Type}

/-- The observer and the listeners. -/
def parties (connection : Connection Remote Listener) : List Listener :=
  connection.observer.toList ++ connection.listeners.snapshot

variable [Transport Remote] (connection : Connection Remote Listener) (now : Moment)

theorem parties_dropSession : connection.dropSession.parties = connection.parties := by
  unfold dropSession
  split <;> rfl

theorem parties_openSession : (connection.openSession now).2.parties = connection.parties := by
  unfold openSession
  split
  · rfl
  · have dropped := parties_dropSession
      { connection with
        watcher := (connection.watcher.mark now .latent).2
        generation := connection.generation + 1 }
    simp only
    generalize dropSession
      { connection with
        watcher := (connection.watcher.mark now .latent).2
        generation := connection.generation + 1 } = latent at dropped ⊢
    split
    · exact dropped
    · exact dropped

theorem parties_acquire : (connection.acquire now).2.parties = connection.parties := by
  have opened := parties_openSession connection now
  unfold acquire
  split
  · rfl
  · split
    · rfl
    · split
      · rfl
      · split
        · rfl
        · split
          · rfl
          · unfold reopen
            split
            next answered =>
              rw [answered] at opened
              exact opened
            next answered =>
              rw [answered] at opened
              split <;> exact opened

theorem parties_absorb (event : Event) :
    (connection.absorb now event).parties = connection.parties := by
  unfold absorb
  split
  · rfl
  next transition watcher _ =>
    simp only
    split
    · have opened := parties_openSession
        { connection with
          watcher
          counters :=
            { connection.counters with
              sessionExpired := connection.counters.sessionExpired.raise } } now
      unfold resetExpired
      simp only
      split
      next answered =>
        rw [answered] at opened
        exact opened
      next answered =>
        rw [answered] at opened
        exact opened
    · rfl

/-- A connection that is closed tells its observer, if anybody. -/
theorem parties_close {party : Listener} (member : party ∈ (connection.close now).2.parties) :
    party ∈ connection.parties := by
  have fewer : (connection.close now).2.parties = connection.parties ∨
      (connection.close now).2.parties = connection.observer.toList := by
    have cleared : connection.listeners.clear.snapshot = [] := rfl
    unfold close
    split
    · exact Or.inl rfl
    · right
      simp only
      split
      · simp [parties, cleared]
      · split <;> simp [parties, cleared]
  rcases fewer with same | same
  · exact same ▸ member
  · exact List.mem_append_left _ (same ▸ member)

end Connection

/-! ## Deeds -/

/-- Holds if a store differs in nothing that a reader of it sees, bounds apart. -/
structure Store.IsTended (after before : Store) : Prop where
  policy : after.policy = before.policy
  within : after.Within before
  peek : before.IsUnbounded → ∀ now path, after.peek now path = before.peek now path

/-- Holds if a cache differs in whom it tells, in its phase, or in its connectivity. -/
structure Cache.IsTended (after before : Cache) : Prop where
  options : after.options = before.options
  store : after.store = before.store
  refreshCount : after.refreshCount = before.refreshCount
  journal : after.feed.journal = before.feed.journal
  phase : after.phase = before.phase ∨ before.phase = .latent ∧ after.phase = .started

/-- Holds if a cache has told nothing new, whatever became of its entries; none has come in. -/
structure Cache.IsCleared (after before : Cache) : Prop where
  options : after.options = before.options
  refreshCount : after.refreshCount = before.refreshCount
  journal : after.feed.journal = before.feed.journal
  phase : after.phase = before.phase ∨ after.phase = .closed ∧ after.store.entries = []
  empty : before.store.entries = [] → after.store.entries = []

namespace World

/-- The refreshes of the fetches that are queued, deferred or suspended, one place for each
fetch. -/
def pending (world : World) : List RefreshId :=
  (world.queue ++ world.deferred).filterMap Task.refresh? ++
    world.suspended.map fun suspension => suspension.visit.fetch.refresh

/-- The fetches that wait to begin, in the order of their turns. -/
def fetches (world : World) : List Fetch := (world.queue ++ world.deferred).filterMap Task.fetch?

/-- Holds of the caches that were started, closed ones included. -/
def Awake (world : World) (id : CacheId) : Prop :=
  ∃ cache, world.caches[id]? = some cache ∧ cache.phase ≠ .latent

/-- No fetch has left the queue. -/
def KeepsQueue (after before : World) : Prop :=
  ∀ fetch, .fetch fetch ∈ before.queue → .fetch fetch ∈ after.queue

/-- A new refresh with its first fetch, and its channel if it has one. -/
def launch (world : World) (id : CacheId) (path : Path) (full : Bool)
    (channel : Option ChannelId) : World :=
  ((world.addRefresh id path channel).2).spawn
    { cache := id, refresh := world.refreshes.length, path, full }

/-- One small thing that is done to a world: on behalf of a refresh whose fetch is running, or of
none, and with entries of at most one cache changed by order of its user. -/
inductive Deed (world : World) : Option RefreshId → Option CacheId → World → Prop where
  /-- Something that neither caches nor refreshes notice. -/
  | pass {running : Option RefreshId} {cleared : Option CacheId} {after : World}
      (caches : after.caches = world.caches) (refreshes : after.refreshes = world.refreshes)
      (channels : after.channels = world.channels) (pending : after.pending.Perm world.pending)
      (queue : after.KeepsQueue world) (fetches : after.fetches = world.fetches)
      (runtime : after.hasRuntime = world.hasRuntime)
      (parties : ∀ id ∈ after.connection.parties,
        id ∈ world.connection.parties ∨ world.Awake id) :
      Deed world running cleared after
  | tend {cleared : Option CacheId} {id : CacheId} {cache after : Cache}
      (found : world.caches[id]? = some cache) (tended : after.IsTended cache) :
      Deed world none cleared (world.setCache id after)
  | keep {running : Option RefreshId} {cleared : Option CacheId} {id : CacheId} {cache : Cache}
      {store : Store} (found : world.caches[id]? = some cache)
      (tended : store.IsTended cache.store) :
      Deed world running cleared (world.setCache id { cache with store })
  | clear {id : CacheId} {cache after : Cache} (found : world.caches[id]? = some cache)
      (cleared : after.IsCleared cache) : Deed world none (some id) (world.setCache id after)
  /-- Some subtrees go, and are told of. -/
  | remove {running : Option RefreshId} {cleared : Option CacheId} {id : CacheId} {cache : Cache}
      (found : world.caches[id]? = some cache) (paths : List Path) :
      Deed world running cleared
        ((world.setCache id (Cache.removeSubtrees world.now paths cache).2).dispatchAll id
          (Cache.removeSubtrees world.now paths cache).1)
  | spawn {cleared : Option CacheId} (fetch : Fetch) :
      Deed world (some fetch.refresh) cleared (world.spawn fetch)
  | launch {cleared : Option CacheId} {id : CacheId} {cache : Cache}
      (found : world.caches[id]? = some cache) (isStarted : cache.phase = .started) (path : Path)
      (full : Bool) : Deed world none cleared (world.launch id path full none)
  /-- A refresh that a token stands for. -/
  | request {cleared : Option CacheId} {id : CacheId} {cache : Cache}
      (found : world.caches[id]? = some cache) (isStarted : cache.phase = .started) (path : Path)
      (full : Bool) :
      Deed world none cleared
        ((world.addChannel {}).2.launch id path full (some world.channels.length))
  | settle {cleared : Option CacheId} (outcome : Outcome) :
      Deed world none cleared (world.settledToken outcome).2
  | build {cleared : Option CacheId} (options : CacheOptions)
      (valid : options.basePath.IsValid) :
      Deed world none cleared { world with caches := world.caches ++ [Cache.ofOptions options] }

/-- Deeds one after the other. -/
def Deeds (world : World) (running : Option RefreshId) (cleared : Option CacheId) :
    World → Prop :=
  Relation.ReflTransGen (fun before after : World => before.Deed running cleared after) world

variable {world first second third : World} {running : Option RefreshId}
  {cleared : Option CacheId} {id : CacheId} {cache : Cache}

theorem Deeds.refl : world.Deeds running cleared world := Relation.ReflTransGen.refl

theorem Deed.single (deed : first.Deed running cleared second) :
    first.Deeds running cleared second := Relation.ReflTransGen.single deed

theorem Deeds.trans (left : first.Deeds running cleared second)
    (right : second.Deeds running cleared third) : first.Deeds running cleared third :=
  Relation.ReflTransGen.trans left right

/-! ## Caches stay -/

/-- What a cache keeps through a change, the list of all caches keeps. -/
theorem map_caches_setCache {Value : Type} {value : Cache → Value} {after : Cache}
    (found : world.caches[id]? = some cache) (same : value after = value cache) :
    (world.setCache id after).caches.map value = world.caches.map value := by
  have inPlace : (world.caches.map value)[id]? = some (value after) := by
    rw [List.getElem?_map, found, same]
    rfl
  obtain ⟨inRange, isValue⟩ := List.getElem?_eq_some_iff.mp inPlace
  rw [setCache, List.map_set, ← isValue, List.set_getElem_self]

/-- What no deed does to a cache: its options stay, it is not taken back to the time before its
start, and its phase stays while a fetch runs. -/
structure Stays (later cache : Cache) (running : Option RefreshId) : Prop where
  options : later.options = cache.options
  phase : running ≠ none → later.phase = cache.phase
  started : cache.phase ≠ .latent → later.phase ≠ .latent

theorem Stays.of_phase {later cache : Cache} (options : later.options = cache.options)
    (phase : later.phase = cache.phase) (running : Option RefreshId) :
    Stays later cache running :=
  ⟨options, fun _ => phase, fun notLatent => phase ▸ notLatent⟩

theorem Stays.trans {last later cache : Cache} (left : Stays later cache running)
    (right : Stays last later running) : Stays last cache running :=
  ⟨right.options.trans left.options, fun runs => (right.phase runs).trans (left.phase runs),
    fun notLatent => right.started (left.started notLatent)⟩

theorem stays_of_quiet (same : second.quiet = first.quiet)
    (found : first.caches[id]? = some cache) :
    ∃ later, second.caches[id]? = some later ∧ Stays later cache running := by
  obtain ⟨later, laterFound, isLater⟩ := exists_of_same_quiet same found
  exact ⟨later, laterFound,
    .of_phase (Cache.options_of_quiet isLater) (Cache.phase_of_quiet isLater) running⟩

theorem stays_setCache {other : CacheId} {before after : Cache}
    (present : world.caches[other]? = some before) (stays : Stays after before running)
    (found : world.caches[id]? = some cache) :
    ∃ later, (world.setCache other after).caches[id]? = some later ∧
      Stays later cache running := by
  by_cases isOther : id = other
  · subst isOther
    rw [present] at found
    cases found
    exact ⟨after, getElem?_setCache present after, stays⟩
  · refine ⟨cache, ?_, .of_phase rfl rfl running⟩
    rw [setCache, List.getElem?_set_ne (Ne.symm isOther)]
    exact found

theorem stays_spawn (found : world.caches[id]? = some cache) (fetch : Fetch) :
    ∃ later, (world.spawn fetch).caches[id]? = some later ∧ Stays later cache running := by
  have quietly : (world.spawn fetch).quiet.caches[id]? = some cache.quiet := by
    rw [quiet_spawn]
    split
    · exact quiet_found found
    · exact quiet_found found
  obtain ⟨later, laterFound, isLater⟩ := exists_of_quiet quietly
  exact ⟨later, laterFound,
    .of_phase (Cache.options_of_quiet isLater) (Cache.phase_of_quiet isLater) running⟩

theorem Deed.stays (deed : first.Deed running cleared second)
    (found : first.caches[id]? = some cache) :
    ∃ later, second.caches[id]? = some later ∧ Stays later cache running := by
  cases deed with
  | pass caches => exact ⟨cache, caches ▸ found, .of_phase rfl rfl running⟩
  | tend present tended =>
      refine stays_setCache present ⟨tended.options, fun runs => absurd rfl runs, ?_⟩ found
      intro notLatent
      rcases tended.phase with same | ⟨_, started⟩
      · rw [same]
        exact notLatent
      · rw [started]
        exact CachePhase.noConfusion
  | @keep _ _ _ before store present _ =>
      have stays : Stays { before with store } before running :=
        ⟨rfl, fun _ => rfl, fun notLatent => notLatent⟩
      exact stays_setCache present stays found
  | clear present cleared =>
      refine stays_setCache present ⟨cleared.options, fun runs => absurd rfl runs, ?_⟩ found
      intro notLatent
      rcases cleared.phase with same | ⟨closed, _⟩
      · rw [same]
        exact notLatent
      · rw [closed]
        exact CachePhase.noConfusion
  | @remove _ _ other before present paths =>
      have options : (Cache.removeSubtrees first.now paths before).2.options = before.options := by
        rw [Cache.removeSubtrees_eq]
      have phase : (Cache.removeSubtrees first.now paths before).2.phase = before.phase := by
        rw [Cache.removeSubtrees_eq]
      obtain ⟨middle, middleFound, left⟩ :=
        stays_setCache present (.of_phase options phase running) found
      obtain ⟨later, laterFound, right⟩ := stays_of_quiet (quiet_dispatchAll _ other _) middleFound
      exact ⟨later, laterFound, left.trans right⟩
  | spawn fetch => exact stays_spawn found fetch
  | @launch _ place _ _ _ path full =>
      have added : (first.addRefresh place path none).2.caches[id]? = some cache := found
      exact stays_spawn added _
  | @request _ place _ _ _ path full =>
      have added : ((first.addChannel {}).2.addRefresh place path
          (some first.channels.length)).2.caches[id]? = some cache := found
      exact stays_spawn added _
  | settle => exact ⟨cache, found, .of_phase rfl rfl _⟩
  | build options =>
      refine ⟨cache, ?_, .of_phase rfl rfl _⟩
      exact (List.getElem?_append_left (List.getElem?_eq_some_iff.mp found).1).trans found

theorem Deed.awake (deed : first.Deed running cleared second) (awake : first.Awake id) :
    second.Awake id := by
  obtain ⟨cache, found, notLatent⟩ := awake
  obtain ⟨later, laterFound, stays⟩ := deed.stays found
  exact ⟨later, laterFound, stays.started notLatent⟩

theorem Deeds.awake (deeds : first.Deeds running cleared second) (awake : first.Awake id) :
    second.Awake id := by
  induction deeds with
  | refl => exact awake
  | tail _ deed inductionHypothesis => exact deed.awake inductionHypothesis

theorem awake_of_quiet (same : second.quiet = first.quiet) (awake : first.Awake id) :
    second.Awake id := by
  obtain ⟨cache, found, notLatent⟩ := awake
  obtain ⟨later, laterFound, isLater⟩ := exists_of_same_quiet same found
  exact ⟨later, laterFound, Cache.phase_of_quiet isLater ▸ notLatent⟩

end World

end WatchedTree
