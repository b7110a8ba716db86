import WatchedTree.Proofs.Connection.Tree
import WatchedTree.Proofs.World.Sound

/-!
# Reached worlds are sound

Every function on worlds leads from a sound world to one that continues it, and so does every run of
commands over valid paths.
-/
namespace WatchedTree

namespace World

variable {world : World} {id : CacheId} {cache : Cache} {visit : Visit} {path : Path}

/-- A world that tells more than a later one is a later one itself. -/
theorem Continues.of_quiet {middle after : World} (continues : middle.Continues world)
    (same : after.quiet = middle.quiet) : after.Continues world :=
  (continues.sound.of_quiet same).trans continues

/-! ## Fetches that are queued -/

theorem Sound.spawn (sound : world.Sound) {fetch : Fetch} (valid : fetch.path.IsValid) :
    (world.spawn fetch).Continues world := by
  have queued : (world.enqueue [.fetch fetch]).Continues world := by
    apply sound.enqueue
    · intro other member
      have isFetch : other = fetch := by simpa using member
      rw [isFetch]
      exact valid
    · intro visit answer member
      simp at member
  have spawned := quiet_spawn world fetch
  split at spawned
  · apply queued.of_quiet
    rw [spawned, quiet_enqueue]
    rfl
  · exact sound.of_quiet spawned

theorem Sound.spawnAll (sound : world.Sound) {fetches : List Fetch}
    (valid : ∀ fetch ∈ fetches, fetch.path.IsValid) :
    (world.spawnAll fetches).Continues world := by
  induction fetches generalizing world with
  | nil => exact sound.refl
  | cons fetch others inductionHypothesis =>
      have first := sound.spawn (valid fetch (by simp))
      have rest := inductionHypothesis first.sound fun other member => valid other (by simp [member])
      exact rest.trans first

theorem Sound.backgroundRefresh (sound : world.Sound) (valid : path.IsValid) (full : Bool) :
    (world.backgroundRefresh id path full).Continues world := by
  have added := sound.of_quiet (quiet_addRefresh world id path none)
  unfold World.backgroundRefresh
  exact (added.sound.spawn valid).trans added

theorem Sound.dispatchAll (sound : world.Sound) (events : List CacheEvent) :
    (world.dispatchAll id events).Continues world :=
  sound.of_quiet (quiet_dispatchAll world id events)

/-! ## Visits -/

theorem Sound.removeSubtree (sound : world.Sound) :
    (world.removeSubtree id path).Continues world := by
  unfold World.removeSubtree
  cases found : world.caches[id]? with
  | none => exact sound.refl
  | some cache =>
      have removed := (sound.caches id cache found).removeSubtree world.now path
      have changed := sound.setCache found removed rfl
      exact (changed.sound.dispatchAll _).trans changed

theorem Sound.endVisit (sound : world.Sound) (failure : Option Failure) :
    (world.endVisit visit failure).Continues world := by
  have ended : (world.updateCache visit.cache fun cache =>
      { cache with store := cache.store.endFetch visit.epoch }).Continues world := by
    apply sound.updateCache
    intro cache found
    exact ⟨(sound.caches _ cache found).ended visit.epoch, rfl⟩
  apply ended.of_quiet
  rw [quiet_endVisit]
  symm
  apply quiet_updateCache
  intro cache
  rfl

theorem Sound.setTree (sound : world.Sound) {ensemble : Ensemble}
    (same : ensemble.SameTree world.ensemble) :
    (world.setEnsemble ensemble).Continues world :=
  sound.setEnsemble (sound.remote.follows_of_eq same.1 same.2)

theorem Sound.visitAbsent (sound : world.Sound) (valid : visit.path.IsValid) :
    (world.visitAbsent visit).Continues world := by
  have removed : (world.removeSubtree visit.cache visit.path).Continues world :=
    sound.removeSubtree
  unfold World.visitAbsent
  simp only
  generalize world.removeSubtree visit.cache visit.path = dropped at removed ⊢
  split
  · exact (removed.sound.endVisit none).trans removed
  · split
    · exact (removed.sound.endVisit none).trans removed
    · have sameTree := dropped.ensemble.sameTree_readStat visit.session visit.path
      split
      next ensemble answered =>
        rw [answered] at sameTree
        have read := removed.sound.setTree sameTree
        exact ((read.sound.endVisit _).trans read).trans removed
      next ensemble answered =>
        rw [answered] at sameTree
        have read := removed.sound.setTree sameTree
        exact ((read.sound.endVisit _).trans read).trans removed
      next ensemble answered =>
        rw [answered] at sameTree
        have read := removed.sound.setTree sameTree
        have spawned : ((dropped.setEnsemble ensemble).spawn
            { visit.fetch with full := true }).Continues (dropped.setEnsemble ensemble) :=
          read.sound.spawn valid
        exact (((spawned.sound.endVisit _).trans spawned).trans read).trans removed

theorem Sound.visitFault (sound : world.Sound) (valid : visit.path.IsValid)
    (fault : TransportFault) : (world.visitFault visit fault).Continues world := by
  unfold World.visitFault
  split
  · exact sound.visitAbsent valid
  · exact sound.endVisit _

theorem Sound.reconcileChildren (sound : world.Sound) (valid : visit.path.IsValid)
    {names : List Text} (segments : ∀ name ∈ names, Path.IsSegment name) :
    (world.reconcileChildren visit names).Continues world := by
  unfold World.reconcileChildren
  cases found : world.caches[visit.cache]? with
  | none => exact sound.refl
  | some cache =>
      have removed := (sound.caches _ cache found).removeSubtrees world.now
        (cache.vanished world.now visit.path names)
      have options : (Cache.removeSubtrees world.now
          (cache.vanished world.now visit.path names) cache).2.options = cache.options := by
        rw [Cache.removeSubtrees_eq]
      simp only
      generalize Cache.removeSubtrees world.now
        (cache.vanished world.now visit.path names) cache = outcome at removed options ⊢
      have changed := sound.setCache found removed options
      have told : ((world.setCache visit.cache outcome.2).dispatchAll visit.cache
          outcome.1).Continues (world.setCache visit.cache outcome.2) :=
        changed.sound.dispatchAll outcome.1
      have childrenValid : ∀ fetch ∈ (outcome.2.wantedChildren world.now visit.fetch.full
          visit.path names).map (fun path => { visit.fetch with path }),
          fetch.path.IsValid := by
        intro fetch member
        obtain ⟨path, wanted, rfl⟩ := List.mem_map.mp member
        obtain ⟨name, named, rfl, _⟩ := Cache.mem_wantedChildren.mp wanted
        exact valid.child (segments name named)
      exact ((told.sound.spawnAll childrenValid).trans told).trans changed

theorem Sound.commit (sound : world.Sound) (suits : world.Suits visit) {node : Node}
    (isPath : node.path = visit.path)
    (passed : ∀ stat, node.stat = some stat → world.ensemble.Passed visit.path stat) :
    (world.commit visit node).Continues world := by
  unfold World.commit
  split
  · exact sound.refl
  next isStored =>
    cases found : world.caches[visit.cache]? with
    | none => exact sound.refl
    | some cache =>
        obtain ⟨other, present, scope⟩ := suits.scope
        rw [found] at present
        cases present
        have fits : cache.options.Fits world.ensemble node.path node := by
          rw [isPath]
          exact ⟨suits.valid, isPath, ⟨_, _, scope, by simpa using isStored⟩, passed⟩
        have kept := (sound.caches _ cache found).commit fits world.now visit.epoch
        have changed := sound.setCache found kept (Cache.options_commit cache _ _ _)
        exact (changed.sound.dispatchAll _).trans changed

theorem Sound.visitRead (sound : world.Sound) (suits : world.Suits visit) {stat : Option Stat}
    (passed : ∀ read, stat = some read → world.ensemble.Passed visit.path read)
    (data : Option Payload) {children : Option (List Text)}
    (segments : ∀ names, children = some names → ∀ name ∈ names, Path.IsSegment name) :
    (world.visitRead visit stat data children).Continues world := by
  have committed : (world.commit visit
      { path := visit.path, stat, data
        children := if visit.action.wantsChildren then children else none }).Continues world :=
    sound.commit suits rfl passed
  unfold World.visitRead
  simp only
  generalize world.commit visit _ = after at committed ⊢
  split
  next cache names _ =>
    split
    · have reconciled := committed.sound.reconcileChildren suits.valid (segments names rfl)
      exact ((reconciled.sound.endVisit none).trans reconciled).trans committed
    · exact (committed.sound.endVisit none).trans committed
  · exact (committed.sound.endVisit none).trans committed

theorem Sound.visitChildren (sound : world.Sound) (suits : world.Suits visit)
    {stat : Option Stat}
    (passed : ∀ read, stat = some read → world.ensemble.Passed visit.path read)
    (data : Option Payload) : (world.visitChildren visit stat data).Continues world := by
  unfold World.visitChildren
  split
  · apply sound.visitRead suits passed
    intro names nothing
    cases nothing
  · have sameTree := world.ensemble.sameTree_readChildren visit.session visit.path
    split
    next ensemble answered =>
      rw [answered] at sameTree
      have read := sound.setTree sameTree
      exact (read.sound.visitFault suits.valid _).trans read
    next names ensemble answered =>
      have isListing := Ensemble.childNames_of_readChildren (congrArg Prod.fst answered)
      rw [answered] at sameTree
      have read := sound.setTree sameTree
      have segments : ∀ name ∈ names, Path.IsSegment name := by
        intro name member
        rw [isListing] at member
        exact ((Ensemble.mem_childNames suits.valid).mp member).1
      refine (read.sound.visitRead (suits.continues read.options)
        (fun stat isStat => (passed stat isStat).follows read.remote) data ?_).trans read
      intro listed isListed name member
      cases isListed
      exact segments name (Text.mem_ite_sort.mp member)

theorem Sound.visitData (sound : world.Sound) {answer : DataAnswer}
    (holds : world.Holds visit answer) : (world.visitData visit answer).Continues world := by
  cases answer with
  | error fault => exact sound.visitFault holds.suits.valid fault
  | ok read =>
      obtain ⟨data, stat⟩ := read
      apply sound.visitChildren holds.suits
      intro read isStat
      cases isStat
      exact holds.passed data stat rfl

theorem Sound.suspend (sound : world.Sound) {suspension : Suspension}
    (holds : world.Holds suspension.visit suspension.answer) :
    ({ world with suspended := world.suspended ++ [suspension] } : World).Continues world := by
  have follows : ({ world with suspended := world.suspended ++ [suspension] } :
      World).ensemble.Follows world.ensemble := sound.remote.follows_of_eq rfl rfl
  apply continues_of_parts follows
  · exact fun _ cache found => ⟨cache, found, rfl⟩
  · exact sound.caches
  · exact sound.fetches
  · exact sound.resumes
  · intro other member
    rcases List.mem_append.mp member with old | new
    · exact sound.held other old
    · rw [List.mem_singleton.mp new]
      exact holds
  · exact sound.deferred

theorem Sound.beginVisit (sound : world.Sound) (suits : world.Suits visit) :
    (world.beginVisit visit).Continues world := by
  unfold World.beginVisit
  split
  · have sameTree := world.ensemble.sameTree_readData visit.session visit.path
    have answered : ∀ data stat,
        (world.ensemble.readData visit.session visit.path).1 = .ok (data, stat) →
          world.ensemble.Passed visit.path stat := fun data stat isAnswer =>
      sound.remote.passed (Ensemble.get?_of_readData isAnswer)
    split
    next answer hold ensemble read =>
      rw [read] at sameTree answered
      have changed := sound.setTree sameTree
      have holds : world.Holds visit answer := ⟨suits, answered⟩
      have still := holds.continues changed.remote changed.options
      exact (Sound.suspend changed.sound still).trans changed
    next answer ensemble read =>
      rw [read] at sameTree answered
      have changed := sound.setTree sameTree
      have holds : world.Holds visit answer := ⟨suits, answered⟩
      exact (changed.sound.visitData
        (holds.continues changed.remote changed.options)).trans changed
  · split
    · have sameTree := world.ensemble.sameTree_readStat visit.session visit.path
      split
      next ensemble read =>
        rw [read] at sameTree
        have changed := sound.setTree sameTree
        exact (changed.sound.endVisit _).trans changed
      next ensemble read =>
        rw [read] at sameTree
        have changed := sound.setTree sameTree
        exact (changed.sound.visitAbsent suits.valid).trans changed
      next stat ensemble read =>
        obtain ⟨node, found, rfl⟩ := Ensemble.get?_of_readStat (congrArg Prod.fst read)
        rw [read] at sameTree
        have changed := sound.setTree sameTree
        refine (changed.sound.visitChildren (suits.continues changed.options) ?_ none).trans
          changed
        intro stat isStat
        cases isStat
        exact (sound.remote.passed found).follows changed.remote
    · apply sound.visitChildren suits
      intro stat nothing
      cases nothing

/-! ## Tasks -/

theorem Sound.connect (sound : world.Sound) {connection : Connection Ensemble CacheId}
    (same : connection.remote.SameTree world.ensemble) :
    ({ world with connection } : World).Continues world :=
  sound.setConnection (sound.remote.follows_of_eq same.1 same.2)

theorem Sound.runFetch (sound : world.Sound) {fetch : Fetch} (valid : fetch.path.IsValid) :
    (world.runFetch fetch).Continues world := by
  have counted := sound.of_quiet (quiet_countDown world fetch.refresh)
  unfold World.runFetch
  cases found : world.caches[fetch.cache]? with
  | none => exact counted
  | some cache =>
      simp only
      split
      · exact counted
      · split
        · exact counted
        next action traverse scope =>
          have sameTree := world.connection.sameTree_acquire world.now
          split
          next failure connection answered =>
            rw [answered] at sameTree
            have connected := sound.connect sameTree
            apply connected.of_quiet
            simp
          next session connection answered =>
            rw [answered] at sameTree
            have connected := sound.connect sameTree
            have stillFound : ({ world with connection } : World).caches[fetch.cache]? =
                some cache := found
            have begun := (connected.sound.caches _ cache stillFound).begun
            have registered := connected.sound.setCache stillFound begun rfl
            have suits : world.Suits
                { fetch, session, epoch := cache.store.epoch, action, traverse } :=
              ⟨valid, cache, found, scope⟩
            have stillSuits := (suits.continues connected.options).continues registered.options
            exact ((registered.sound.beginVisit stillSuits).trans registered).trans connected

theorem Sound.perform (sound : world.Sound) {task : Task}
    (fetches : ∀ fetch, task = .fetch fetch → fetch.path.IsValid)
    (resumes : ∀ visit answer, task = .resume visit answer → world.Holds visit answer) :
    (world.perform task).Continues world := by
  cases task with
  | fetch fetch => exact sound.runFetch (fetches fetch rfl)
  | resume visit answer => exact sound.visitData (resumes visit answer rfl)
  | deliver cache subscriber => exact sound.of_quiet (quiet_deliver world cache subscriber)

theorem Sound.popped (sound : world.Sound) {task : Task} {tasks : List Task}
    (queue : world.queue = task :: tasks) :
    ({ world with queue := tasks } : World).Continues world := by
  have follows : ({ world with queue := tasks } : World).ensemble.Follows world.ensemble :=
    sound.remote.follows_of_eq rfl rfl
  apply continues_of_parts follows
  · exact fun _ cache found => ⟨cache, found, rfl⟩
  · exact sound.caches
  · exact fun fetch member => sound.fetches fetch (by simp [queue, show _ ∈ tasks from member])
  · exact fun visit answer member =>
      sound.resumes visit answer (by simp [queue, show _ ∈ tasks from member])
  · exact sound.held
  · exact sound.deferred

theorem Sound.step (sound : world.Sound) : world.step.Continues world := by
  unfold World.step
  cases queue : world.queue with
  | nil => exact sound.refl
  | cons task tasks =>
      have popped := sound.popped queue
      refine (popped.sound.perform ?_ ?_).trans popped
      · rintro fetch rfl
        exact sound.fetches fetch (by simp [queue])
      · rintro visit answer rfl
        exact (sound.resumes visit answer (by simp [queue])).continues popped.remote popped.options

theorem Sound.run (sound : world.Sound) (steps : Nat) : (run steps world).Continues world := by
  induction steps generalizing world with
  | zero => exact sound.refl
  | succ steps inductionHypothesis => exact (inductionHypothesis sound.step.sound).trans sound.step

/-- A round is a run: what it puts back into the queue are deliveries. -/
theorem Sound.quiet_round (sound : world.Sound) :
    world.round.quiet = (World.run roundLength world).quiet := by
  have ran := sound.run roundLength
  unfold World.round
  simp only
  generalize World.run roundLength world = after at ran ⊢
  have onlyDeliveries : ∀ task ∈ after.deferred, task.isDelivery = true := ran.sound.deferred
  have nothing : after.deferred.filter (fun task => !task.isDelivery) = [] := by
    rw [List.filter_eq_nil_iff]
    intro task member
    simp [onlyDeliveries task member]
  simp [quiet, nothing]

theorem Sound.round (sound : world.Sound) : world.round.Continues world :=
  (sound.run roundLength).of_quiet sound.quiet_round

/-! ## Events -/

theorem Sound.tell (sound : world.Sound) {event : Event}
    (valid : ∀ path ∈ event.path, path.IsValid) : (tell event id world).Continues world := by
  unfold World.tell
  cases found : world.caches[id]? with
  | none => exact sound.refl
  | some cache =>
      have known := sound.caches id cache found
      simp only
      split
      · exact sound.refl
      · split
        · have notedSound : Cache.Sound { cache with connected := event.state == .syncConnected }
              world.ensemble := known.of_eq rfl rfl
          have noted := sound.setCache found notedSound rfl
          split
          · exact (noted.sound.backgroundRefresh known.base true).trans noted
          · exact noted
        · split
          · exact sound.refl
          next path isPath =>
            have pathValid := valid path (by simp [isPath])
            split
            · exact sound.refl
            · split
              · exact sound.refl
              · exact sound.backgroundRefresh pathValid true
              · exact sound.backgroundRefresh pathValid false
              · exact sound.backgroundRefresh pathValid false
              · have removed : (world.removeSubtree id path).Continues world := sound.removeSubtree
                split
                · exact (removed.sound.backgroundRefresh pathValid true).trans removed
                · exact removed

theorem Sound.foldl {Item : Type} {step : World → Item → World} {items : List Item}
    (sound : world.Sound)
    (continues : ∀ world : World, world.Sound → ∀ item ∈ items,
      (step world item).Continues world) : (items.foldl step world).Continues world := by
  induction items generalizing world with
  | nil => exact sound.refl
  | cons item others inductionHypothesis =>
      have first := continues world sound item (by simp)
      have rest := inductionHypothesis first.sound
        fun world sound other member => continues world sound other (by simp [member])
      exact rest.trans first

theorem Sound.forward (sound : world.Sound) {event : Event}
    (valid : ∀ path ∈ event.path, path.IsValid) :
    (Connection.forward (·.connection) (World.tell event) world).Continues world := by
  have heard : ∀ told : World, told.Sound →
      (told.connection.listeners.snapshot.foldl
        (fun state listener => World.tell event listener state) told).Continues told :=
    fun told toldSound => toldSound.foldl fun world sound listener _ => sound.tell valid
  unfold Connection.forward
  cases world.connection.observer with
  | none => exact heard world sound
  | some observer =>
      have observed : (World.tell event observer world).Continues world := sound.tell valid
      exact (heard _ observed.sound).trans observed

theorem Sound.occur (sound : world.Sound) {event : Event}
    (valid : ∀ path ∈ event.path, path.IsValid) : (world.occur event).Continues world := by
  have absorbed := sound.connect (world.connection.sameTree_absorb world.now event)
  exact (absorbed.sound.forward valid).trans absorbed

theorem Sound.deliverEvent (sound : world.Sound) {delivery : Delivery}
    (valid : ∀ path ∈ delivery.event.path, path.IsValid) :
    (world.deliverEvent delivery).Continues world := by
  unfold World.deliverEvent
  split
  · exact sound.occur valid
  · exact sound.refl

/-! ## The remote side -/

theorem Sound.deliverEach (sound : world.Sound) {deliveries : List Delivery}
    (valid : ∀ delivery ∈ deliveries, ∀ path ∈ delivery.event.path, path.IsValid) :
    (deliveries.foldl World.deliverEvent world).Continues world :=
  sound.foldl fun _ sound delivery member => sound.deliverEvent (valid delivery member)

theorem Sound.change (sound : world.Sound)
    {attempt : Ensemble → Except TransportFault (List Delivery) × Ensemble}
    (follows : (attempt world.ensemble).2.Follows world.ensemble)
    (valid : ∀ deliveries, (attempt world.ensemble).1 = .ok deliveries →
      ∀ delivery ∈ deliveries, ∀ path ∈ delivery.event.path, path.IsValid) :
    (world.change attempt).2.Continues world := by
  unfold World.change
  split
  next fault ensemble attempted =>
    rw [attempted] at follows
    exact sound.setEnsemble follows
  next deliveries ensemble attempted =>
    rw [attempted] at follows valid
    have changed := sound.setEnsemble follows
    exact (changed.sound.deliverEach (valid deliveries rfl)).trans changed

theorem valid_of_fireEach {fires : List (WatchKind × EventKind × Path)} {ensemble : Ensemble}
    (valid : ∀ fire ∈ fires, Path.IsValid fire.2.2) :
    ∀ delivery ∈ (Ensemble.fireEach fires ensemble).1,
      ∀ path ∈ delivery.event.path, path.IsValid := by
  intro delivery member path isPath
  obtain ⟨fire, fireMember, same⟩ := Ensemble.exists_of_mem_fireEach member
  rw [same, Event.ofNode, Option.mem_some] at isPath
  exact isPath ▸ valid fire fireMember

theorem Sound.create (sound : world.Sound) (valid : path.IsValid) (data : Payload)
    (owner : Int) : (world.create path data owner).2.Continues world := by
  apply sound.change (sound.remote.create valid data owner)
  intro deliveries answered
  rcases world.ensemble.create_cases path data owner with ⟨fault, refused⟩ | ⟨_, _, done⟩
  · rw [refused] at answered
    cases answered
  · rw [done] at answered
    cases answered
    apply valid_of_fireEach
    intro fire member
    simp only [Ensemble.creationFires, List.mem_cons, List.not_mem_nil, or_false] at member
    rcases member with rfl | rfl
    · exact valid
    · exact valid.parent

theorem Sound.setData (sound : world.Sound) (valid : path.IsValid) (data : Payload) :
    (world.setData path data).2.Continues world := by
  apply sound.change (sound.remote.setData path data)
  intro deliveries answered
  rcases world.ensemble.setData_cases path data with ⟨fault, refused⟩ | ⟨_, done⟩
  · rw [refused] at answered
    cases answered
  · rw [done] at answered
    cases answered
    apply valid_of_fireEach
    intro fire member
    rw [List.mem_singleton.mp member]
    exact valid

theorem Sound.delete (sound : world.Sound) (valid : path.IsValid) :
    (world.delete path).2.Continues world := by
  apply sound.change (sound.remote.delete path)
  intro deliveries answered
  rcases world.ensemble.delete_cases path with ⟨fault, refused⟩ | ⟨_, _, done⟩
  · rw [refused] at answered
    cases answered
  · rw [done] at answered
    cases answered
    apply valid_of_fireEach
    intro fire member
    simp only [Ensemble.deletionFires, List.mem_cons, List.not_mem_nil, or_false] at member
    rcases member with rfl | rfl | rfl
    · exact valid
    · exact valid
    · exact valid.parent

theorem Sound.announce (sound : world.Sound) (state : KeeperState) :
    (world.announce state).Continues world := by
  apply sound.foldl
  intro world sound session _
  apply sound.deliverEvent
  intro path isPath
  cases isPath

theorem Sound.expireSessions (sound : world.Sound) : world.expireSessions.Continues world := by
  apply sound.foldl
  intro world sound session _
  have expired : (world.setEnsemble (world.ensemble.expireSession session.id)).Continues world :=
    sound.setTree ⟨rfl, rfl⟩
  refine (expired.sound.deliverEvent ?_).trans expired
  intro path isPath
  cases isPath

theorem Sound.release (sound : world.Sound) (hold : HoldId) :
    (world.release hold).Continues world := by
  have released : (world.setEnsemble (world.ensemble.release hold)).Continues world :=
    sound.setTree ⟨rfl, rfl⟩
  have follows : (world.release hold).ensemble.Follows world.ensemble := released.remote
  apply continues_of_parts follows
  · exact fun _ cache found => ⟨cache, found, rfl⟩
  · exact released.sound.caches
  · intro fetch member
    rcases List.mem_append.mp member with old | woken
    · exact sound.fetches fetch old
    · obtain ⟨suspension, _, isFetch⟩ := List.mem_map.mp woken
      cases isFetch
  · intro visit answer member
    rcases List.mem_append.mp member with old | woken
    · exact sound.resumes visit answer old
    · obtain ⟨suspension, isHeld, isResume⟩ := List.mem_map.mp woken
      cases isResume
      exact sound.held suspension (List.mem_filter.mp isHeld).1
  · intro suspension member
    exact sound.held suspension (List.mem_filter.mp member).1
  · exact sound.deferred

/-! ## Caches -/

theorem Sound.build (sound : world.Sound) (path : Path) (calls : List BuilderCall) :
    (world.build path calls).2.Continues world := by
  unfold World.build
  split
  · exact sound.refl
  next options built =>
    have fresh : (Cache.ofOptions options).Sound world.ensemble :=
      Cache.sound_ofOptions ((basePath_of_build built).1 ▸ (basePath_of_build built).2)
    have follows : ({ world with caches := world.caches ++ [Cache.ofOptions options] } :
        World).ensemble.Follows world.ensemble := sound.remote.follows_of_eq rfl rfl
    apply continues_of_parts follows
    · intro id cache found
      obtain ⟨inRange, _⟩ := List.getElem?_eq_some_iff.mp found
      exact ⟨cache, by rw [List.getElem?_append_left inRange]; exact found, rfl⟩
    · intro id cache found
      rcases List.mem_append.mp (List.mem_of_getElem? found) with old | new
      · obtain ⟨index, present⟩ := List.mem_iff_getElem?.mp old
        exact sound.caches index cache present
      · rw [List.mem_singleton.mp new]
        exact fresh
    · exact sound.fetches
    · exact sound.resumes
    · exact sound.held
    · exact sound.deferred

theorem Sound.refresh (sound : world.Sound) (valid : path.IsValid) :
    (world.refresh id path).2.Continues world := by
  have settled : ∀ outcome, (world.settledToken outcome).2.Continues world :=
    fun outcome => sound.of_quiet (quiet_settledToken world outcome)
  unfold World.refresh
  split
  · exact settled _
  · split
    · exact settled _
    · exact settled _
    · split
      · exact settled _
      · have sameTree := world.connection.sameTree_acquire world.now
        have acquired : world.acquire.2.Continues world := sound.connect sameTree
        split
        next failure after answered =>
          rw [answered] at acquired
          apply acquired.of_quiet
          simp
        next session after answered =>
          rw [answered] at acquired
          have added : ((after.addChannel {}).2.addRefresh id path
              (some (after.addChannel {}).1)).2.Continues world := acquired.of_quiet (by simp)
          exact (added.sound.spawn valid).trans added

theorem Sound.refreshAll (sound : world.Sound) (id : CacheId) :
    (world.refreshAll id).2.Continues world := by
  unfold World.refreshAll
  cases found : world.caches[id]? with
  | none => exact sound.of_quiet (quiet_settledToken world _)
  | some cache => exact sound.refresh (sound.caches id cache found).base

theorem Sound.start (sound : world.Sound) (id : CacheId) :
    (world.start id).2.Continues world := by
  unfold World.start
  cases found : world.caches[id]? with
  | none => exact sound.refl
  | some cache =>
      simp only
      split
      · exact sound.refl
      · split
        · exact sound.refl
        · exact sound.refl
        · have registered : ({ world with
              connection := { world.connection with
                listeners := (world.connection.listeners.add id).2 } } : World).Continues world :=
            sound.connect ⟨rfl, rfl⟩
          have cacheSound : Cache.Sound
              { cache with
                phase := .started
                connected := world.connection.isConnected
                registration := some (world.connection.listeners.add id).1 }
              world.ensemble := (sound.caches id cache found).of_eq rfl rfl
          have stillFound : ({ world with
              connection := { world.connection with
                listeners := (world.connection.listeners.add id).2 } } : World).caches[id]? =
              some cache := found
          have started := (registered.sound.setCache stillFound cacheSound rfl).trans registered
          split
          · exact (started.sound.refreshAll id).trans started
          · exact started.of_quiet (quiet_settledToken _ _)

theorem Sound.setStore (sound : world.Sound) (found : world.caches[id]? = some cache)
    {store : Store} (cacheSound : Cache.Sound { cache with store } world.ensemble) :
    (world.setCache id { cache with store }).Continues world :=
  sound.setCache found cacheSound rfl

theorem Sound.closeCache (sound : world.Sound) (id : CacheId) :
    (world.closeCache id).Continues world := by
  unfold World.closeCache
  cases found : world.caches[id]? with
  | none => exact sound.refl
  | some cache =>
      simp only
      split
      · exact sound.refl
      · have left : ∀ listeners : Registry CacheId,
            ((({ world with connection := { world.connection with listeners } } : World).setCache id
              cache.close).enqueue (cache.feed.idle.map (Task.deliver id))).Continues world := by
          intro listeners
          have kept : ({ world with connection := { world.connection with listeners } } :
              World).Continues world := sound.connect ⟨rfl, rfl⟩
          have known := sound.caches id cache found
          have closed : cache.close.Sound world.ensemble :=
            (known.within (Store.within_clear cache.store)
              (Store.fence_clear cache.store)).of_eq rfl rfl
          have stillFound : ({ world with connection := { world.connection with listeners } } :
              World).caches[id]? = some cache := found
          have changed := (kept.sound.setCache stillFound closed rfl).trans kept
          refine (changed.sound.enqueue ?_ ?_).trans changed
          · intro fetch member
            simp at member
          · intro visit answer member
            simp at member
        exact left _

theorem Sound.get (sound : world.Sound) (id : CacheId) (path : Path) :
    (world.get id path).2.Continues world := by
  unfold World.get
  cases found : world.caches[id]? with
  | none => exact sound.refl
  | some cache =>
      exact sound.setStore found ((sound.caches id cache found).within
        (Store.within_get cache.store world.now path) (Store.fence_get cache.store world.now path))

theorem Sound.clear (sound : world.Sound) (id : CacheId) (path : Path) :
    (world.clear id path).2.Continues world := by
  unfold World.clear
  cases found : world.caches[id]? with
  | none => exact sound.refl
  | some cache =>
      exact sound.setStore found ((sound.caches id cache found).within
        (Store.within_remove cache.store world.now path)
        (Store.fence_remove cache.store world.now path))

theorem Sound.clearAll (sound : world.Sound) (id : CacheId) :
    (world.clearAll id).Continues world := by
  apply sound.updateCache
  intro cache found
  exact ⟨(sound.caches id cache found).within (Store.within_clear cache.store)
    (Store.fence_clear cache.store), rfl⟩

theorem Sound.clearDataIf (sound : world.Sound) (id : CacheId) (path : Path) (version : Int) :
    (world.clearDataIf id path version).2.Continues world := by
  unfold World.clearDataIf
  cases found : world.caches[id]? with
  | none => exact sound.refl
  | some cache =>
      have known := sound.caches id cache found
      have fence := Store.fence_update cache.store world.now path fun node =>
        if World.matchesVersion version node then some node.withoutData else none
      have stillFits : ∀ old new, cache.store.peek world.now path = some old →
          cache.options.Fits world.ensemble path old →
          (if World.matchesVersion version old then some old.withoutData else none) = some new →
            cache.options.Fits world.ensemble path new := by
        intro old new _ fits changed
        split at changed
        · cases changed
          exact ⟨fits.valid, fits.isPath, fits.stored, fits.passed⟩
        · cases changed
      have keeps := known.entries.update world.now stillFits
      exact sound.setStore found
        { base := known.base
          entries := keeps
          remembers := known.remembers.of_fence fence
          policy := (congrArg Fence.policy fence).trans known.policy }

/-! ## Runs -/

theorem sound_ofConfig (config : ConnectionConfig) : (ofConfig config).Sound where
  remote := by
    refine ⟨List.nodup_singleton _, ?_, ?_⟩
    · intro path node found
      have isRoot : path = Path.root := by
        by_contra different
        simp [ofConfig, ensemble, Table.get?, Ne.symm different] at found
      exact isRoot ▸ Path.isValid_root
    · intro path node found
      have isRoot : path = Path.root := by
        by_contra different
        simp [ofConfig, ensemble, Table.get?, Ne.symm different] at found
      subst isRoot
      simp only [ofConfig, ensemble, Table.get?, if_true] at found
      cases found
      exact ⟨Int.le_refl _, Int.le_refl _⟩
  caches := by simp [ofConfig]
  fetches := by simp [ofConfig]
  resumes := by simp [ofConfig]
  held := by simp [ofConfig]
  deferred := by simp [ofConfig]

/-- Time alone changes nothing. -/
theorem Sound.later (sound : world.Sound) (now : Moment) :
    ({ world with now } : World).Continues world :=
  continues_of_parts (sound.remote.follows_of_eq rfl rfl)
    (fun _ cache found => ⟨cache, found, rfl⟩) sound.caches sound.fetches sound.resumes sound.held
    sound.deferred

theorem Sound.obey (sound : world.Sound) {command : Command} (valid : command.IsValid) :
    (world.obey command).Continues world := by
  cases command with
  | create path data owner => exact sound.create (valid path rfl) data owner
  | setData path data => exact sound.setData (valid path rfl) data
  | delete path => exact sound.delete (valid path rfl)
  | replaceSilently path data => exact sound.setEnsemble (sound.remote.replaceSilently path data)
  | failReads path => exact sound.setTree ⟨rfl, rfl⟩
  | healReads path => exact sound.setTree ⟨rfl, rfl⟩
  | refuseSessions refusing => exact sound.setTree ⟨rfl, rfl⟩
  | announce state => exact sound.announce state
  | expireSessions => exact sound.expireSessions
  | hold path => exact sound.setTree ⟨rfl, rfl⟩
  | release hold => exact sound.release hold
  | step => exact sound.step
  | round => exact sound.round
  | advance span =>
      have later := sound.later (world.now + span)
      exact later.sound.round.trans later
  | occur event => exact sound.occur valid
  | startConnection => exact sound.connect (world.connection.sameTree_openSession world.now)
  | acquire => exact sound.connect (world.connection.sameTree_acquire world.now)
  | closeConnection => exact sound.connect (world.connection.sameTree_close world.now)
  | pollFailure => exact sound.connect ⟨rfl, rfl⟩
  | readCounters => exact sound.connect ⟨rfl, rfl⟩
  | build path calls => exact sound.build path calls
  | start cache => exact sound.start cache
  | closeCache cache => exact sound.closeCache cache
  | refresh cache path => exact sound.refresh (valid path rfl)
  | refreshAll cache => exact sound.refreshAll cache
  | readToken token => exact sound.of_quiet (quiet_readToken world token)
  | cancelToken token => exact sound.of_quiet (quiet_updateChannel world token _)
  | listen cache listener => exact sound.of_quiet (quiet_listen world cache listener)
  | unlisten cache registration => exact sound.of_quiet (quiet_unlisten world cache registration)
  | onError cache listener => exact sound.of_quiet (quiet_onError world cache listener)
  | offError cache registration => exact sound.of_quiet (quiet_offError world cache registration)
  | get cache path => exact sound.get cache path
  | clear cache path => exact sound.clear cache path
  | clearAll cache => exact sound.clearAll cache
  | clearDataIf cache path version => exact sound.clearDataIf cache path version

theorem Sound.obeyAll (sound : world.Sound) {commands : List Command}
    (valid : ∀ command ∈ commands, command.IsValid) :
    (world.obeyAll commands).Continues world := by
  induction commands generalizing world with
  | nil => exact sound.refl
  | cons command others inductionHypothesis =>
      have first := sound.obey (valid command (by simp))
      have rest := inductionHypothesis first.sound fun other member => valid other (by simp [member])
      exact rest.trans first

/-- Every world that is reached over valid paths is sound. -/
theorem sound_of_reached (config : ConnectionConfig) {commands : List Command}
    (valid : ∀ command ∈ commands, command.IsValid) :
    ((ofConfig config).obeyAll commands).Sound :=
  ((sound_ofConfig config).obeyAll valid).sound

end World

end WatchedTree
