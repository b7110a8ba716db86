import WatchedTree.Proofs.Cache.Reconcile
import WatchedTree.Proofs.Ensemble.Watches
import WatchedTree.Proofs.World.Quiet

/-!
# One fetch from begin to end

What a fetch does to the quiet part of a world when nothing stands in the way of its reads: how it
leaves the ensemble, the store of its cache, and which fetches it queues.
-/
namespace WatchedTree

/-- The node that a visit makes of what it has read. -/
def Visit.gathered (visit : Visit) (stat : Option Stat) (data : Option Payload)
    (names : List Text) : Node :=
  { path := visit.path, stat, data
    children := if visit.action.wantsChildren then some names else none }

/-- The names of the children as the cache is given them. -/
def Cache.listing (cache : Cache) (ensemble : Ensemble) (path : Path) : List Text :=
  if cache.options.sortChildren then Text.sort (ensemble.childNames path)
  else ensemble.childNames path

theorem Action.wantsStat_of_wantsData (action : Action) (wantsData : action.wantsData = true) :
    action.wantsStat = true := by
  cases action <;> first | rfl | cases wantsData

/-- What is kept of a node is read. -/
theorem Action.not_isStored_of_no_reads (action : Action) (noStat : action.wantsStat = false)
    (noChildren : action.wantsChildren = false) : action.isStored = false := by
  cases action with
  | notStored => rfl
  | statOnly | statAndData | statDataAndChildren => cases noStat
  | childrenOnly => cases noChildren

namespace World

variable {world : World} {id : CacheId} {cache : Cache}

/-! ## Caches in place -/

@[simp] theorem setCache_setCache (world : World) (id : CacheId) (first second : Cache) :
    (world.setCache id first).setCache id second = world.setCache id second := by
  simp [setCache]

@[simp] theorem updateCache_setCache (world : World) (id : CacheId) (cache : Cache)
    (change : Cache → Cache) :
    (world.setCache id cache).updateCache id change = world.setCache id (change cache) := by
  have same : (world.caches.set id cache).modify id change = world.caches.set id (change cache) := by
    apply List.ext_getElem?
    intro index
    rw [List.getElem?_modify, List.getElem?_set, List.getElem?_set]
    by_cases isId : id = index
    · by_cases inRange : index < world.caches.length
      · simp [isId, inRange]
      · simp [isId, inRange]
    · simp [isId]
  simp [setCache, updateCache, same]

theorem getElem?_setCache (found : world.caches[id]? = some cache) (other : Cache) :
    (world.setCache id other).caches[id]? = some other := by
  obtain ⟨inRange, _⟩ := List.getElem?_eq_some_iff.mp found
  simp [setCache, inRange]

theorem setCache_self (found : world.caches[id]? = some cache) :
    world.setCache id cache = world := by
  have same : world.caches.set id cache = world.caches := by
    apply List.ext_getElem?
    intro index
    rw [List.getElem?_set]
    by_cases isId : id = index
    · obtain ⟨inRange, rfl⟩ := List.getElem?_eq_some_iff.mp found
      subst isId
      simp [inRange]
    · simp [isId]
  rw [setCache, same]

theorem exists_of_quiet {after : World} {quietCache : Cache}
    (quietWorld : after.quiet.caches[id]? = some quietCache) :
    ∃ other, after.caches[id]? = some other ∧ other.quiet = quietCache := by
  rw [quiet_getElem?] at quietWorld
  exact Option.map_eq_some_iff.mp quietWorld

theorem quiet_found (found : world.caches[id]? = some cache) :
    world.quiet.caches[id]? = some cache.quiet := by
  rw [quiet_getElem?, found, Option.map_some]

theorem exists_of_removeSubtree {id : CacheId} (found : world.caches[id]? = some cache)
    (path : Path) :
    ∃ other, (world.removeSubtree id path).caches[id]? = some other ∧
      other.quiet = (cache.quiet.removeSubtree world.now path).2 := by
  apply exists_of_quiet
  rw [quiet_removeSubtree, ← setCache_eq_updateCache _ (quiet_found found)]
  exact getElem?_setCache (quiet_found found) _

theorem accepts_of_started (found : world.caches[id]? = some cache)
    (isStarted : cache.phase = .started) : world.accepts id = true := by
  simp [accepts, found, isStarted]

@[simp] theorem updateCache_enqueue (world : World) (tasks : List Task) (id : CacheId)
    (change : Cache → Cache) :
    (world.enqueue tasks).updateCache id change = (world.updateCache id change).enqueue tasks :=
  rfl

@[simp] theorem setEnsemble_setCache (world : World) (id : CacheId) (cache : Cache)
    (ensemble : Ensemble) :
    (world.setCache id cache).setEnsemble ensemble = (world.setEnsemble ensemble).setCache id cache :=
  rfl

/-! ## Commit and reconciliation -/

theorem quiet_commit {visit : Visit} (found : world.caches[visit.cache]? = some cache)
    (node : Node) :
    (world.commit visit node).quiet =
      world.quiet.setCache visit.cache
        (cache.quiet.received world.now visit.action node visit.epoch) := by
  have sameCommit : (cache.commit world.now node visit.epoch).2.quiet =
      (cache.quiet.commit world.now node visit.epoch).2 := by
    unfold Cache.commit
    rw [Cache.quiet_isClosed]
    split <;> rfl
  unfold commit Cache.received
  by_cases isStored : visit.action.isStored = true
  · simp only [isStored, found, ← sameCommit]
    simp
  · rw [if_neg isStored, setCache_self (quiet_found found)]
    simp [isStored]

theorem removeSubtrees_quiet (now : Moment) (paths : List Path) (cache : Cache) :
    (Cache.removeSubtrees now paths cache.quiet).1 = (Cache.removeSubtrees now paths cache).1 ∧
      (Cache.removeSubtrees now paths cache.quiet).2 =
        (Cache.removeSubtrees now paths cache).2.quiet := by
  induction paths generalizing cache with
  | nil => exact ⟨rfl, rfl⟩
  | cons path others inductionHypothesis =>
      obtain ⟨events, after⟩ := inductionHypothesis (cache.removeSubtree now path).2
      rw [Cache.removeSubtrees, Cache.removeSubtrees]
      exact ⟨congrArg (_ ++ ·) events, after⟩

theorem quiet_reconcileChildren {visit : Visit}
    (found : world.caches[visit.cache]? = some cache) (isStarted : cache.phase = .started)
    (names : List Text) :
    (world.reconcileChildren visit names).quiet =
      let after := (Cache.removeSubtrees world.now
        (cache.vanished world.now visit.path names) cache.quiet).2
      (world.quiet.setCache visit.cache after).enqueue
        ((after.wantedChildren world.now visit.fetch.full visit.path names).map
          fun path => .fetch { visit.fetch with path }) := by
  unfold reconcileChildren
  simp only [found]
  rw [(removeSubtrees_quiet world.now (cache.vanished world.now visit.path names) cache).2]
  have removal := Cache.removeSubtrees_eq cache world.now
    (cache.vanished world.now visit.path names)
  generalize Cache.removeSubtrees world.now (cache.vanished world.now visit.path names) cache =
    outcome at removal ⊢
  have phase : outcome.2.phase = .started := by rw [removal, isStarted]
  have told : ((world.setCache visit.cache outcome.2).dispatchAll visit.cache outcome.1).quiet =
      world.quiet.setCache visit.cache outcome.2.quiet := by simp
  have accepted : ((world.setCache visit.cache outcome.2).dispatchAll visit.cache
      outcome.1).accepts visit.cache = true := by
    have same : ((world.setCache visit.cache outcome.2).dispatchAll visit.cache outcome.1).quiet =
        (world.setCache visit.cache outcome.2).quiet := by simp
    rw [accepts_of_quiet same]
    exact accepts_of_started (getElem?_setCache found _) phase
  have sameCache : ∀ fetch ∈ (outcome.2.wantedChildren world.now visit.fetch.full visit.path
      names).map (fun path => { visit.fetch with path }), fetch.cache = visit.cache := by
    intro fetch member
    obtain ⟨path, _, rfl⟩ := List.mem_map.mp member
    rfl
  rw [quiet_spawnAll sameCache, if_pos accepted, told, List.map_map]
  rfl

/-- What follows the commit of a visit that found its node. -/
theorem quiet_followUp {committed : World} {visit : Visit}
    (found : committed.caches[visit.cache]? = some cache) (isStarted : cache.phase = .started)
    (names : List Text) :
    (if visit.traverse && !cache.store.deletedSince visit.path visit.epoch then
        (committed.reconcileChildren visit names).endVisit visit none
      else committed.endVisit visit none).quiet =
      if visit.traverse && !cache.store.deletedSince visit.path visit.epoch then
        let after := cache.quiet.reconciled committed.now visit.path names
        (committed.quiet.setCache visit.cache (after.ended visit.epoch)).enqueue
          ((after.wantedChildren committed.now visit.fetch.full visit.path names).map
            fun path => .fetch { visit.fetch with path })
      else committed.quiet.setCache visit.cache (cache.quiet.ended visit.epoch) := by
  have inPlace := quiet_found found
  split
  · rw [quiet_endVisit, quiet_reconcileChildren found isStarted]
    simp only [updateCache_enqueue, updateCache_setCache]
    rfl
  · rw [quiet_endVisit, ← setCache_eq_updateCache _ inPlace]
    rfl

theorem visitRead_some (world : World) (visit : Visit) (stat : Option Stat)
    (data : Option Payload) (names : List Text) :
    world.visitRead visit stat data (some names) =
      match (world.commit visit (visit.gathered stat data names)).caches[visit.cache]? with
      | none => (world.commit visit (visit.gathered stat data names)).endVisit visit none
      | some cache =>
        if visit.traverse && !cache.store.deletedSince visit.path visit.epoch then
          ((world.commit visit (visit.gathered stat data names)).reconcileChildren visit
            names).endVisit visit none
        else (world.commit visit (visit.gathered stat data names)).endVisit visit none := by
  unfold visitRead Visit.gathered
  simp only
  generalize world.commit visit _ = committed
  cases committed.caches[visit.cache]? <;> rfl

theorem visitRead_none (world : World) (visit : Visit) (stat : Option Stat)
    (data : Option Payload) :
    world.visitRead visit stat data none =
      (world.commit visit { path := visit.path, stat, data }).endVisit visit none := by
  unfold visitRead
  simp only [ite_self]
  split <;> simp_all

theorem quiet_visitRead_some {visit : Visit} (found : world.caches[visit.cache]? = some cache)
    (isStarted : cache.phase = .started) (stat : Option Stat) (data : Option Payload)
    (names : List Text) :
    (world.visitRead visit stat data (some names)).quiet =
      let kept := cache.quiet.received world.now visit.action
        (visit.gathered stat data names) visit.epoch
      if visit.traverse && !kept.store.deletedSince visit.path visit.epoch then
        let after := kept.reconciled world.now visit.path names
        (world.quiet.setCache visit.cache (after.ended visit.epoch)).enqueue
          ((after.wantedChildren world.now visit.fetch.full visit.path names).map
            fun path => .fetch { visit.fetch with path })
      else world.quiet.setCache visit.cache (kept.ended visit.epoch) := by
  have committed := quiet_commit found (visit.gathered stat data names)
  rw [visitRead_some]
  generalize world.commit visit (visit.gathered stat data names) = after at committed ⊢
  have keptPhase : (cache.quiet.received world.now visit.action
      (visit.gathered stat data names) visit.epoch).phase = .started := by simp [isStarted]
  generalize cache.quiet.received world.now visit.action (visit.gathered stat data names)
    visit.epoch = kept at committed keptPhase ⊢
  have now : after.quiet.now = world.now := by
    rw [committed]
    rfl
  rw [quiet_now] at now
  have inPlace : after.quiet.caches[visit.cache]? = some kept := by
    rw [committed]
    exact getElem?_setCache (quiet_found found) kept
  obtain ⟨other, otherFound, rfl⟩ := exists_of_quiet inPlace
  simp only [otherFound]
  rw [quiet_followUp otherFound keptPhase, committed, now]
  simp only [setCache_setCache]
  rfl

theorem quiet_visitRead_none (world : World) (visit : Visit)
    (found : world.caches[visit.cache]? = some cache)
    (stat : Option Stat) (data : Option Payload) :
    (world.visitRead visit stat data none).quiet =
      world.quiet.setCache visit.cache
        ((cache.quiet.received world.now visit.action { path := visit.path, stat, data }
          visit.epoch).ended visit.epoch) := by
  rw [visitRead_none, quiet_endVisit, quiet_commit found, updateCache_setCache]
  rfl

/-- All that follows the reads of a visit that found its node. -/
theorem quiet_visitRead (world : World) (visit : Visit)
    (found : world.caches[visit.cache]? = some cache)
    (isStarted : cache.phase = .started) (stat : Option Stat) (data : Option Payload)
    (names : List Text) :
    (world.visitRead visit stat data
        (if visit.action.wantsChildren || visit.traverse then some names else none)).quiet =
      let kept := cache.quiet.received world.now visit.action
        (visit.gathered stat data names) visit.epoch
      if visit.traverse && !kept.store.deletedSince visit.path visit.epoch then
        let after := kept.reconciled world.now visit.path names
        (world.quiet.setCache visit.cache (after.ended visit.epoch)).enqueue
          ((after.wantedChildren world.now visit.fetch.full visit.path names).map
            fun path => .fetch { visit.fetch with path })
      else world.quiet.setCache visit.cache (kept.ended visit.epoch) := by
  by_cases lists : (visit.action.wantsChildren || visit.traverse) = true
  · rw [if_pos lists]
    exact quiet_visitRead_some found isStarted stat data names
  · rw [if_neg lists]
    simp only [Bool.or_eq_true, not_or, Bool.not_eq_true] at lists
    rw [quiet_visitRead_none world visit found]
    simp [Visit.gathered, lists.1, lists.2]

/-! ## The reads of a visit -/

theorem visitChildren_of_present (world : World) {visit : Visit}
    (found : world.caches[visit.cache]? = some cache)
    (answers : world.ensemble.Answers visit.session visit.path) {node : RemoteNode}
    (present : world.ensemble.nodes.get? visit.path = some node)
    (stat : Option Stat) (data : Option Payload) :
    world.visitChildren visit stat data =
      (world.setEnsemble (world.ensemble.listed visit.session visit.path
        (visit.action.wantsChildren || visit.traverse))).visitRead visit stat data
          (if visit.action.wantsChildren || visit.traverse then
            some (cache.listing world.ensemble visit.path)
          else none) := by
  unfold visitChildren Ensemble.listed
  have lookup := Ensemble.readChildren_of_answers_some answers present
  cases listsKept : visit.action.wantsChildren with
  | true => simp [lookup, found, Cache.listing]
  | false =>
      cases follows : visit.traverse with
      | true => simp [lookup, found, Cache.listing]
      | false => simp [setEnsemble, ensemble]

/-- The reads of a visit that finds its node, and what it goes on with. -/
theorem beginVisit_of_present (world : World) (visit : Visit)
    (found : world.caches[visit.cache]? = some cache)
    (answers : world.ensemble.Answers visit.session visit.path) {node : RemoteNode}
    (present : world.ensemble.nodes.get? visit.path = some node) :
    world.beginVisit visit =
      (world.setEnsemble (world.ensemble.surveyed visit.session visit.path visit.action
        visit.traverse)).visitRead visit
          (if visit.action.wantsStat then some node.stat else none)
          (if visit.action.wantsData then some node.data else none)
          (if visit.action.wantsChildren || visit.traverse then
            some (cache.listing world.ensemble visit.path)
          else none) := by
  unfold beginVisit Ensemble.surveyed
  by_cases wantsData : visit.action.wantsData = true
  · have wantsStat := visit.action.wantsStat_of_wantsData wantsData
    have taken : ((world.setEnsemble ((world.ensemble.taken visit.path).arm visit.session .data
        visit.path)).ensemble).Answers visit.session visit.path := answers.taken.arm
    have goesOn := visitChildren_of_present (world.setEnsemble
      ((world.ensemble.taken visit.path).arm visit.session .data visit.path)) found taken present
      (some node.stat) (some node.data)
    simp only [wantsData, wantsStat, if_true, visitData,
      Ensemble.readData_of_answers_some answers present]
    exact goesOn
  · by_cases wantsStat : visit.action.wantsStat = true
    · have counted : ((world.setEnsemble (world.ensemble.countRead.arm visit.session .data
          visit.path)).ensemble).Answers visit.session visit.path := answers.countRead.arm
      have goesOn := visitChildren_of_present (world.setEnsemble
        (world.ensemble.countRead.arm visit.session .data visit.path)) found counted present
        (some node.stat) none
      simp only [wantsData, wantsStat, if_true, Ensemble.readStat_of_answers answers, present,
        Option.map_some]
      exact goesOn
    · have goesOn := visitChildren_of_present world found answers present none none
      simp only [wantsData, wantsStat]
      exact goesOn

/-- A visit that has something to read and finds no node. -/
theorem beginVisit_of_absent (world : World) (visit : Visit)
    (answers : world.ensemble.Answers visit.session visit.path)
    (absent : world.ensemble.nodes.get? visit.path = none)
    (reads : (visit.action.wantsStat || visit.action.wantsChildren || visit.traverse) = true) :
    world.beginVisit visit =
      (world.setEnsemble (world.ensemble.missed visit.session visit.path
        visit.action)).visitAbsent visit := by
  unfold beginVisit Ensemble.missed
  by_cases wantsData : visit.action.wantsData = true
  · simp only [wantsData, if_true, visitData, visitFault,
      Ensemble.readData_of_answers_none answers absent, TransportFault.isNoNode]
  · by_cases wantsStat : visit.action.wantsStat = true
    · simp only [wantsData, wantsStat, if_true, Ensemble.readStat_of_answers answers, absent,
        Option.map_none]
      rfl
    · have lists : (!visit.action.wantsChildren && !visit.traverse) = false := by
        simp only [wantsStat, Bool.false_or] at reads
        rw [← Bool.not_or, reads]
        rfl
      simp only [wantsData, wantsStat, visitChildren, lists,
        Ensemble.readChildren_of_answers_none answers absent, visitFault,
        TransportFault.isNoNode, if_true]
      rfl

/-- A visit that has nothing to read. -/
theorem beginVisit_of_no_reads (world : World) (visit : Visit)
    (noStat : visit.action.wantsStat = false)
    (noChildren : visit.action.wantsChildren = false) (noTraversal : visit.traverse = false) :
    world.beginVisit visit = world.visitRead visit none none none := by
  have noData : visit.action.wantsData = false := by
    by_contra wantsData
    rw [visit.action.wantsStat_of_wantsData (eq_true_of_ne_false wantsData)] at noStat
    cases noStat
  unfold beginVisit visitChildren
  simp [noData, noStat, noChildren, noTraversal]

/-- A visit that found no node, where the node is still missing. -/
theorem visitAbsent_of_absent (world : World) (visit : Visit)
    (found : world.caches[visit.cache]? = some cache)
    (answers : world.ensemble.Answers visit.session visit.path)
    (absent : world.ensemble.nodes.get? visit.path = none) :
    world.visitAbsent visit =
      ((world.removeSubtree visit.cache visit.path).setEnsemble
        (if visit.path = cache.options.basePath then
          world.ensemble.countRead.arm visit.session .data visit.path
        else world.ensemble)).endVisit visit none := by
  obtain ⟨other, otherFound, isOther⟩ := exists_of_removeSubtree found visit.path
  have basePath : other.options.basePath = cache.options.basePath := by
    have options := congrArg Cache.options isOther
    rw [Cache.quiet_options] at options
    rw [options]
    rfl
  have remote : (world.removeSubtree visit.cache visit.path).ensemble = world.ensemble := by
    rw [← quiet_ensemble, quiet_removeSubtree]
    rfl
  unfold visitAbsent
  simp only [otherFound, basePath]
  by_cases isBase : visit.path = cache.options.basePath
  · rw [if_neg (not_not.mpr isBase), if_pos isBase]
    rw [remote, Ensemble.readStat_of_answers answers, absent]
    rfl
  · rw [if_pos isBase, if_neg isBase, ← remote]
    rfl

theorem quiet_visitAbsent (world : World) (visit : Visit)
    (found : world.caches[visit.cache]? = some cache)
    (answers : world.ensemble.Answers visit.session visit.path)
    (absent : world.ensemble.nodes.get? visit.path = none) :
    (world.visitAbsent visit).quiet =
      (world.quiet.setEnsemble
        (if visit.path = cache.options.basePath then
          world.ensemble.countRead.arm visit.session .data visit.path
        else world.ensemble)).setCache visit.cache
          ((cache.quiet.removeSubtree world.now visit.path).2.ended visit.epoch) := by
  have removed := quiet_removeSubtree world visit.cache visit.path
  rw [← setCache_eq_updateCache _ (quiet_found found)] at removed
  rw [visitAbsent_of_absent world visit found answers absent, quiet_endVisit, quiet_setEnsemble,
    removed, setEnsemble_setCache, updateCache_setCache]
  rfl

/-! ## Whole fetches -/

/-- A fetch that is at its turn: its cache is started and covers the path, a session is at hand,
and no read of the path fails or is held back. -/
structure Ready (world : World) (fetch : Fetch) (cache : Cache) (action : Action)
    (traverse : Bool) (session : SessionId)
    (connection : Connection Ensemble CacheId) : Prop where
  found : world.caches[fetch.cache]? = some cache
  isStarted : cache.phase = .started
  scope : cache.scope fetch.path = some (action, traverse)
  acquired : world.connection.acquire world.now = (.ok session, connection)
  answers : connection.remote.Answers session fetch.path
  remembers : cache.store.Remembers

variable {fetch : Fetch} {action : Action} {traverse : Bool} {session : SessionId}
  {connection : Connection Ensemble CacheId}

/-- The visit that a fetch begins. -/
def visitOf (fetch : Fetch) (cache : Cache) (action : Action) (traverse : Bool)
    (session : SessionId) : Visit :=
  { fetch, session, epoch := cache.store.epoch, action, traverse }

/-- The world in which the visit of a fetch makes its reads. -/
def visiting (world : World) (fetch : Fetch) (cache : Cache)
    (connection : Connection Ensemble CacheId) : World :=
  ({ world with connection }).setCache fetch.cache cache.begun

/-- The world with the ensemble that the reads of a visit left behind. -/
def observing (world : World) (connection : Connection Ensemble CacheId) (remote : Ensemble) :
    World :=
  { world with connection := { connection with remote } }

theorem quiet_visiting (world : World) (fetch : Fetch) (cache : Cache)
    (connection : Connection Ensemble CacheId) (remote : Ensemble) (after : Cache) :
    ((world.visiting fetch cache connection).setEnsemble remote).quiet.setCache fetch.cache after =
      (world.quiet.observing connection remote).setCache fetch.cache after := by
  rw [quiet_setEnsemble, visiting, quiet_setCache, setEnsemble_setCache, setCache_setCache]
  rfl

theorem runFetch_of_acquired (found : world.caches[fetch.cache]? = some cache)
    (isStarted : cache.phase = .started) (scope : cache.scope fetch.path = some (action, traverse))
    (acquired : world.connection.acquire world.now = (.ok session, connection)) :
    world.runFetch fetch =
      (world.visiting fetch cache connection).beginVisit
        (visitOf fetch cache action traverse session) := by
  have opened : cache.isClosed = false := by simp [Cache.isClosed, isStarted]
  unfold World.runFetch
  simp only [found, opened, scope, acquired]
  rfl

theorem Ready.runFetch
    (ready : world.Ready fetch cache action traverse session connection) :
    world.runFetch fetch =
      (world.visiting fetch cache connection).beginVisit
        (visitOf fetch cache action traverse session) :=
  runFetch_of_acquired ready.found ready.isStarted ready.scope ready.acquired

theorem Ready.visiting_found
    (ready : world.Ready fetch cache action traverse session connection) :
    (world.visiting fetch cache connection).caches[fetch.cache]? =
      some cache.begun := by
  have found : ({ world with connection } : World).caches[fetch.cache]? = some cache := ready.found
  exact getElem?_setCache found _

/-- The cache after a fetch that found its node, and before the fetch has ended. -/
def visited (cache : Cache) (now : Moment) (action : Action) (traverse : Bool) (node : Node)
    (names : List Text) : Cache :=
  let kept := cache.begun.received now action node cache.store.epoch
  if traverse then kept.reconciled now node.path names else kept

/-- The node that a fetch makes of a remote node. -/
def nodeOf (path : Path) (action : Action) (remote : RemoteNode) (names : List Text) : Node :=
  { path
    stat := if action.wantsStat then some remote.stat else none
    data := if action.wantsData then some remote.data else none
    children := if action.wantsChildren then some names else none }

/-- A fetch that finds its node keeps it, brings the cache in line with the children, and queues
the fetches of those that are wanted. -/
theorem Ready.quiet_runFetch_of_present
    (ready : world.Ready fetch cache action traverse session connection) {remote : RemoteNode}
    (present : connection.remote.nodes.get? fetch.path = some remote) :
    (world.runFetch fetch).quiet =
      let names := cache.listing connection.remote fetch.path
      let after := visited cache.quiet world.now action traverse
        (nodeOf fetch.path action remote names) names
      ((world.quiet.observing connection
          (connection.remote.surveyed session fetch.path action traverse)).setCache fetch.cache
            (after.ended cache.store.epoch)).enqueue
        (if traverse then
          (after.wantedChildren world.now fetch.full fetch.path names).map
            fun path => .fetch { fetch with path }
        else []) := by
  have inPlace := ready.visiting_found
  have begun := beginVisit_of_present (world.visiting fetch cache connection)
    (visitOf fetch cache action traverse session) inPlace ready.answers present
  have read := quiet_visitRead ((world.visiting fetch cache connection).setEnsemble
    (connection.remote.surveyed session fetch.path action traverse))
    (visitOf fetch cache action traverse session) inPlace ready.isStarted
    (if action.wantsStat then some remote.stat else none)
    (if action.wantsData then some remote.data else none)
    (cache.listing connection.remote fetch.path)
  have remembers : cache.quiet.store.Remembers := ready.remembers
  have free := Cache.deletedSince_received remembers world.now action
    (nodeOf fetch.path action remote (cache.listing connection.remote fetch.path)) fetch.path
  rw [ready.runFetch, begun]
  refine read.trans ?_
  cases traverse with
  | true =>
      refine (if_pos ?_).trans ?_
      · change (!(cache.quiet.begun.received _ _ _ _).store.deletedSince _ _) = true
        exact (congrArg not free).trans rfl
      · exact congrArg (fun after => enqueue after _) (quiet_visiting world fetch cache _ _ _)
  | false =>
      refine (if_neg ?_).trans ?_
      · exact Bool.false_ne_true
      · exact (quiet_visiting world fetch cache _ _ _).trans (enqueue_nil _).symm

/-- After the reads that found no node, the path still answers, and there is still no node. -/
theorem Ready.missed
    (ready : world.Ready fetch cache action traverse session connection)
    (absent : connection.remote.nodes.get? fetch.path = none) :
    (connection.remote.missed session fetch.path action).Answers session fetch.path ∧
      (connection.remote.missed session fetch.path action).nodes.get? fetch.path = none := by
  refine ⟨ready.answers.missed action, ?_⟩
  rw [(Ensemble.sameTree_missed _ _ _ _).1]
  exact absent

/-- A fetch that finds no node drops what its path covers, and watches for the base. -/
theorem Ready.quiet_runFetch_of_absent
    (ready : world.Ready fetch cache action traverse session connection)
    (absent : connection.remote.nodes.get? fetch.path = none)
    (reads : (action.wantsStat || action.wantsChildren || traverse) = true) :
    (world.runFetch fetch).quiet =
      let missed := connection.remote.missed session fetch.path action
      (world.quiet.observing connection
        (if fetch.path = cache.options.basePath then
          missed.countRead.arm session .data fetch.path
        else missed)).setCache fetch.cache
          ((cache.quiet.begun.removeSubtree world.now fetch.path).2.ended cache.store.epoch) := by
  have begun := beginVisit_of_absent (world.visiting fetch cache connection)
    (visitOf fetch cache action traverse session) ready.answers absent reads
  obtain ⟨answers, still⟩ := ready.missed absent
  have dropped := quiet_visitAbsent ((world.visiting fetch cache connection).setEnsemble
    (connection.remote.missed session fetch.path action))
    (visitOf fetch cache action traverse session) ready.visiting_found answers still
  rw [ready.runFetch, begun]
  refine dropped.trans ?_
  rw [← quiet_setEnsemble]
  exact quiet_visiting world fetch cache connection _ _

/-- A fetch that has nothing to read changes nothing but the count of open fetches. -/
theorem Ready.quiet_runFetch_of_no_reads
    (ready : world.Ready fetch cache action traverse session connection)
    (noStat : action.wantsStat = false) (noChildren : action.wantsChildren = false)
    (noTraversal : traverse = false) :
    (world.runFetch fetch).quiet =
      ({ world.quiet with connection } : World).setCache fetch.cache
        (cache.quiet.begun.ended cache.store.epoch) := by
  have notStored := action.not_isStored_of_no_reads noStat noChildren
  have begun := beginVisit_of_no_reads (world.visiting fetch cache connection)
    (visitOf fetch cache action traverse session) noStat noChildren noTraversal
  have read := quiet_visitRead_none (world.visiting fetch cache connection)
    (visitOf fetch cache action traverse session) ready.visiting_found none none
  have unchanged : ∀ node, cache.quiet.begun.received world.now action node cache.store.epoch =
      cache.quiet.begun := by
    intro node
    rw [Cache.received, notStored]
    rfl
  rw [ready.runFetch, begun]
  refine read.trans ?_
  refine (quiet_visiting world fetch cache connection connection.remote _).trans ?_
  exact congrArg (fun after : Cache => setCache _ fetch.cache (after.ended cache.store.epoch))
    (unchanged _)

end World

end WatchedTree
