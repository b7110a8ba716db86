import WatchedTree.Proofs.Ensemble.Tree
import WatchedTree.Proofs.World.Script

/-!
# Caches that hold themselves cut off

A cache that was told that the connection is gone holds to it until it is told that there is one
again. Nothing else makes it believe so: neither what its fetches find, nor what its user does.
-/
namespace WatchedTree

/-- Holds of the events that tell of a connection. -/
def Event.reconnects (event : Event) : Bool := event.isSession && event.state == .syncConnected

/-- Holds of the incidents that may tell caches of a connection. -/
def Incident.reconnects : Incident → Bool
  | .command (.announce state) _ => state == .syncConnected
  | .command (.occur event) _ => event.reconnects
  | _ => false

/-- Holds of the caches that will refresh their base as soon as they are told of a connection, and
of those that never will do anything again. -/
def Cache.IsCutOff (cache : Cache) : Prop :=
  cache.phase = .closed ∨ cache.phase = .started ∧ cache.connected = false

theorem Event.reconnects_ofNode {kind : EventKind} (isNode : kind ≠ .session) (path : Path) :
    (Event.ofNode kind path).reconnects = false := by
  cases kind with
  | session => exact absurd rfl isNode
  | created | deleted | dataChanged | childrenChanged => rfl

namespace World

variable {world first second third : World} {id : CacheId} {cache : Cache} {refresh : RefreshId}
  {event : Event}

def IsCutOff (world : World) (id : CacheId) : Prop :=
  ∃ cache, world.caches[id]? = some cache ∧ cache.IsCutOff

/-- Whoever was cut off still is. -/
def StaysCutOff (after before : World) : Prop := ∀ id, before.IsCutOff id → after.IsCutOff id

theorem StaysCutOff.refl (world : World) : world.StaysCutOff world := fun _ cutOff => cutOff

theorem StaysCutOff.trans (left : second.StaysCutOff first) (right : third.StaysCutOff second) :
    third.StaysCutOff first := fun id cutOff => right id (left id cutOff)

theorem staysCutOff_of_caches (same : second.caches = first.caches) :
    second.StaysCutOff first := by
  intro id cutOff
  obtain ⟨cache, found, isCutOff⟩ := cutOff
  exact ⟨cache, same ▸ found, isCutOff⟩

theorem staysCutOff_of_quiet (same : second.quiet.caches = first.quiet.caches) :
    second.StaysCutOff first := by
  intro id cutOff
  obtain ⟨cache, found, isCutOff⟩ := cutOff
  obtain ⟨later, laterFound, alike⟩ := exists_of_quiet_caches same found
  refine ⟨later, laterFound, ?_⟩
  have phase : later.phase = cache.phase := Cache.phase_of_quiet alike
  have connected : later.quiet.connected = cache.quiet.connected := congrArg Cache.connected alike
  change later.phase = .closed ∨ later.phase = .started ∧ later.quiet.connected = false
  rw [phase, connected]
  exact isCutOff

theorem staysCutOff_setCache (found : world.caches[id]? = some cache) {after : Cache}
    (stays : cache.IsCutOff → after.IsCutOff) : (world.setCache id after).StaysCutOff world := by
  intro other cutOff
  obtain ⟨held, heldFound, isCutOff⟩ := cutOff
  by_cases isId : other = id
  · subst isId
    rw [found] at heldFound
    cases heldFound
    exact ⟨after, getElem?_setCache found after, stays isCutOff⟩
  · refine ⟨held, ?_, isCutOff⟩
    rw [setCache, List.getElem?_set_ne (Ne.symm isId)]
    exact heldFound

theorem staysCutOff_foldl {Item : Type} {act : World → Item → World} {items : List Item}
    (stays : ∀ world, ∀ item ∈ items, (act world item).StaysCutOff world) (world : World) :
    (items.foldl act world).StaysCutOff world := by
  induction items generalizing world with
  | nil => exact .refl world
  | cons item others inductionHypothesis =>
      have rest := inductionHypothesis
        (fun world other member => stays world other (List.mem_cons_of_mem _ member))
      exact (stays world item List.mem_cons_self).trans (rest _)

theorem staysCutOff_dispatchAll (world : World) (id : CacheId) (events : List CacheEvent) :
    (world.dispatchAll id events).StaysCutOff world :=
  staysCutOff_of_quiet (congrArg caches (quiet_dispatchAll world id events))

theorem staysCutOff_spawn (world : World) (fetch : Fetch) :
    (world.spawn fetch).StaysCutOff world := staysCutOff_of_quiet (caches_quiet_spawn world fetch)

theorem staysCutOff_removeSubtrees (found : world.caches[id]? = some cache) (paths : List Path) :
    ((world.setCache id (Cache.removeSubtrees world.now paths cache).2).dispatchAll id
      (Cache.removeSubtrees world.now paths cache).1).StaysCutOff world := by
  have removed : (world.setCache id (Cache.removeSubtrees world.now paths cache).2).StaysCutOff
      world := by
    apply staysCutOff_setCache found
    rw [Cache.removeSubtrees_eq]
    exact fun isCutOff => isCutOff
  exact removed.trans (staysCutOff_dispatchAll _ id _)

/-! ## The run of a task -/

/-- Nothing that a fetch does tells its cache of a connection. -/
theorem Deed.staysCutOff {cleared : Option CacheId}
    (deed : first.Deed (some refresh) cleared second) : second.StaysCutOff first := by
  cases deed with
  | pass caches => exact staysCutOff_of_caches caches
  | keep found _ => exact staysCutOff_setCache found fun isCutOff => isCutOff
  | remove found paths => exact staysCutOff_removeSubtrees found paths
  | spawn fetch => exact staysCutOff_spawn first fetch

theorem Deeds.staysCutOff {cleared : Option CacheId}
    (deeds : first.Deeds (some refresh) cleared second) : second.StaysCutOff first := by
  induction deeds with
  | refl => exact .refl first
  | tail _ deed inductionHypothesis => exact inductionHypothesis.trans deed.staysCutOff

theorem Commits.staysCutOff (commits : first.Commits second) : second.StaysCutOff first := by
  rcases commits with rfl | ⟨id, cache, node, epoch, found, rfl⟩
  · exact .refl _
  · have committed : (first.setCache id (cache.commit first.now node epoch).2).StaysCutOff
        first := by
      apply staysCutOff_setCache found
      unfold Cache.commit
      split <;> exact fun isCutOff => isCutOff
    exact committed.trans (staysCutOff_dispatchAll _ id _)

theorem Handles.staysCutOff (handles : first.Handles refresh second) :
    second.StaysCutOff first := by
  obtain ⟨last, ⟨before, committed, earlier, _, commits, later⟩, ends⟩ := handles
  have courses := (earlier.staysCutOff.trans commits.staysCutOff).trans later.staysCutOff
  rcases ends with rfl | ⟨suspension, _, rfl⟩
  · exact courses.trans (staysCutOff_of_quiet (congrArg caches (quiet_countDown last refresh)))
  · exact courses

theorem staysCutOff_step (world : World) : world.step.StaysCutOff world := by
  cases queue : world.queue with
  | nil =>
      rw [step, queue]
      exact .refl world
  | cons task tasks =>
      have popped : ({ world with queue := tasks } : World).StaysCutOff world :=
        staysCutOff_of_caches rfl
      cases isFor : task.refresh? with
      | some refresh => exact popped.trans (handles_step queue isFor).staysCutOff
      | none =>
          cases task with
          | fetch | resume => cases isFor
          | deliver id subscriber =>
              rw [step, queue]
              exact popped.trans
                (staysCutOff_of_quiet (congrArg caches (quiet_deliver _ id subscriber)))

/-! ## Events -/

theorem staysCutOff_backgroundRefresh (world : World) (id : CacheId) (path : Path) (full : Bool) :
    (world.backgroundRefresh id path full).StaysCutOff world :=
  staysCutOff_spawn (world.addRefresh id path none).2 _

theorem staysCutOff_tell (quietly : event.reconnects = false) (id : CacheId) (world : World) :
    (tell event id world).StaysCutOff world := by
  unfold tell
  cases found : world.caches[id]? with
  | none => exact .refl world
  | some cache =>
      simp only
      split
      · exact .refl world
      · split
        next isSession =>
          have noted : (world.setCache id
              { cache with connected := event.state == .syncConnected }).StaysCutOff world := by
            apply staysCutOff_setCache found
            rintro (closed | ⟨isStarted, _⟩)
            · exact Or.inl closed
            · rw [Event.reconnects, isSession, Bool.true_and] at quietly
              exact Or.inr ⟨isStarted, quietly⟩
          split
          · exact noted.trans (staysCutOff_backgroundRefresh _ id _ true)
          · exact noted
        · split
          · exact .refl world
          next path _ =>
            split
            · exact .refl world
            · split
              · exact .refl world
              · exact staysCutOff_backgroundRefresh world id path true
              · exact staysCutOff_backgroundRefresh world id path false
              · exact staysCutOff_backgroundRefresh world id path false
              · have removed : (world.removeSubtree id path).StaysCutOff world := by
                  have single := staysCutOff_removeSubtrees found [path]
                  simp only [Cache.removeSubtrees, List.append_nil] at single
                  rw [removeSubtree, found]
                  exact single
                split
                · exact removed.trans (staysCutOff_backgroundRefresh _ id path true)
                · exact removed

theorem staysCutOff_forward (quietly : event.reconnects = false) (world : World) :
    (Connection.forward (·.connection) (tell event) world).StaysCutOff world := by
  have heard : ∀ told : World, (told.connection.listeners.snapshot.foldl
      (fun state id => tell event id state) told).StaysCutOff told :=
    fun told => staysCutOff_foldl (fun world id _ => staysCutOff_tell quietly id world) told
  unfold Connection.forward
  cases world.connection.observer with
  | none => exact heard world
  | some observer => exact (staysCutOff_tell quietly observer world).trans (heard _)

theorem staysCutOff_occur (quietly : event.reconnects = false) (world : World) :
    (world.occur event).StaysCutOff world := by
  have absorbed : ({ world with connection := world.connection.absorb world.now event } :
      World).StaysCutOff world := staysCutOff_of_caches rfl
  exact absorbed.trans (staysCutOff_forward quietly _)

theorem staysCutOff_deliverEvent {delivery : Delivery}
    (quietly : delivery.event.reconnects = false) (world : World) :
    (world.deliverEvent delivery).StaysCutOff world := by
  unfold deliverEvent
  split
  · exact staysCutOff_occur quietly world
  · exact .refl world

/-- Changes of the tree tell of nodes only. -/
theorem staysCutOff_change
    {attempt : Ensemble → Except TransportFault (List Delivery) × Ensemble}
    (quietly : ∀ deliveries, (attempt world.ensemble).1 = .ok deliveries →
      ∀ delivery ∈ deliveries, delivery.event.reconnects = false) :
    (world.change attempt).2.StaysCutOff world := by
  unfold change
  split
  · exact staysCutOff_of_caches rfl
  next deliveries ensemble attempted =>
    have delivered := staysCutOff_foldl
      (fun world delivery member => staysCutOff_deliverEvent
        (quietly deliveries (congrArg Prod.fst attempted) delivery member) world)
      (world.setEnsemble ensemble)
    have placed : (world.setEnsemble ensemble).StaysCutOff world := staysCutOff_of_caches rfl
    exact placed.trans delivered

/-- What watches tell of a change is no news of the connection. -/
theorem quietly_of_fires {fires : List (WatchKind × EventKind × Path)} {ensemble : Ensemble}
    (ofNodes : ∀ fire ∈ fires, fire.2.1 ≠ .session) :
    ∀ delivery ∈ (Ensemble.fireEach fires ensemble).1, delivery.event.reconnects = false := by
  intro delivery member
  obtain ⟨fire, isFire, same⟩ := Ensemble.exists_of_mem_fireEach member
  rw [same]
  exact Event.reconnects_ofNode (ofNodes fire isFire) _

theorem staysCutOff_create (world : World) (path : Path) (data : Payload) (owner : Int) :
    (world.create path data owner).2.StaysCutOff world := by
  apply staysCutOff_change
  intro deliveries succeeds
  rcases world.ensemble.create_cases path data owner with ⟨fault, failed⟩ | ⟨_, _, created⟩
  · rw [failed] at succeeds
    cases succeeds
  · rw [created] at succeeds
    cases succeeds
    exact quietly_of_fires (by simp [Ensemble.creationFires])

theorem staysCutOff_setData (world : World) (path : Path) (data : Payload) :
    (world.setData path data).2.StaysCutOff world := by
  apply staysCutOff_change
  intro deliveries succeeds
  rcases world.ensemble.setData_cases path data with ⟨fault, failed⟩ | ⟨_, rewritten⟩
  · rw [failed] at succeeds
    cases succeeds
  · rw [rewritten] at succeeds
    cases succeeds
    exact quietly_of_fires (by simp)

theorem staysCutOff_delete (world : World) (path : Path) :
    (world.delete path).2.StaysCutOff world := by
  apply staysCutOff_change
  intro deliveries succeeds
  rcases world.ensemble.delete_cases path with ⟨fault, failed⟩ | ⟨_, _, deleted⟩
  · rw [failed] at succeeds
    cases succeeds
  · rw [deleted] at succeeds
    cases succeeds
    exact quietly_of_fires (by simp [Ensemble.deletionFires])

theorem staysCutOff_expireSessions (world : World) : world.expireSessions.StaysCutOff world := by
  apply staysCutOff_foldl
  intro world session _
  have expired : (world.setEnsemble (world.ensemble.expireSession session.id)).StaysCutOff world :=
    staysCutOff_of_caches rfl
  exact expired.trans (staysCutOff_deliverEvent rfl _)

/-! ## Commands -/

theorem staysCutOff_build (world : World) (path : Path) (calls : List BuilderCall) :
    (world.build path calls).2.StaysCutOff world := by
  unfold build
  split
  · exact .refl world
  · intro id cutOff
    obtain ⟨cache, found, isCutOff⟩ := cutOff
    refine ⟨cache, ?_, isCutOff⟩
    exact (List.getElem?_append_left (List.getElem?_eq_some_iff.mp found).1).trans found

theorem staysCutOff_refresh (world : World) (id : CacheId) (path : Path) :
    (world.refresh id path).2.StaysCutOff world := by
  have settled : ∀ (state : World) (outcome : Outcome),
      (state.settledToken outcome).2.StaysCutOff state := fun _ _ => staysCutOff_of_caches rfl
  unfold refresh
  split
  · exact settled world _
  · split
    · exact settled world _
    · exact settled world _
    · split
      · exact settled world _
      · have acquired : world.acquire.2.StaysCutOff world := staysCutOff_of_caches rfl
        split
        next failure after answered =>
          rw [answered] at acquired
          have reported : (after.report id "Refresh could not be issued" failure).StaysCutOff
              after := staysCutOff_of_quiet (congrArg caches (quiet_report after id _ failure))
          exact (acquired.trans reported).trans (settled _ _)
        next session after answered =>
          rw [answered] at acquired
          have opened : ((after.addChannel {}).2.addRefresh id path
              (some (after.addChannel {}).1)).2.StaysCutOff after := staysCutOff_of_caches rfl
          exact (acquired.trans opened).trans (staysCutOff_spawn _ _)

theorem staysCutOff_refreshAll (world : World) (id : CacheId) :
    (world.refreshAll id).2.StaysCutOff world := by
  unfold refreshAll
  split
  · exact staysCutOff_of_caches rfl
  · exact staysCutOff_refresh world id _

theorem staysCutOff_start (world : World) (id : CacheId) :
    (world.start id).2.StaysCutOff world := by
  unfold start
  cases found : world.caches[id]? with
  | none => exact .refl world
  | some cache =>
      simp only
      split
      · exact .refl world
      · split
        · exact .refl world
        · exact .refl world
        next isLatent =>
          have never : ¬ cache.IsCutOff := by
            unfold Cache.IsCutOff
            simp [isLatent]
          have started : ∀ (connection : Connection Ensemble CacheId) (after : Cache),
              (({ world with connection } : World).setCache id after).StaysCutOff world :=
            fun _ _ => staysCutOff_setCache found fun isCutOff => absurd isCutOff never
          split
          · exact (started _ _).trans (staysCutOff_refreshAll _ id)
          · exact (started _ _).trans (staysCutOff_of_caches rfl)

theorem staysCutOff_closeCache (world : World) (id : CacheId) :
    (world.closeCache id).StaysCutOff world := by
  unfold closeCache
  cases found : world.caches[id]? with
  | none => exact .refl world
  | some cache =>
      simp only
      split
      · exact .refl world
      · have closed : ∀ connection : Connection Ensemble CacheId,
            (({ world with connection } : World).setCache id cache.close).StaysCutOff world :=
          fun _ => staysCutOff_setCache found fun _ => Or.inl rfl
        exact (closed _).trans (staysCutOff_of_caches rfl)

theorem staysCutOff_setStore (found : world.caches[id]? = some cache) (store : Store) :
    (world.setCache id { cache with store }).StaysCutOff world :=
  staysCutOff_setCache found fun isCutOff => isCutOff

theorem staysCutOff_obey (world : World) {command : Command} (single : command.isRound = false)
    (quietly : (Incident.command command single).reconnects = false) :
    (world.obey command).StaysCutOff world := by
  cases command with
  | step => exact staysCutOff_step world
  | round | advance => cases single
  | create path data owner => exact staysCutOff_create world path data owner
  | setData path data => exact staysCutOff_setData world path data
  | delete path => exact staysCutOff_delete world path
  | announce state =>
      have noNews : (Event.ofSession state).reconnects = false := quietly
      exact staysCutOff_foldl (fun world _ _ => staysCutOff_deliverEvent noNews world) world
  | expireSessions => exact staysCutOff_expireSessions world
  | occur event => exact staysCutOff_occur quietly world
  | replaceSilently | failReads | healReads | refuseSessions | hold | release | startConnection
  | acquire | closeConnection | pollFailure | readCounters | cancelToken =>
      exact staysCutOff_of_caches rfl
  | build path calls => exact staysCutOff_build world path calls
  | start id => exact staysCutOff_start world id
  | closeCache id => exact staysCutOff_closeCache world id
  | refresh id path => exact staysCutOff_refresh world id path
  | refreshAll id => exact staysCutOff_refreshAll world id
  | readToken token => exact staysCutOff_of_quiet (congrArg caches (quiet_readToken world token))
  | listen id listener =>
      exact staysCutOff_of_quiet (congrArg caches (quiet_listen world id listener))
  | unlisten id registration =>
      exact staysCutOff_of_quiet (congrArg caches (quiet_unlisten world id registration))
  | onError id listener =>
      exact staysCutOff_of_quiet (congrArg caches (quiet_onError world id listener))
  | offError id registration =>
      exact staysCutOff_of_quiet (congrArg caches (quiet_offError world id registration))
  | get id path =>
      change (world.get id path).2.StaysCutOff world
      unfold get
      cases found : world.caches[id]? with
      | none => exact .refl world
      | some cache => exact staysCutOff_setStore found _
  | clear id path =>
      change (world.clear id path).2.StaysCutOff world
      unfold clear
      cases found : world.caches[id]? with
      | none => exact .refl world
      | some cache => exact staysCutOff_setStore found _
  | clearAll id =>
      change (world.clearAll id).StaysCutOff world
      unfold clearAll
      cases found : world.caches[id]? with
      | none =>
          rw [updateCache_of_none _ found]
          exact .refl world
      | some cache =>
          rw [← setCache_eq_updateCache _ found]
          exact staysCutOff_setStore found _
  | clearDataIf id path version =>
      change (world.clearDataIf id path version).2.StaysCutOff world
      unfold clearDataIf
      cases found : world.caches[id]? with
      | none => exact .refl world
      | some cache => exact staysCutOff_setStore found _

/-- Only news of a connection ends a cut. -/
theorem staysCutOff_undergo (world : World) {incident : Incident}
    (quietly : incident.reconnects = false) : (world.undergo incident).StaysCutOff world := by
  cases incident with
  | command given single => exact staysCutOff_obey world single quietly
  | turn | elapse | requeue => exact staysCutOff_of_caches rfl

theorem staysCutOff_undergoAll {incidents : List Incident}
    (quietly : ∀ incident ∈ incidents, incident.reconnects = false) (world : World) :
    (world.undergoAll incidents).StaysCutOff world :=
  staysCutOff_foldl (fun world incident member => staysCutOff_undergo world (quietly incident member))
    world

end World

end WatchedTree
