import WatchedTree.Proofs.World.Deeds
import WatchedTree.Proofs.World.Likeness

/-!
# Worlds that stay alike

Fetches, events, changes of the remote tree and calls of the user, made in one world and in one
that is like it, leave the two alike. In either world they tell, and wake whom they have to wake.
-/
namespace WatchedTree

namespace World

variable {token : ChannelId} {origin other first second : World} {id : CacheId} {cache : Cache}
  {feed : Feed} {path : Path}

namespace Twins

variable (twins : Twins token origin other first second)

include twins

/-! ## Visits -/

theorem removeSubtree (id : CacheId) (path : Path) :
    Twins token origin other (first.removeSubtree id path) (second.removeSubtree id path) := by
  unfold World.removeSubtree
  cases found : first.caches[id]? with
  | none =>
      rw [twins.alike.absent found]
      exact twins
  | some cache =>
      obtain ⟨feed, twinFound, _⟩ := twins.alike.caches id cache found
      rw [twinFound, ← twins.alike.now]
      exact (twins.setCache found twinFound (cache.removeSubtree first.now path).2
        rfl).dispatchAll id rfl

theorem endVisit (visit : Visit) (failure : Option Failure) :
    Twins token origin other (first.endVisit visit failure) (second.endVisit visit failure) := by
  have ended := twins.updateCache visit.cache
    (fun cache => { cache with store := cache.store.endFetch visit.epoch })
    (fun _ _ => rfl) fun _ => rfl
  unfold World.endVisit
  cases failure with
  | none => exact ended.countDown _
  | some failure => exact (ended.report _ _ _).countDown _

theorem failVisit (visit : Visit) (fault : TransportFault) :
    Twins token origin other (first.failVisit visit fault) (second.failVisit visit fault) :=
  twins.endVisit visit _

theorem visitAbsent (visit : Visit) :
    Twins token origin other (first.visitAbsent visit) (second.visitAbsent visit) := by
  have removed := twins.removeSubtree visit.cache visit.path
  unfold World.visitAbsent
  simp only
  generalize first.removeSubtree visit.cache visit.path = left at removed ⊢
  generalize second.removeSubtree visit.cache visit.path = right at removed ⊢
  cases found : left.caches[visit.cache]? with
  | none =>
      rw [removed.alike.absent found]
      exact removed.endVisit visit none
  | some cache =>
      obtain ⟨feed, twinFound, _⟩ := removed.alike.caches visit.cache cache found
      simp only [twinFound, Cache.options_withFeed, ← removed.ensemble]
      split
      · exact removed.endVisit visit none
      · split
        · exact (removed.setEnsemble _).failVisit visit _
        · exact (removed.setEnsemble _).endVisit visit none
        · exact ((removed.setEnsemble _).spawn _).endVisit visit none

theorem visitFault (visit : Visit) (fault : TransportFault) :
    Twins token origin other (first.visitFault visit fault) (second.visitFault visit fault) := by
  unfold World.visitFault
  split
  · exact twins.visitAbsent visit
  · exact twins.failVisit visit fault

theorem reconcileChildren (visit : Visit) (names : List Text) :
    Twins token origin other (first.reconcileChildren visit names)
      (second.reconcileChildren visit names) := by
  unfold World.reconcileChildren
  cases found : first.caches[visit.cache]? with
  | none =>
      rw [twins.alike.absent found]
      exact twins
  | some cache =>
      obtain ⟨feed, twinFound, _⟩ := twins.alike.caches visit.cache cache found
      have vanished : (cache.withFeed feed).vanished first.now visit.path names =
          cache.vanished first.now visit.path names := rfl
      have kept : (Cache.removeSubtrees first.now
          (cache.vanished first.now visit.path names) cache).2.feed = cache.feed := by
        rw [Cache.removeSubtrees_eq]
      rw [twinFound, ← twins.alike.now]
      simp only [vanished, Cache.removeSubtrees_withFeed]
      exact ((twins.setCache found twinFound _ kept).dispatchAll visit.cache rfl).spawnAll _

theorem commit (visit : Visit) (node : Node) :
    Twins token origin other (first.commit visit node) (second.commit visit node) := by
  unfold World.commit
  split
  · exact twins
  · cases found : first.caches[visit.cache]? with
    | none =>
        rw [twins.alike.absent found]
        exact twins
    | some cache =>
        obtain ⟨feed, twinFound, _⟩ := twins.alike.caches visit.cache cache found
        have kept : (cache.commit first.now node visit.epoch).2.feed = cache.feed := by
          unfold Cache.commit
          split <;> rfl
        rw [twinFound, ← twins.alike.now]
        simp only [Cache.commit_withFeed]
        exact (twins.setCache found twinFound _ kept).dispatchAll visit.cache rfl

theorem visitRead (visit : Visit) (stat : Option Stat) (data : Option Payload)
    (children : Option (List Text)) :
    Twins token origin other (first.visitRead visit stat data children)
      (second.visitRead visit stat data children) := by
  have committed := twins.commit visit
    { path := visit.path, stat, data
      children := if visit.action.wantsChildren then children else none }
  unfold World.visitRead
  simp only
  generalize first.commit visit _ = left at committed ⊢
  generalize second.commit visit _ = right at committed ⊢
  cases found : left.caches[visit.cache]? with
  | none =>
      rw [committed.alike.absent found]
      exact committed.endVisit visit none
  | some cache =>
      obtain ⟨feed, twinFound, _⟩ := committed.alike.caches visit.cache cache found
      rw [twinFound]
      cases children with
      | none => exact committed.endVisit visit none
      | some names =>
          simp only [Cache.store_withFeed]
          split
          · exact (committed.reconcileChildren visit names).endVisit visit none
          · exact committed.endVisit visit none

theorem visitChildren (visit : Visit) (stat : Option Stat) (data : Option Payload) :
    Twins token origin other (first.visitChildren visit stat data)
      (second.visitChildren visit stat data) := by
  unfold World.visitChildren
  split
  · exact twins.visitRead visit stat data none
  · rw [← twins.ensemble]
    split
    · exact (twins.setEnsemble _).visitFault visit _
    · cases found : first.caches[visit.cache]? with
      | none =>
          rw [twins.alike.absent found]
          exact (twins.setEnsemble _).visitRead visit stat data _
      | some cache =>
          obtain ⟨feed, twinFound, _⟩ := twins.alike.caches visit.cache cache found
          simp only [twinFound, Cache.options_withFeed]
          exact (twins.setEnsemble _).visitRead visit stat data _

theorem visitData (visit : Visit) (answer : DataAnswer) :
    Twins token origin other (first.visitData visit answer) (second.visitData visit answer) := by
  cases answer with
  | error fault => exact twins.visitFault visit fault
  | ok read => exact twins.visitChildren visit _ _

theorem beginVisit (visit : Visit) :
    Twins token origin other (first.beginVisit visit) (second.beginVisit visit) := by
  unfold World.beginVisit
  rw [← twins.ensemble]
  split
  · split
    next answer hold ensemble _ =>
      have held := twins.setEnsemble ensemble
      simp only
      rw [← held.alike.suspended]
      exact held.suspend _
    · exact (twins.setEnsemble _).visitData visit _
  · split
    · split
      · exact (twins.setEnsemble _).failVisit visit _
      · exact (twins.setEnsemble _).visitAbsent visit
      · exact (twins.setEnsemble _).visitChildren visit _ none
    · exact twins.visitChildren visit none none

theorem acquired : second.connection.acquire second.now = first.connection.acquire first.now := by
  rw [twins.alike.connection, twins.alike.now]

theorem runFetch (fetch : Fetch) :
    Twins token origin other (first.runFetch fetch) (second.runFetch fetch) := by
  unfold World.runFetch
  cases found : first.caches[fetch.cache]? with
  | none =>
      rw [twins.alike.absent found]
      exact twins.countDown _
  | some cache =>
      obtain ⟨feed, twinFound, _⟩ := twins.alike.caches fetch.cache cache found
      simp only [twinFound, Cache.isClosed_withFeed, Cache.scope_withFeed,
        Cache.store_withFeed, twins.acquired]
      split
      · exact twins.countDown _
      · split
        · exact twins.countDown _
        · split
          next failure connection _ =>
            exact ((twins.connect connection).report _ _ failure).countDown _
          next action traverse _ session connection _ =>
            have connected := twins.connect connection
            exact (connected.setCache found twinFound
              { cache with store := cache.store.beginFetch.2 } rfl).beginVisit _

/-! ## Events -/

theorem tell (event : Event) (id : CacheId) :
    Twins token origin other (World.tell event id first) (World.tell event id second) := by
  unfold World.tell
  cases found : first.caches[id]? with
  | none =>
      rw [twins.alike.absent found]
      exact twins
  | some cache =>
      obtain ⟨feed, twinFound, _⟩ := twins.alike.caches id cache found
      simp only [twinFound, Cache.isClosed_withFeed, Cache.scope_withFeed,
        Cache.options_withFeed, Cache.connected_withFeed]
      split
      · exact twins
      · split
        · have noted := twins.setCache found twinFound
            { cache with connected := event.state == .syncConnected } rfl
          split
          · exact noted.backgroundRefresh _ _ _
          · exact noted
        · split
          · exact twins
          next path _ =>
            split
            · exact twins
            · split
              · exact twins
              · exact twins.backgroundRefresh _ _ _
              · exact twins.backgroundRefresh _ _ _
              · exact twins.backgroundRefresh _ _ _
              · have removed := twins.removeSubtree id path
                split
                · exact removed.backgroundRefresh _ _ _
                · exact removed

theorem forward (event : Event) :
    Twins token origin other (Connection.forward (·.connection) (World.tell event) first)
      (Connection.forward (·.connection) (World.tell event) second) := by
  have heard : ∀ left right : World, Twins token origin other left right →
      Twins token origin other
        (left.connection.listeners.snapshot.foldl
          (fun state listener => World.tell event listener state) left)
        (right.connection.listeners.snapshot.foldl
          (fun state listener => World.tell event listener state) right) := by
    intro left right twins
    rw [← twins.alike.connection]
    exact foldl (fun _ _ listener twins => twins.tell event listener) _ twins
  unfold Connection.forward
  simp only [← twins.alike.connection]
  cases first.connection.observer with
  | none => exact heard _ _ twins
  | some observer => exact heard _ _ (twins.tell event observer)

theorem occur (event : Event) :
    Twins token origin other (first.occur event) (second.occur event) := by
  have absorbed : second.connection.absorb second.now event =
      first.connection.absorb first.now event := by
    rw [twins.alike.connection, twins.alike.now]
  unfold World.occur
  simp only [absorbed]
  exact (twins.connect _).forward event

theorem deliverEvent (delivery : Delivery) :
    Twins token origin other (first.deliverEvent delivery) (second.deliverEvent delivery) := by
  unfold World.deliverEvent
  rw [← twins.alike.connection]
  split
  · exact twins.occur _
  · exact twins

theorem change (attempt : Ensemble → Except TransportFault (List Delivery) × Ensemble) :
    Twins token origin other (first.change attempt).2 (second.change attempt).2 := by
  unfold World.change
  rw [← twins.ensemble]
  split
  · exact twins.setEnsemble _
  · exact foldl (fun _ _ delivery twins => twins.deliverEvent delivery) _ (twins.setEnsemble _)

theorem announce (state : KeeperState) :
    Twins token origin other (first.announce state) (second.announce state) := by
  unfold World.announce
  rw [← twins.ensemble]
  refine foldl (fun _ _ session twins => ?_) _ twins
  exact twins.deliverEvent _

theorem expireSessions :
    Twins token origin other first.expireSessions second.expireSessions := by
  unfold World.expireSessions
  rw [← twins.ensemble]
  refine foldl (fun left right session twins => ?_) _ twins
  rw [← twins.ensemble]
  exact (twins.setEnsemble _).deliverEvent _

theorem release (hold : HoldId) :
    Twins token origin other (first.release hold) (second.release hold) := by
  have released := twins.setEnsemble (first.ensemble.release hold)
  unfold World.release
  simp only
  rw [← twins.ensemble, ← released.alike.suspended]
  exact (released.suspend _).enqueue _

/-! ## Calls on caches -/

theorem settledToken (outcome : Outcome) :
    Twins token origin other (first.settledToken outcome).2 (second.settledToken outcome).2 :=
  twins.addChannel _

theorem refresh (id : CacheId) (path : Path) :
    Twins token origin other (first.refresh id path).2 (second.refresh id path).2 := by
  unfold World.refresh
  cases found : first.caches[id]? with
  | none =>
      rw [twins.alike.absent found]
      exact twins.settledToken _
  | some cache =>
      obtain ⟨feed, twinFound, _⟩ := twins.alike.caches id cache found
      simp only [twinFound, Cache.phase_withFeed, Cache.scope_withFeed, Cache.options_withFeed]
      split
      · exact twins.settledToken _
      · exact twins.settledToken _
      · split
        · exact twins.settledToken _
        · simp only [World.acquire, twins.acquired]
          generalize first.connection.acquire first.now = answer
          obtain ⟨answer, connection⟩ := answer
          have connected := twins.connect connection
          cases answer with
          | error failure => exact (connected.report _ _ failure).settledToken _
          | ok session =>
              have opened := connected.addChannel {}
              have sameChannel : second.channels.length = first.channels.length :=
                twins.alike.channelCount.symm
              have sameRefresh : second.refreshes.length = first.refreshes.length := by
                rw [twins.alike.refreshes]
              have added := opened.addRefresh id path (some first.channels.length)
              simp only [World.addChannel, World.addRefresh, sameChannel, sameRefresh] at added ⊢
              exact added.spawn _

theorem refreshAll (id : CacheId) :
    Twins token origin other (first.refreshAll id).2 (second.refreshAll id).2 := by
  unfold World.refreshAll
  cases found : first.caches[id]? with
  | none =>
      rw [twins.alike.absent found]
      exact twins.settledToken _
  | some cache =>
      obtain ⟨feed, twinFound, _⟩ := twins.alike.caches id cache found
      rw [twinFound]
      exact twins.refresh id _

theorem start (id : CacheId) :
    Twins token origin other (first.start id).2 (second.start id).2 := by
  unfold World.start
  cases found : first.caches[id]? with
  | none =>
      rw [twins.alike.absent found]
      exact twins
  | some cache =>
      obtain ⟨feed, twinFound, _⟩ := twins.alike.caches id cache found
      simp only [twinFound, Cache.phase_withFeed, Cache.options_withFeed]
      by_cases noRuntime : (!first.hasRuntime) = true
      · have noTwinRuntime : (!second.hasRuntime) = true := twins.alike.hasRuntime ▸ noRuntime
        rw [if_pos noRuntime, if_pos noTwinRuntime]
        exact twins
      · have twinRuntime : ¬ (!second.hasRuntime) = true := twins.alike.hasRuntime ▸ noRuntime
        rw [if_neg noRuntime, if_neg twinRuntime]
        split
        · exact twins
        · exact twins
        · simp only [← twins.alike.connection]
          have connected := twins.connect
            { first.connection with listeners := (first.connection.listeners.add id).2 }
          have started := connected.setCache found twinFound
            { cache with
              phase := .started
              connected := first.connection.isConnected
              registration := some (first.connection.listeners.add id).1 } rfl
          by_cases refreshes : cache.options.refreshOnStart = true
          · rw [if_pos refreshes, if_pos refreshes]
            exact started.refreshAll id
          · rw [if_neg refreshes, if_neg refreshes]
            exact started.settledToken _

/-- What is done to a cache, if it is there, without regard to its feed. -/
theorem amend {Answer : Type} (id : CacheId) (absent : Answer) (change : Cache → Answer × Cache)
    (plain : ∀ (cache : Cache) (feed : Feed),
      (change (cache.withFeed feed)).2 = (change cache).2.withFeed feed)
    (same : ∀ cache, (change cache).2.feed = cache.feed) :
    Twins token origin other
      (match first.caches[id]? with
        | none => (absent, first)
        | some cache => ((change cache).1, first.setCache id (change cache).2)).2
      (match second.caches[id]? with
        | none => (absent, second)
        | some cache => ((change cache).1, second.setCache id (change cache).2)).2 := by
  cases found : first.caches[id]? with
  | none =>
      rw [twins.alike.absent found]
      exact twins
  | some cache =>
      obtain ⟨feed, twinFound, _⟩ := twins.alike.caches id cache found
      rw [twinFound]
      simp only [plain]
      exact twins.setCache found twinFound _ (same cache)

theorem onError (id : CacheId) (listener : Listener) :
    Twins token origin other (first.onError id listener).2 (second.onError id listener).2 :=
  twins.amend id 0
    (fun cache => ((cache.errorListeners.add listener).1,
      { cache with errorListeners := (cache.errorListeners.add listener).2 }))
    (fun _ _ => rfl) fun _ => rfl

theorem offError (id : CacheId) (registration : RegistrationId) :
    Twins token origin other (first.offError id registration).2
      (second.offError id registration).2 :=
  twins.amend id false
    (fun cache => ((cache.errorListeners.remove registration).1,
      { cache with errorListeners := (cache.errorListeners.remove registration).2 }))
    (fun _ _ => rfl) fun _ => rfl

theorem get (id : CacheId) (path : Path) :
    Twins token origin other (first.get id path).2 (second.get id path).2 := by
  unfold World.get
  rw [← twins.alike.now]
  exact twins.amend id none
    (fun cache => ((cache.store.get first.now path).1,
      { cache with store := (cache.store.get first.now path).2 }))
    (fun _ _ => rfl) fun _ => rfl

theorem clear (id : CacheId) (path : Path) :
    Twins token origin other (first.clear id path).2 (second.clear id path).2 := by
  unfold World.clear
  rw [← twins.alike.now]
  exact twins.amend id false
    (fun cache => ((cache.store.remove first.now path).1.isSome,
      { cache with store := (cache.store.remove first.now path).2 }))
    (fun _ _ => rfl) fun _ => rfl

theorem clearAll (id : CacheId) :
    Twins token origin other (first.clearAll id) (second.clearAll id) :=
  twins.updateCache id _ (fun _ _ => rfl) fun _ => rfl

theorem clearDataIf (id : CacheId) (path : Path) (version : Int) :
    Twins token origin other (first.clearDataIf id path version).2
      (second.clearDataIf id path version).2 := by
  unfold World.clearDataIf
  rw [← twins.alike.now]
  exact twins.amend id false
    (fun cache =>
      let released := cache.store.update first.now path fun node =>
        if matchesVersion version node then some node.withoutData else none
      (released.1, { cache with store := released.2 }))
    (fun _ _ => rfl) fun _ => rfl

theorem readToken (place : ChannelId) :
    Twins token origin other (first.readToken place).2 (second.readToken place).2 := by
  have channels : ∀ world : World, ∃ channels : List Channel,
      (world.readToken place).2 = { world with channels } ∧
        channels.length = world.channels.length ∧
        ∀ held, channels[held]? = if held = place
          then (world.channels[place]?).map (fun channel => channel.read.2)
          else world.channels[held]? := by
    intro world
    cases found : world.channels[place]? with
    | none =>
        refine ⟨world.channels, ?_, rfl, ?_⟩
        · rw [World.readToken, found]
        · intro held
          by_cases same : held = place
          · rw [if_pos same, same, found]
            rfl
          · rw [if_neg same]
    | some channel =>
        refine ⟨world.channels.set place channel.read.2, ?_, List.length_set, ?_⟩
        · rw [World.readToken, found]
        · intro held
          by_cases same : held = place
          · obtain ⟨inRange, _⟩ := List.getElem?_eq_some_iff.mp found
            rw [if_pos same, same]
            exact List.getElem?_set_self inRange
          · rw [if_neg same]
            exact List.getElem?_set_ne (Ne.symm same)
  obtain ⟨left, isLeft, leftLength, isRead⟩ := channels first
  obtain ⟨right, isRight, rightLength, isTwinRead⟩ := channels second
  rw [isLeft, isRight]
  refine ⟨{ twins.alike with channelCount := ?_, channels := ?_ }, ?_, ?_⟩
  · rw [leftLength, rightLength]
    exact twins.alike.channelCount
  · intro held apart
    rw [isRead, isTwinRead]
    by_cases same : held = place
    · rw [if_pos same, if_pos same, ← same, twins.alike.channels held apart]
    · rw [if_neg same, if_neg same]
      exact twins.alike.channels held apart
  · exact twins.left.kept rfl rfl rfl
  · exact twins.right.kept rfl rfl rfl

end Twins

/-! ## Registrations -/

namespace IsLike

theorem listen (alike : IsLike token first second) (id : CacheId) (listener : Listener) :
    IsLike token (first.listen id listener).2 (second.listen id listener).2 := by
  unfold World.listen
  cases found : first.caches[id]? with
  | none =>
      rw [alike.absent found]
      exact alike
  | some cache =>
      obtain ⟨feed, twinFound, like⟩ := alike.caches id cache found
      rw [twinFound]
      exact (alike.setCache found twinFound { cache with feed := (cache.feed.add listener).2 }
        (like.add listener)).enqueue_deliveries id [cache.feed.next] [feed.next]

theorem unlisten (alike : IsLike token first second) (id : CacheId)
    (registration : RegistrationId) :
    IsLike token (first.unlisten id registration).2 (second.unlisten id registration).2 := by
  unfold World.unlisten
  cases found : first.caches[id]? with
  | none =>
      rw [alike.absent found]
      exact alike
  | some cache =>
      obtain ⟨feed, twinFound, like⟩ := alike.caches id cache found
      rw [twinFound]
      exact (alike.setCache found twinFound
        { cache with feed := (cache.feed.remove registration).2 }
        (like.stopped (Feed.isStopped_remove _ _) (Feed.isStopped_remove _ _))).enqueue_deliveries
          id _ _

theorem closeCache (alike : IsLike token first second) (id : CacheId) :
    IsLike token (first.closeCache id) (second.closeCache id) := by
  unfold World.closeCache
  cases found : first.caches[id]? with
  | none =>
      rw [alike.absent found]
      exact alike
  | some cache =>
      obtain ⟨feed, twinFound, like⟩ := alike.caches id cache found
      simp only [twinFound, Cache.isClosed_withFeed]
      split
      · exact alike
      · have registration : (cache.withFeed feed).registration = cache.registration := rfl
        rw [registration, ← alike.connection]
        have closed : ∀ connection : Connection Ensemble CacheId, IsLike token
            ((({ first with connection } : World).setCache id cache.close).enqueue
              (cache.feed.idle.map (Task.deliver id)))
            ((({ second with connection } : World).setCache id (cache.withFeed feed).close).enqueue
              ((cache.withFeed feed).feed.idle.map (Task.deliver id))) := by
          intro connection
          have left := (alike.twins.connect connection).alike
          exact (left.setCache found twinFound cache.close
            (like.stopped (Feed.isStopped_clear _) (Feed.isStopped_clear _))).enqueue_deliveries
              id _ _
        exact closed _

theorem build (alike : IsLike token first second) (path : Path) (calls : List BuilderCall) :
    IsLike token (first.build path calls).2 (second.build path calls).2 := by
  unfold World.build
  split
  · exact alike
  next options _ =>
    exact
      { alike with
        count := by
          simp only [List.length_append]
          rw [alike.count]
        caches := by
          intro id cache found
          rcases getElem?_concat_cases found with old | ⟨isLast, rfl⟩
          · obtain ⟨feed, twinFound, like⟩ := alike.caches id cache old
            refine ⟨feed, ?_, like⟩
            exact (List.getElem?_append_left (List.getElem?_eq_some_iff.mp twinFound).1).trans
              twinFound
          · refine ⟨(Cache.ofOptions options).feed, ?_, .refl _⟩
            rw [isLast, alike.count]
            exact List.getElem?_concat_length }

/-! ## Deliveries -/

theorem symm (alike : IsLike token first second) : IsLike token second first where
  now := alike.now.symm
  hasRuntime := alike.hasRuntime.symm
  connection := alike.connection.symm
  refreshes := alike.refreshes.symm
  suspended := alike.suspended.symm
  queue := alike.queue.symm
  calls := alike.calls.symm
  count := alike.count.symm
  caches := by
    intro id twin twinFound
    cases found : first.caches[id]? with
    | none =>
        rw [alike.absent found] at twinFound
        cases twinFound
    | some cache =>
        obtain ⟨feed, isTwin, like⟩ := alike.caches id cache found
        rw [twinFound, Option.some.injEq] at isTwin
        exact ⟨cache.feed, by rw [isTwin]; rfl, isTwin ▸ like.symm⟩
  channelCount := alike.channelCount.symm
  channels := fun place apart => (alike.channels place apart).symm

/-- A delivery changes nothing that anything but a listener would notice. -/
theorem deliver (alike : IsLike token first second) (id : CacheId)
    (registration : RegistrationId) : IsLike token (first.deliver id registration) second := by
  unfold World.deliver
  cases found : first.caches[id]? with
  | none => exact alike
  | some cache =>
      simp only
      split
      · exact alike
      next handover feed delivered =>
        obtain ⟨subscriber, hands⟩ := Feed.exists_handsOver delivered
        obtain ⟨twin, twinFound, like⟩ := alike.caches id cache found
        have moved := alike.setCache found twinFound { cache with feed } (hands.isLike.trans like)
        have kept : second.setCache id (Cache.withFeed { cache with feed } twin) = second :=
          setCache_self twinFound
        rw [kept] at moved
        have called : IsLike token (handover.events.foldl
            (fun state event => state.call handover.listener (.event event))
            (first.setCache id { cache with feed })) second := by
          generalize first.setCache id { cache with feed } = left at moved
          induction handover.events generalizing left with
          | nil => exact moved
          | cons event others inductionHypothesis =>
              have unheard : (left.call handover.listener (.event event)).calls.filter
                  Call.isFailure = left.calls.filter Call.isFailure := by
                rw [World.call, List.filter_append]
                exact List.append_nil _
              exact inductionHypothesis _ { moved with calls := unheard.trans moved.calls }
        split
        · exact { called with }
        · exact called

end IsLike

/-! ## Incidents -/

theorem Twins.perform (twins : Twins token origin other first second) {task : Task}
    (isFetch : task.isDelivery = false) :
    Twins token origin other (first.perform task) (second.perform task) := by
  cases task with
  | fetch fetch => exact twins.runFetch fetch
  | resume visit answer => exact twins.visitData visit answer
  | deliver cache registration => cases isFetch

end World

/-- Holds of the incidents that run no task, and leave it as it is who listens to what. -/
def Command.isAside : Command → Bool
  | .step | .round | .advance _ | .build _ _ | .closeCache _ | .listen _ _ | .unlisten _ _ => false
  | _ => true

def Incident.isAside : Incident → Bool
  | .command given _ => given.isAside
  | .turn _ | .elapse _ => true
  | .requeue => false

namespace World

variable {token : ChannelId} {first second : World}

theorem Twins.alterEnsemble {origin other : World} (twins : Twins token origin other first second)
    (change : Ensemble → Ensemble) :
    Twins token origin other (first.setEnsemble (change first.ensemble))
      (second.setEnsemble (change second.ensemble)) := by
  rw [← twins.ensemble]
  exact twins.setEnsemble _

theorem Twins.alterConnection {origin other : World}
    (twins : Twins token origin other first second)
    (change : Moment → Connection Ensemble CacheId → Connection Ensemble CacheId) :
    Twins token origin other { first with connection := change first.now first.connection }
      { second with connection := change second.now second.connection } := by
  have same : change second.now second.connection = change first.now first.connection := by
    rw [twins.alike.now, twins.alike.connection]
  rw [same]
  exact twins.connect _

theorem IsLike.undergo_aside (alike : IsLike token first second) {incident : Incident}
    (isAside : incident.isAside = true) :
    Twins token first second (first.undergo incident) (second.undergo incident) := by
  have twins := alike.twins
  cases incident with
  | turn ensemble => exact twins.setEnsemble ensemble
  | elapse span =>
      have later := twins.later (first.now + span)
      rw [World.undergo, World.undergo, ← alike.now]
      exact later
  | requeue => cases isAside
  | command command single =>
      cases command with
      | step | round | advance | build | closeCache | listen | unlisten => cases isAside
      | create path data owner => exact twins.change _
      | setData path data => exact twins.change _
      | delete path => exact twins.change _
      | replaceSilently path data => exact twins.alterEnsemble (·.replaceSilently path data)
      | failReads path => exact twins.alterEnsemble (·.failReads path)
      | healReads path => exact twins.alterEnsemble (·.healReads path)
      | refuseSessions refusing => exact twins.alterEnsemble ({ · with refusing })
      | announce state => exact twins.announce state
      | expireSessions => exact twins.expireSessions
      | hold path => exact twins.alterEnsemble (·.hold path |>.2)
      | release hold => exact twins.release hold
      | occur event => exact twins.occur event
      | startConnection => exact twins.alterConnection fun now before => (before.start now).2
      | acquire => exact twins.alterConnection fun now before => (before.acquire now).2
      | closeConnection => exact twins.alterConnection fun now before => (before.close now).2
      | pollFailure => exact twins.alterConnection fun _ before => before.pollFailure.2
      | readCounters => exact twins.alterConnection fun _ before => before.readCounters.2
      | start cache => exact twins.start cache
      | refresh cache path => exact twins.refresh cache path
      | refreshAll cache => exact twins.refreshAll cache
      | readToken place => exact twins.readToken place
      | cancelToken place => exact twins.updateChannel place Channel.cancel
      | onError cache listener => exact twins.onError cache listener
      | offError cache registration => exact twins.offError cache registration
      | get cache path => exact twins.get cache path
      | clear cache path => exact twins.clear cache path
      | clearAll cache => exact twins.clearAll cache
      | clearDataIf cache path version => exact twins.clearDataIf cache path version

/-! ## Deliveries that are run or put off -/

/-- Holds of the incidents that do nothing but call a listener, or see to it that one is called. -/
def delivers (world : World) : Incident → Bool
  | .command .step _ => world.queue.head?.all Task.isDelivery
  | .requeue => true
  | _ => false

theorem IsLike.undergo_delivers (alike : IsLike token first second) {incident : Incident}
    (deferred : ∀ task ∈ first.deferred, task.isDelivery = true)
    (delivers : first.delivers incident = true) :
    IsLike token (first.undergo incident) second := by
  cases incident with
  | turn | elapse => cases delivers
  | requeue =>
      have noFetch : first.deferred.filter (fun task => !task.isDelivery) = [] := by
        rw [List.filter_eq_nil_iff]
        intro task member
        rw [deferred task member]
        exact Bool.false_ne_true
      exact
        { alike with
          queue := by
            rw [World.undergo, World.requeue, List.filter_append, noFetch, List.append_nil]
            exact alike.queue }
  | command command single =>
      cases command with
      | step =>
          change IsLike token first.step second
          unfold World.step
          cases queue : first.queue with
          | nil => exact alike
          | cons task tasks =>
              cases task with
              | fetch | resume =>
                  rw [World.delivers, queue] at delivers
                  cases delivers
              | deliver id registration =>
                  have popped : IsLike token { first with queue := tasks } second :=
                    { alike with
                      queue := by
                        have kept := alike.queue
                        rw [queue] at kept
                        exact kept }
                  exact popped.deliver id registration
      | _ => cases delivers

/-- A task that is more than a delivery is at the front of both queues or of none. -/
theorem exists_fetch {world : World} (queue : world.delivers .step = false) :
    ∃ task tasks, world.queue = task :: tasks ∧ task.isDelivery = false := by
  change world.queue.head?.all Task.isDelivery = false at queue
  cases isQueue : world.queue with
  | nil =>
      rw [isQueue] at queue
      cases queue
  | cons task tasks =>
      rw [isQueue] at queue
      exact ⟨task, tasks, rfl, queue⟩

theorem step_of_queue {world : World} {task : Task} {tasks : List Task}
    (queue : world.queue = task :: tasks) :
    world.step = ({ world with queue := tasks } : World).perform task := by
  rw [step, queue]

theorem IsLike.twins_step (alike : IsLike token first second)
    (isLeft : first.delivers .step = false) (isRight : second.delivers .step = false) :
    ∃ task tasks twinTasks, first.queue = task :: tasks ∧ second.queue = task :: twinTasks ∧
      task.isDelivery = false ∧
        Twins token { first with queue := tasks } { second with queue := twinTasks }
          first.step second.step := by
  obtain ⟨task, tasks, queue, isFetch⟩ := exists_fetch isLeft
  obtain ⟨twin, twinTasks, twinQueue, isTwinFetch⟩ := exists_fetch isRight
  have fronts := alike.queue
  rw [queue, twinQueue, List.filter_cons_of_pos (by rw [isFetch]; rfl),
    List.filter_cons_of_pos (by rw [isTwinFetch]; rfl)] at fronts
  obtain ⟨rfl, behind⟩ := List.cons.inj fronts
  have popped : IsLike token { first with queue := tasks } { second with queue := twinTasks } :=
    { alike with queue := behind }
  refine ⟨task, tasks, twinTasks, queue, twinQueue, isFetch, ?_⟩
  rw [step_of_queue queue, step_of_queue twinQueue]
  exact popped.twins.perform isFetch

/-- What does more than to call a listener is done alike in both worlds. -/
theorem IsLike.undergo (alike : IsLike token first second) {incident : Incident}
    (isLeft : first.delivers incident = false) (isRight : second.delivers incident = false) :
    IsLike token (first.undergo incident) (second.undergo incident) := by
  cases incident with
  | requeue => cases isLeft
  | turn | elapse => exact (alike.undergo_aside rfl).alike
  | command command single =>
      cases command with
      | round | advance => cases single
      | step =>
          obtain ⟨_, _, _, _, _, _, twins⟩ := alike.twins_step isLeft isRight
          exact twins.alike
      | build path calls => exact alike.build path calls
      | closeCache id => exact alike.closeCache id
      | listen id listener => exact alike.listen id listener
      | unlisten id registration => exact alike.unlisten id registration
      | _ => exact (alike.undergo_aside rfl).alike

end World

end WatchedTree
