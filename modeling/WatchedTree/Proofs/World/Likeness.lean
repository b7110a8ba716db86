import WatchedTree.Proofs.World.Notices

/-!
# Worlds that differ in what they tell of refreshes

Two worlds are alike if they hold the same and have told the same of nodes and failures, whatever
they have told of the ends of refreshes and whatever became of one channel. What is done to one of
them and to the other leaves them alike: no fetch and no cache reads what a listener was called
with.
-/
namespace WatchedTree

/-- Holds of the calls that tell of a failure. -/
def Call.isFailure (call : Call) : Bool :=
  match call.heard with
  | .event _ => false
  | .failure _ _ => true

namespace Subscriber

/-- Who is called, and whether the registration lasts. -/
def standing (subscriber : Subscriber) : Listener × Bool :=
  (subscriber.listener, subscriber.isRegistered)

theorem standing_woken (subscriber : Subscriber) :
    subscriber.woken.standing = subscriber.standing := by
  unfold woken
  split <;> rfl

theorem standing_stopAt (subscriber : Subscriber) (place : Nat) :
    (subscriber.stopAt place).standing = (subscriber.standing.1, false) := by
  unfold stopAt standing isRegistered
  split
  · rfl
  next isStop => rw [isStop]; rfl

end Subscriber

/-- The events of nodes among some events. -/
def CacheEvent.ofNodes (events : List CacheEvent) : List CacheEvent :=
  events.filter fun event => event.node?.isSome

theorem CacheEvent.ofNodes_append (earlier later : List CacheEvent) :
    ofNodes (earlier ++ later) = ofNodes earlier ++ ofNodes later := List.filter_append _ _

/-- Two feeds that have told the same of nodes, with the same subscribers. -/
structure Feed.IsLike (first second : Feed) : Prop where
  nodes : CacheEvent.ofNodes first.journal = CacheEvent.ofNodes second.journal
  next : first.next = second.next
  standing : ∀ id, (first.subscribers.get? id).map Subscriber.standing =
    (second.subscribers.get? id).map Subscriber.standing

namespace Feed

variable {first second : Feed} {events told : List CacheEvent}

theorem standing_dispatchAll (feed : Feed) (events : List CacheEvent) (id : RegistrationId) :
    ((feed.dispatchAll events).subscribers.get? id).map Subscriber.standing =
      (feed.subscribers.get? id).map Subscriber.standing := by
  by_cases nothing : events = []
  · rw [nothing, dispatchAll_nil]
  · rw [get?_dispatchAll feed nothing, Option.map_map]
    congr 1
    funext subscriber
    exact subscriber.standing_woken

theorem IsLike.dispatchAll (alike : first.IsLike second)
    (same : CacheEvent.ofNodes events = CacheEvent.ofNodes told) :
    (first.dispatchAll events).IsLike (second.dispatchAll told) where
  nodes := by
    rw [journal_dispatchAll, journal_dispatchAll, CacheEvent.ofNodes_append,
      CacheEvent.ofNodes_append, alike.nodes, same]
  next := by rw [next_dispatchAll, next_dispatchAll, alike.next]
  standing := fun id => by rw [standing_dispatchAll, standing_dispatchAll, alike.standing]

theorem IsLike.refl (feed : Feed) : feed.IsLike feed := ⟨rfl, rfl, fun _ => rfl⟩

theorem IsLike.symm (alike : first.IsLike second) : second.IsLike first :=
  ⟨alike.nodes.symm, alike.next.symm, fun id => (alike.standing id).symm⟩

theorem IsLike.trans {third : Feed} (left : first.IsLike second) (right : second.IsLike third) :
    first.IsLike third :=
  ⟨left.nodes.trans right.nodes, left.next.trans right.next,
    fun id => (left.standing id).trans (right.standing id)⟩

theorem IsLike.isRegistered (alike : first.IsLike second) (id : RegistrationId) :
    first.isRegistered id = second.isRegistered id := by
  have standing := alike.standing id
  rw [Feed.isRegistered, Feed.isRegistered]
  cases found : first.subscribers.get? id with
  | none =>
      rw [found, Option.map_none] at standing
      rw [Option.map_eq_none_iff.mp standing.symm]
  | some subscriber =>
      rw [found, Option.map_some] at standing
      obtain ⟨twin, twinFound, same⟩ := Option.map_eq_some_iff.mp standing.symm
      rw [twinFound]
      exact (congrArg Prod.snd same).symm

theorem IsLike.add (alike : first.IsLike second) (listener : Listener) :
    (first.add listener).2.IsLike (second.add listener).2 where
  nodes := alike.nodes
  next := congrArg (· + 1) alike.next
  standing := by
    intro id
    have standing := alike.standing id
    rw [get?_add, get?_add, alike.next]
    cases found : first.subscribers.get? id with
    | none =>
        rw [found, Option.map_none] at standing
        rw [Option.map_eq_none_iff.mp standing.symm, Option.none_or, Option.none_or]
        split <;> rfl
    | some subscriber =>
        rw [found, Option.map_some] at standing
        obtain ⟨twin, twinFound, same⟩ := Option.map_eq_some_iff.mp standing.symm
        rw [twinFound, Option.some_or, Option.some_or, Option.map_some, Option.map_some, same]

theorem IsLike.stopped {left right : Feed} {ends : RegistrationId → Prop}
    (alike : first.IsLike second) (stopped : left.IsStopped first ends)
    (twinStopped : right.IsStopped second ends) : left.IsLike right where
  nodes := by rw [stopped.journal, twinStopped.journal, alike.nodes]
  next := by rw [stopped.next, twinStopped.next, alike.next]
  standing := by
    intro id
    have standing := alike.standing id
    by_cases isEnded : ends id
    · have ended : ∀ place, Subscriber.standing ∘ Subscriber.stopAt place =
          (fun standing => (standing.1, false)) ∘ Subscriber.standing := fun place =>
        funext fun subscriber => subscriber.standing_stopAt place
      rw [stopped.ended id isEnded, twinStopped.ended id isEnded, Option.map_map, Option.map_map,
        ended, ended, ← Option.map_map, ← Option.map_map, standing]
    · rw [stopped.other id isEnded, twinStopped.other id isEnded, standing]

theorem HandsOver.isLike {feed after : Feed} {handover : Handover} {id : RegistrationId}
    {subscriber : Subscriber} (hands : HandsOver handover id after feed subscriber) :
    after.IsLike feed where
  nodes := by rw [hands.journal]
  next := hands.next
  standing := by
    intro other
    by_cases isOther : other = id
    · rw [isOther, hands.moved, hands.found]
      rfl
    · rw [hands.other other isOther]

end Feed

namespace Cache

/-- A cache with another feed. -/
def withFeed (cache : Cache) (feed : Feed) : Cache := { cache with feed }

variable (cache : Cache) (feed : Feed)

@[simp] theorem options_withFeed : (cache.withFeed feed).options = cache.options := (rfl)

@[simp] theorem store_withFeed : (cache.withFeed feed).store = cache.store := (rfl)

@[simp] theorem phase_withFeed : (cache.withFeed feed).phase = cache.phase := (rfl)

@[simp] theorem connected_withFeed : (cache.withFeed feed).connected = cache.connected := (rfl)

@[simp] theorem isClosed_withFeed : (cache.withFeed feed).isClosed = cache.isClosed := (rfl)

@[simp] theorem scope_withFeed (path : Path) :
    (cache.withFeed feed).scope path = cache.scope path := (rfl)

theorem removeSubtrees_withFeed (now : Moment) (paths : List Path) (cache : Cache) :
    removeSubtrees now paths (cache.withFeed feed) =
      ((removeSubtrees now paths cache).1, (removeSubtrees now paths cache).2.withFeed feed) := by
  induction paths generalizing cache with
  | nil => rfl
  | cons path others inductionHypothesis =>
      have removed : (cache.withFeed feed).removeSubtree now path =
          ((cache.removeSubtree now path).1, (cache.removeSubtree now path).2.withFeed feed) := rfl
      rw [removeSubtrees, removeSubtrees, removed]
      simp only [inductionHypothesis]

theorem commit_withFeed (now : Moment) (node : Node) (epoch : Epoch) :
    (cache.withFeed feed).commit now node epoch =
      ((cache.commit now node epoch).1, (cache.commit now node epoch).2.withFeed feed) := by
  unfold commit
  rw [isClosed_withFeed]
  split <;> rfl

end Cache

namespace World

/-- Two worlds that hold the same and have told the same of nodes and failures. One channel is left
out, and so is what they have told of the ends of refreshes. -/
structure IsLike (token : ChannelId) (first second : World) : Prop where
  now : first.now = second.now
  hasRuntime : first.hasRuntime = second.hasRuntime
  connection : first.connection = second.connection
  refreshes : first.refreshes = second.refreshes
  suspended : first.suspended = second.suspended
  queue : first.queue.filter (fun task => !task.isDelivery) =
    second.queue.filter fun task => !task.isDelivery
  calls : first.calls.filter Call.isFailure = second.calls.filter Call.isFailure
  count : first.caches.length = second.caches.length
  caches : ∀ (id : CacheId) (cache : Cache), first.caches[id]? = some cache →
    ∃ feed, second.caches[id]? = some (cache.withFeed feed) ∧ cache.feed.IsLike feed
  channelCount : first.channels.length = second.channels.length
  channels : ∀ other, other ≠ token → first.channels[other]? = second.channels[other]?

/-- Two worlds that are alike, each of which has only told since it began. -/
structure Twins (token : ChannelId) (origin other first second : World) : Prop where
  alike : IsLike token first second
  left : first.Notifies origin
  right : second.Notifies other

variable {token : ChannelId} {origin other first second : World} {id : CacheId} {cache : Cache}
  {feed : Feed} {path : Path}

theorem IsLike.refl (token : ChannelId) (world : World) : IsLike token world world :=
  ⟨rfl, rfl, rfl, rfl, rfl, rfl, rfl, rfl,
    fun _ cache found => ⟨cache.feed, found, .refl _⟩, rfl, fun _ _ => rfl⟩

theorem IsLike.absent (alike : IsLike token first second) (missing : first.caches[id]? = none) :
    second.caches[id]? = none := by
  rw [List.getElem?_eq_none_iff] at missing ⊢
  rw [← alike.count]
  exact missing

theorem IsLike.setCache (alike : IsLike token first second) (found : first.caches[id]? = some cache)
    {twin : Cache} (twinFound : second.caches[id]? = some twin) (after : Cache)
    (like : after.feed.IsLike feed) :
    IsLike token (first.setCache id after) (second.setCache id (after.withFeed feed)) :=
  { alike with
    count := by
      rw [World.setCache, World.setCache, List.length_set, List.length_set, alike.count]
    caches := by
      intro place held heldFound
      by_cases isPlace : place = id
      · subst isPlace
        rw [getElem?_setCache found] at heldFound
        cases heldFound
        exact ⟨feed, getElem?_setCache twinFound _, like⟩
      · rw [World.setCache, List.getElem?_set_ne (Ne.symm isPlace)] at heldFound
        rw [World.setCache, List.getElem?_set_ne (Ne.symm isPlace)]
        exact alike.caches place held heldFound }

/-- What is left of deliveries when they are left out. -/
theorem filter_deliveries (id : CacheId) (registrations : List RegistrationId) :
    (registrations.map (Task.deliver id)).filter (fun task => !task.isDelivery) = [] := by
  rw [List.filter_eq_nil_iff]
  intro task member
  obtain ⟨registration, _, rfl⟩ := List.mem_map.mp member
  simp [Task.isDelivery]

theorem IsLike.enqueue_deliveries (alike : IsLike token first second) (id : CacheId)
    (woken twinWoken : List RegistrationId) :
    IsLike token (first.enqueue (woken.map (Task.deliver id)))
      (second.enqueue (twinWoken.map (Task.deliver id))) :=
  { alike with
    queue := by
      rw [World.enqueue, World.enqueue, List.filter_append, List.filter_append,
        filter_deliveries, filter_deliveries, List.append_nil, List.append_nil, alike.queue] }

theorem IsLike.twins (alike : IsLike token first second) : Twins token first second first second :=
  ⟨alike, .refl first, .refl second⟩

namespace Twins

variable (twins : Twins token origin other first second)

include twins

/-! ## Parts of a world -/

theorem connect (connection : Connection Ensemble CacheId) :
    Twins token origin other { first with connection } { second with connection } where
  alike := { twins.alike with connection := rfl }
  left := twins.left.kept rfl rfl rfl
  right := twins.right.kept rfl rfl rfl

theorem setEnsemble (ensemble : Ensemble) :
    Twins token origin other (first.setEnsemble ensemble) (second.setEnsemble ensemble) := by
  have connected := twins.connect { first.connection with remote := ensemble }
  rw [World.setEnsemble, World.setEnsemble, ← twins.alike.connection]
  exact connected

theorem ensemble : first.ensemble = second.ensemble := by
  rw [World.ensemble, World.ensemble, twins.alike.connection]

theorem later (now : Moment) : Twins token origin other { first with now } { second with now } where
  alike := { twins.alike with now := rfl }
  left := twins.left.kept rfl rfl rfl
  right := twins.right.kept rfl rfl rfl

theorem suspend (suspended : List Suspension) :
    Twins token origin other { first with suspended } { second with suspended } where
  alike := { twins.alike with suspended := rfl }
  left := twins.left.kept rfl rfl rfl
  right := twins.right.kept rfl rfl rfl

theorem setRefreshes (refreshes : List Refresh) :
    Twins token origin other { first with refreshes } { second with refreshes } where
  alike := { twins.alike with refreshes := rfl }
  left := twins.left.kept rfl rfl rfl
  right := twins.right.kept rfl rfl rfl

theorem enqueue (tasks : List Task) :
    Twins token origin other (first.enqueue tasks) (second.enqueue tasks) where
  alike :=
    { twins.alike with
      queue := by
        rw [World.enqueue, World.enqueue, List.filter_append, List.filter_append,
          twins.alike.queue] }
  left := twins.left.trans (.enqueue first tasks)
  right := twins.right.trans (.enqueue second tasks)

/-! ## Channels -/

theorem addChannel (channel : Channel) :
    Twins token origin other (first.addChannel channel).2 (second.addChannel channel).2 where
  alike :=
    { twins.alike with
      channelCount := by
        rw [World.addChannel, World.addChannel, List.length_append, List.length_append,
          twins.alike.channelCount]
      channels := by
        intro place apart
        rw [World.addChannel, World.addChannel, List.getElem?_append, List.getElem?_append,
          twins.alike.channelCount, twins.alike.channels place apart] }
  left := twins.left.kept rfl rfl rfl
  right := twins.right.kept rfl rfl rfl

theorem isCancelled {place : ChannelId} (apart : place ≠ token) :
    first.isCancelled place = second.isCancelled place := by
  rw [World.isCancelled, World.isCancelled, twins.alike.channels place apart]

theorem updateChannel (place : ChannelId) (change : Channel → Channel) :
    Twins token origin other (first.updateChannel place change)
      (second.updateChannel place change) where
  alike :=
    { twins.alike with
      channelCount := by
        rw [World.updateChannel, World.updateChannel, List.length_modify, List.length_modify,
          twins.alike.channelCount]
      channels := by
        intro held apart
        rw [World.updateChannel, World.updateChannel, List.getElem?_modify, List.getElem?_modify,
          twins.alike.channels held apart] }
  left := twins.left.kept rfl rfl rfl
  right := twins.right.kept rfl rfl rfl

/-- Whatever is done to the one channel is done to that only. -/
theorem setToken {channels others : List Channel} (left : channels.length = first.channels.length)
    (right : others.length = second.channels.length)
    (leftOthers : ∀ place, place ≠ token → channels[place]? = first.channels[place]?)
    (rightOthers : ∀ place, place ≠ token → others[place]? = second.channels[place]?) :
    Twins token origin other { first with channels } { second with channels := others } where
  alike :=
    { twins.alike with
      channelCount := by rw [left, right, twins.alike.channelCount]
      channels := by
        intro place apart
        rw [leftOthers place apart, rightOthers place apart, twins.alike.channels place apart] }
  left := twins.left.kept rfl rfl rfl
  right := twins.right.kept rfl rfl rfl

/-! ## Caches -/

theorem setCache (found : first.caches[id]? = some cache)
    (twinFound : second.caches[id]? = some (cache.withFeed feed)) (after : Cache)
    (same : after.feed = cache.feed) :
    Twins token origin other (first.setCache id after)
      (second.setCache id (after.withFeed feed)) where
  alike := by
    obtain ⟨twin, isTwin, like⟩ := twins.alike.caches id cache found
    have sameFeed : feed = twin :=
      congrArg Cache.feed (Option.some.inj (twinFound.symm.trans isTwin))
    exact twins.alike.setCache found twinFound after (same ▸ sameFeed ▸ like)
  left := twins.left.trans (.setCache found same)
  right := twins.right.trans (.setCache twinFound rfl)

theorem updateCache (id : CacheId) (change : Cache → Cache)
    (plain : ∀ (cache : Cache) (feed : Feed), change (cache.withFeed feed) =
      (change cache).withFeed feed)
    (same : ∀ cache, (change cache).feed = cache.feed) :
    Twins token origin other (first.updateCache id change) (second.updateCache id change) := by
  cases found : first.caches[id]? with
  | none =>
      rw [updateCache_of_none change found,
        updateCache_of_none change (twins.alike.absent found)]
      exact twins
  | some cache =>
      obtain ⟨feed, twinFound, _⟩ := twins.alike.caches id cache found
      rw [← setCache_eq_updateCache change found, ← setCache_eq_updateCache change twinFound,
        plain]
      exact twins.setCache found twinFound _ (same cache)

end Twins

/-! ## Telling -/

/-- Events change one feed, and put deliveries into the queue. -/
theorem exists_dispatchAll {world : World} (found : world.caches[id]? = some cache)
    (events : List CacheEvent) :
    ∃ registrations : List RegistrationId, world.dispatchAll id events =
      (world.setCache id (cache.withFeed (cache.feed.dispatchAll events))).enqueue
        (registrations.map (Task.deliver id)) := by
  induction events using List.reverseRecOn with
  | nil =>
      refine ⟨[], ?_⟩
      rw [List.map_nil, enqueue_nil]
      exact (setCache_self found).symm
  | append_singleton others last inductionHypothesis =>
      obtain ⟨registrations, dispatched⟩ := inductionHypothesis
      refine ⟨registrations ++ (cache.feed.dispatchAll others).idle, ?_⟩
      have inPlace : (world.dispatchAll id others).caches[id]? =
          some (cache.withFeed (cache.feed.dispatchAll others)) := by
        rw [dispatched]
        exact getElem?_setCache found _
      have lastDispatched : world.dispatchAll id (others ++ [last]) =
          (world.dispatchAll id others).dispatch id last := List.foldl_append
      rw [lastDispatched, dispatch, inPlace, dispatched, List.map_append, ← enqueue_enqueue,
        Feed.dispatchAll_concat]
      simp only [World.enqueue, World.setCache, List.set_set]
      rfl

theorem dispatchAll_of_none {world : World} (missing : world.caches[id]? = none)
    (events : List CacheEvent) : world.dispatchAll id events = world := by
  induction events with
  | nil => rfl
  | cons event others inductionHypothesis =>
      have nothing : world.dispatch id event = world := by rw [dispatch, missing]
      rw [dispatchAll, List.foldl_cons, nothing]
      exact inductionHypothesis

namespace Twins

variable (twins : Twins token origin other first second)

include twins

theorem dispatchAll (id : CacheId) {events told : List CacheEvent}
    (same : CacheEvent.ofNodes events = CacheEvent.ofNodes told) :
    Twins token origin other (first.dispatchAll id events) (second.dispatchAll id told) := by
  refine ⟨?_, twins.left.trans (.dispatchAll first id events),
    twins.right.trans (.dispatchAll second id told)⟩
  cases found : first.caches[id]? with
  | none =>
      rw [dispatchAll_of_none found, dispatchAll_of_none (twins.alike.absent found)]
      exact twins.alike
  | some cache =>
      obtain ⟨feed, twinFound, like⟩ := twins.alike.caches id cache found
      obtain ⟨woken, dispatched⟩ := exists_dispatchAll found events
      obtain ⟨twinWoken, twinDispatched⟩ := exists_dispatchAll twinFound told
      rw [dispatched, twinDispatched]
      exact (twins.alike.setCache found twinFound (cache.withFeed (cache.feed.dispatchAll events))
        (like.dispatchAll same)).enqueue_deliveries id woken twinWoken

omit twins in
theorem foldl {Item : Type} {step : World → Item → World}
    (keeps : ∀ (first second : World) (item : Item), Twins token origin other first second →
      Twins token origin other (step first item) (step second item)) (items : List Item)
    (twins : Twins token origin other first second) :
    Twins token origin other (items.foldl step first) (items.foldl step second) := by
  induction items generalizing first second with
  | nil => exact twins
  | cons item others inductionHypothesis =>
      exact inductionHypothesis (keeps first second item twins)

theorem call (listener : Listener) (heard : WatchedTree.Heard) :
    Twins token origin other (first.call listener heard) (second.call listener heard) where
  alike :=
    { twins.alike with
      calls := by
        rw [World.call, World.call, List.filter_append, List.filter_append, twins.alike.calls] }
  left := twins.left.kept rfl rfl rfl
  right := twins.right.kept rfl rfl rfl

theorem report (id : CacheId) (message : String) (failure : Failure) :
    Twins token origin other (first.report id message failure)
      (second.report id message failure) := by
  unfold World.report
  cases found : first.caches[id]? with
  | none =>
      rw [twins.alike.absent found]
      exact twins
  | some cache =>
      obtain ⟨feed, twinFound, _⟩ := twins.alike.caches id cache found
      rw [twinFound]
      exact foldl (fun _ _ listener twins => twins.call listener _) _ twins

/-! ## Refreshes -/

theorem addRefresh (id : CacheId) (path : Path) (channel : Option ChannelId) :
    Twins token origin other (first.addRefresh id path channel).2
      (second.addRefresh id path channel).2 := by
  unfold World.addRefresh
  rw [← twins.alike.refreshes]
  exact twins.setRefreshes _

theorem countUp (refresh : RefreshId) :
    Twins token origin other (first.countUp refresh) (second.countUp refresh) := by
  unfold World.countUp
  rw [← twins.alike.refreshes]
  exact twins.setRefreshes _

/-- The end of a refresh leaves two worlds alike even if only one of them tells of it. -/
theorem refreshed (id : CacheId) (path : Path) (cancelled twinCancelled : Bool) :
    Twins token origin other (first.refreshed id path cancelled)
      (second.refreshed id path twinCancelled) := by
  have told : ∀ (world : World) (cache : Cache) (cancelled : Bool),
      world.caches[id]? = some cache → ∃ events,
        CacheEvent.ofNodes events = [] ∧ world.refreshed id path cancelled =
          (world.setCache id { cache with refreshCount := cache.refreshCount + 1 }).dispatchAll id
            events := by
    intro world cache cancelled found
    unfold World.refreshed
    rw [found]
    simp only
    split
    · exact ⟨[.refreshed path], rfl, rfl⟩
    · exact ⟨[], rfl, rfl⟩
  cases found : first.caches[id]? with
  | none =>
      rw [World.refreshed, World.refreshed, found, twins.alike.absent found]
      exact twins
  | some cache =>
      obtain ⟨feed, twinFound, _⟩ := twins.alike.caches id cache found
      obtain ⟨events, noNode, isTold⟩ := told first cache cancelled found
      obtain ⟨twinEvents, noTwinNode, isTwinTold⟩ := told second _ twinCancelled twinFound
      rw [isTold, isTwinTold]
      have counted := twins.setCache found twinFound
        { cache with refreshCount := cache.refreshCount + 1 } rfl
      exact counted.dispatchAll id (noNode.trans noTwinNode.symm)

/-- Only the channel that is left out may be resolved in one world and not in the other. -/
theorem finish (refresh : Refresh) :
    Twins token origin other (first.finish refresh) (second.finish refresh) := by
  unfold World.finish
  cases refresh.channel with
  | none => exact twins.refreshed _ _ _ _
  | some channel =>
      simp only
      have told := twins.refreshed refresh.cache refresh.refresher.path
        (first.isCancelled channel) (second.isCancelled channel)
      generalize first.refreshed refresh.cache refresh.refresher.path
        (first.isCancelled channel) = left at told ⊢
      generalize second.refreshed refresh.cache refresh.refresher.path
        (second.isCancelled channel) = right at told ⊢
      by_cases isToken : channel = token
      · have completed : ∀ (world : World) (cancelled : Bool), ∃ channels : List Channel,
            channels.length = world.channels.length ∧
              (∀ place, place ≠ token → channels[place]? = world.channels[place]?) ∧
              (if cancelled then world
                else world.updateChannel channel (Channel.complete · (.ok ()))) =
                { world with channels } := by
          intro world cancelled
          cases cancelled with
          | true => exact ⟨world.channels, rfl, fun _ _ => rfl, rfl⟩
          | false =>
              refine ⟨_, List.length_modify _ _ _, ?_, rfl⟩
              intro place apart
              exact List.getElem?_modify_ne _ _ (isToken ▸ apart.symm)
        obtain ⟨channels, length, others, isLeft⟩ := completed left (first.isCancelled channel)
        obtain ⟨twinChannels, twinLength, twinOthers, isRight⟩ :=
          completed right (second.isCancelled channel)
        rw [isLeft, isRight]
        exact told.setToken length twinLength others twinOthers
      · rw [twins.isCancelled isToken]
        split
        · exact told
        · exact told.updateChannel _ _

theorem countDown (refresh : RefreshId) :
    Twins token origin other (first.countDown refresh) (second.countDown refresh) := by
  unfold World.countDown
  rw [← twins.alike.refreshes]
  split
  · exact twins
  · simp only
    split
    · exact (twins.setRefreshes _).finish _
    · exact twins.setRefreshes _

theorem spawn (fetch : Fetch) :
    Twins token origin other (first.spawn fetch) (second.spawn fetch) := by
  have counted := twins.countUp fetch.refresh
  unfold World.spawn
  simp only
  cases found : (first.countUp fetch.refresh).caches[fetch.cache]? with
  | none =>
      rw [counted.alike.absent found]
      exact counted.countDown _
  | some cache =>
      obtain ⟨feed, twinFound, _⟩ := counted.alike.caches fetch.cache cache found
      simp only [twinFound, Cache.phase_withFeed]
      by_cases isStarted : cache.phase = .started
      · rw [if_pos isStarted, if_pos isStarted]
        exact counted.enqueue _
      · rw [if_neg isStarted, if_neg isStarted]
        exact counted.countDown _

theorem spawnAll (fetches : List Fetch) :
    Twins token origin other (first.spawnAll fetches) (second.spawnAll fetches) :=
  foldl (fun _ _ fetch twins => twins.spawn fetch) fetches twins

theorem backgroundRefresh (id : CacheId) (path : Path) (full : Bool) :
    Twins token origin other (first.backgroundRefresh id path full)
      (second.backgroundRefresh id path full) := by
  have added := twins.addRefresh id path none
  unfold World.backgroundRefresh
  have samePlace : (second.addRefresh id path none).1 = (first.addRefresh id path none).1 := by
    rw [World.addRefresh, World.addRefresh, twins.alike.refreshes]
  simp only [samePlace]
  exact added.spawn _

end Twins

end World

end WatchedTree
