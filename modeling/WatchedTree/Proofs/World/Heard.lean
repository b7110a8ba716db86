import WatchedTree.Proofs.World.Twins

/-!
# What listeners have heard

Along any run, what a listener is called with, and what it is owed in the end, is what it was owed
at first and what was written while it was registered. Once no task is queued it is owed nothing.
-/
namespace WatchedTree

/-- The event that a listener was called with, unless it was told of a failure. -/
def Call.event? (call : Call) : Option CacheEvent :=
  match call.heard with
  | .event event => some event
  | .failure _ _ => none

namespace World

variable {world later : World} {id : CacheId} {registration : RegistrationId}
  {cache after : Cache}

/-- The events that an incident calls a subscriber with. -/
def handed (world : World) (incident : Incident) (id : CacheId) (registration : RegistrationId) :
    List CacheEvent :=
  match incident, world.queue.head? with
  | .command .step _, some (.deliver cache subscriber) =>
    if cache = id ∧ subscriber = registration then
      (world.step.calls.drop world.calls.length).filterMap Call.event?
    else []
  | _, _ => []

/-- The events that a subscriber is called with along a run. -/
def heard (id : CacheId) (registration : RegistrationId) : World → List Incident → List CacheEvent
  | _, [] => []
  | world, incident :: others =>
    world.handed incident id registration ++ heard id registration (world.undergo incident) others

/-- What a step of a world does to those who listen: whoever has to be called will be, and what is
owed is what was written. -/
structure Hears (after before : World) (handed : CacheId → RegistrationId → List CacheEvent) :
    Prop where
  attentive : after.IsAttentive
  balances : after.Balances before handed

theorem Notifies.hears (notifies : later.Notifies world) (attentive : world.IsAttentive) :
    later.Hears world fun _ _ => [] :=
  ⟨notifies.isAttentive attentive, notifies.balances attentive⟩

theorem IsAttentive.hears_refl (attentive : world.IsAttentive) :
    world.Hears world fun _ _ => [] :=
  (Notifies.refl world).hears attentive

/-! ## One feed is changed -/

/-- A feed to which nothing is written takes the place of another. -/
theorem IsAttentive.replace (attentive : world.IsAttentive) (found : world.caches[id]? = some cache)
    (after : Cache) (caches : later.caches = world.caches.set id after)
    (journal : after.feed.journal = cache.feed.journal)
    (more : ∀ other registration, other ≠ id → world.WillCall other registration →
      later.WillCall other registration)
    (deferred : ∀ task ∈ later.deferred, task.isDelivery = true)
    (attended : after.feed.IsAttended (later.WillCall id))
    {handed : CacheId → RegistrationId → List CacheEvent}
    (owed : ∀ registration,
      handed id registration ++ after.feed.owed registration = cache.feed.owed registration)
    (others : ∀ other registration, other ≠ id → handed other registration = []) :
    later.Hears world handed := by
  have inPlace : later.caches[id]? = some after := by
    rw [caches]
    exact getElem?_setCache found after
  have same : ∀ other, other ≠ id → later.caches[other]? = world.caches[other]? := by
    intro other isOther
    rw [caches, List.getElem?_set_ne (Ne.symm isOther)]
  refine ⟨⟨?_, deferred⟩, ?_⟩
  · intro other held heldFound
    by_cases isOther : other = id
    · subst isOther
      rw [inPlace] at heldFound
      cases heldFound
      exact attended
    · rw [same other isOther] at heldFound
      exact (attentive.caches other held heldFound).mono fun registration =>
        more other registration isOther
  · intro other registration
    have silent : later.news world other = [] := by
      apply news_of_journal
      rw [List.append_nil]
      by_cases isOther : other = id
      · subst isOther
        rw [journal_of_found inPlace, journal_of_found found, journal]
      · rw [World.journal, World.journal, same other isOther]
    rw [silent, ite_self, List.append_nil]
    by_cases isOther : other = id
    · subst isOther
      rw [owed_of_found inPlace, owed_of_found found]
      exact owed registration
    · rw [others other registration isOther, List.nil_append, World.owed, World.owed,
        same other isOther]

theorem IsAttentive.listen (attentive : world.IsAttentive) (id : CacheId) (listener : Listener) :
    (world.listen id listener).2.Hears world fun _ _ => [] := by
  unfold World.listen
  cases found : world.caches[id]? with
  | none => exact attentive.hears_refl
  | some cache =>
      have more : ∀ other registration, world.WillCall other registration →
          ((world.setCache id { cache with feed := (cache.feed.add listener).2 }).enqueue
            [.deliver id cache.feed.next]).WillCall other registration := by
        rintro other registration (queued | deferred)
        · exact Or.inl (List.mem_append_left _ queued)
        · exact Or.inr deferred
      apply attentive.replace found { cache with feed := (cache.feed.add listener).2 } rfl rfl
        (fun other registration _ => more other registration) attentive.deferred
      · exact (attentive.caches id cache found).add listener (more id)
          (Or.inl (List.mem_append_right _ List.mem_cons_self))
      · exact fun registration => Feed.owed_add cache.feed listener registration
      · exact fun _ _ _ => rfl

/-- Some registrations with a cache end, and whoever is idle among them is woken. -/
theorem IsAttentive.stopped (attentive : world.IsAttentive)
    (found : world.caches[id]? = some cache) (after : Cache) {ends : RegistrationId → Prop}
    (stopped : after.feed.IsStopped cache.feed ends) (woken : List RegistrationId)
    (caches : later.caches = world.caches.set id after)
    (queue : later.queue = world.queue ++ woken.map (Task.deliver id))
    (deferred : later.deferred = world.deferred)
    (isWoken : ∀ registration ∈ cache.feed.idle, ends registration → registration ∈ woken) :
    later.Hears world fun _ _ => [] := by
  have more : ∀ other registration, world.WillCall other registration →
      later.WillCall other registration := by
    rintro other registration (queued | isDeferred)
    · exact Or.inl (queue ▸ List.mem_append_left _ queued)
    · exact Or.inr (deferred ▸ isDeferred)
  apply attentive.replace found after caches stopped.journal
    (fun other registration _ => more other registration) (deferred ▸ attentive.deferred)
  · apply (attentive.caches id cache found).stopped stopped (more id)
    intro registration idle isEnded
    left
    rw [queue]
    exact List.mem_append_right _ (List.mem_map_of_mem (isWoken registration idle isEnded))
  · exact stopped.owed
  · exact fun _ _ _ => rfl

theorem IsAttentive.unlisten (attentive : world.IsAttentive) (id : CacheId)
    (registration : RegistrationId) :
    (world.unlisten id registration).2.Hears world fun _ _ => [] := by
  unfold World.unlisten
  cases found : world.caches[id]? with
  | none => exact attentive.hears_refl
  | some cache =>
      refine attentive.stopped found { cache with feed := (cache.feed.remove registration).2 }
        (Feed.isStopped_remove cache.feed registration)
        (cache.feed.idle.filter (· = registration)) rfl rfl rfl ?_
      rintro other idle rfl
      exact List.mem_filter.mpr ⟨idle, decide_eq_true rfl⟩

theorem IsAttentive.closeCache (attentive : world.IsAttentive) (id : CacheId) :
    (world.closeCache id).Hears world fun _ _ => [] := by
  unfold World.closeCache
  cases found : world.caches[id]? with
  | none => exact attentive.hears_refl
  | some cache =>
      simp only
      split
      · exact attentive.hears_refl
      · exact attentive.stopped found cache.close (Feed.isStopped_clear cache.feed)
          cache.feed.idle rfl rfl rfl fun _ idle _ => idle

theorem IsAttentive.build (attentive : world.IsAttentive) (path : Path)
    (calls : List BuilderCall) :
    (world.build path calls).2.Hears world fun _ _ => [] := by
  unfold World.build
  split
  · exact attentive.hears_refl
  next options _ =>
    refine ⟨⟨?_, attentive.deferred⟩, ?_⟩
    · intro id cache found
      rcases getElem?_concat_cases found with old | ⟨_, rfl⟩
      · exact attentive.caches id cache old
      · exact Feed.isAttended_new _
    · intro id registration
      have silent : ({ world with caches := world.caches ++ [Cache.ofOptions options] } :
          World).news world id = [] :=
        news_of_journal ((journal_build options).trans (List.append_nil _).symm)
      rw [silent, ite_self, List.append_nil, List.nil_append, World.owed, World.owed]
      by_cases inRange : id < world.caches.length
      · rw [List.getElem?_append_left inRange]
      · have beyond := Nat.le_of_not_lt inRange
        rw [List.getElem?_append_right beyond, List.getElem?_eq_none beyond]
        cases id - world.caches.length <;> rfl

/-! ## Deliveries -/

theorem balances_of_caches (caches : later.caches = world.caches) :
    later.Balances world fun _ _ => [] := by
  intro id registration
  have silent : later.news world id = [] := by
    apply news_of_journal
    rw [journal_of_caches caches, List.append_nil]
  rw [silent, ite_self, List.append_nil, List.nil_append, World.owed, World.owed, caches]

theorem IsAttentive.requeue (attentive : world.IsAttentive) :
    world.requeue.Hears world fun _ _ => [] := by
  refine ⟨⟨?_, fun _ none => absurd none List.not_mem_nil⟩, balances_of_caches rfl⟩
  intro id cache found
  apply (attentive.caches id cache found).mono
  rintro registration (queued | deferred)
  · exact Or.inl (List.mem_append_left _ queued)
  · exact Or.inl (List.mem_append_right _ deferred)

/-- A delivery calls its listener with what it hands over. -/
theorem exists_deliver (found : world.caches[id]? = some cache) {handover : Handover} {feed : Feed}
    (delivered : cache.feed.deliver registration = (some handover, feed)) :
    ∃ calls : List Call, calls.filterMap Call.event? = handover.events ∧
      world.deliver id registration =
        { world with
          caches := world.caches.set id { cache with feed }
          calls := world.calls ++ calls
          deferred := if handover.unfinished then .deliver id registration :: world.deferred
            else world.deferred } := by
  have called : ∀ (events : List CacheEvent) (world : World), ∃ calls : List Call,
      calls.filterMap Call.event? = events ∧
        events.foldl (fun state event => state.call handover.listener (.event event)) world =
          { world with calls := world.calls ++ calls } := by
    intro events
    induction events with
    | nil => exact fun world => ⟨[], rfl, by rw [List.append_nil]; rfl⟩
    | cons event others inductionHypothesis =>
        intro world
        obtain ⟨calls, told, isCalled⟩ :=
          inductionHypothesis (world.call handover.listener (.event event))
        let made : Call := ⟨handover.listener.label, .event event, handover.listener.fails⟩
        refine ⟨made :: calls, congrArg (event :: ·) told, ?_⟩
        rw [List.foldl_cons, isCalled]
        simp only [World.call, List.append_assoc, List.singleton_append]
        rfl
  obtain ⟨calls, told, isCalled⟩ := called handover.events (world.setCache id { cache with feed })
  refine ⟨calls, told, ?_⟩
  unfold World.deliver
  rw [found]
  simp only [delivered, isCalled]
  split <;> rfl

theorem deliver_of_nobody (nobody : ∀ cache, world.caches[id]? = some cache →
    cache.feed.subscribers.get? registration = none) : world.deliver id registration = world := by
  unfold World.deliver
  cases found : world.caches[id]? with
  | none => rfl
  | some cache =>
      have nothing : cache.feed.deliver registration = (none, cache.feed) := by
        rw [Feed.deliver, nobody cache found]
      simp only [nothing]

/-- What is handed over by a delivery that is at the front. -/
theorem handed_step {tasks : List Task} (queue : world.queue = .deliver id registration :: tasks)
    {calls : List Call} (isCalled : (({ world with queue := tasks } : World).deliver id
      registration).calls = world.calls ++ calls) (other : CacheId)
    (subscriber : RegistrationId) :
    world.handed .step other subscriber =
      if id = other ∧ registration = subscriber then calls.filterMap Call.event? else [] := by
  have stepped : world.step.calls = world.calls ++ calls := by
    rw [step_of_queue queue]
    exact isCalled
  unfold handed
  rw [queue, stepped, List.drop_left]
  rfl

/-- Whoever else was to be called still is, once the delivery at the front is taken. -/
theorem awaits_of_popped {tasks : List Task}
    (queue : world.queue = .deliver id registration :: tasks) {other : CacheId}
    {subscriber : RegistrationId} (apart : ¬ (other = id ∧ subscriber = registration))
    (awaits : world.WillCall other subscriber) :
    Task.deliver other subscriber ∈ tasks ∨ Task.deliver other subscriber ∈ world.deferred := by
  rcases awaits with queued | deferred
  · rw [queue] at queued
    rcases List.mem_cons.mp queued with isFront | behind
    · cases isFront
      exact absurd ⟨rfl, rfl⟩ apart
    · exact Or.inl behind
  · exact Or.inr deferred

/-- A delivery to a subscriber hands over what it was owed, or the front of it. -/
theorem IsAttentive.step_listened (attentive : world.IsAttentive) {tasks : List Task}
    (queue : world.queue = .deliver id registration :: tasks)
    (found : world.caches[id]? = some cache) {subscriber : Subscriber}
    (isSubscriber : cache.feed.subscribers.get? registration = some subscriber) :
    world.step.Hears world (world.handed .step) := by
  obtain ⟨handover, feed, delivered⟩ :
      ∃ handover feed, cache.feed.deliver registration = (some handover, feed) := by
    rw [Feed.deliver, isSubscriber]
    exact ⟨_, _, rfl⟩
  obtain ⟨_, hands⟩ := Feed.exists_handsOver delivered
  have popped : ({ world with queue := tasks } : World).caches[id]? = some cache := found
  obtain ⟨calls, told, isAfter⟩ := exists_deliver popped delivered
  have handed := handed_step queue (congrArg World.calls isAfter)
  have stays : ∀ {task : Task}, task ∈ world.deferred →
      task ∈ if handover.unfinished then .deliver id registration :: world.deferred
        else world.deferred := by
    intro task member
    split
    · exact List.mem_cons_of_mem _ member
    · exact member
  rw [step_of_queue queue]
  change (({ world with queue := tasks } : World).deliver id registration).Hears world _
  rw [isAfter]
  refine attentive.replace found { cache with feed } rfl hands.journal ?_ ?_ ?_ ?_ ?_
  · intro other subscriber isOther awaits
    exact (awaits_of_popped queue (fun both => isOther both.1) awaits).imp_right stays
  · intro task member
    split at member
    · rcases List.mem_cons.mp member with rfl | old
      · rfl
      · exact attentive.deferred task old
    · exact attentive.deferred task member
  · apply hands.isAttended (attentive.caches id cache found)
    · intro subscriber isOther awaits
      exact (awaits_of_popped queue (fun both => isOther both.2) awaits).imp_right stays
    · intro unfinished
      refine Or.inr ?_
      simp only [unfinished, if_true]
      exact List.mem_cons_self
  · intro subscriber
    rw [handed]
    by_cases same : registration = subscriber
    · rw [if_pos ⟨rfl, same⟩, told, ← same]
      exact hands.owed
    · rw [if_neg fun both => same both.2, List.nil_append]
      exact hands.owed_of_ne (Ne.symm same)
  · intro other subscriber isOther
    rw [handed, if_neg fun both => isOther both.1.symm]

/-- A delivery to nobody hands over nothing. -/
theorem IsAttentive.step_unheard (attentive : world.IsAttentive) {tasks : List Task}
    (queue : world.queue = .deliver id registration :: tasks)
    (nobody : ∀ cache, world.caches[id]? = some cache →
      cache.feed.subscribers.get? registration = none) :
    world.step.Hears world (world.handed .step) := by
  have popped : ∀ cache, ({ world with queue := tasks } : World).caches[id]? = some cache →
      cache.feed.subscribers.get? registration = none := nobody
  have isAfter := deliver_of_nobody popped
  have silent : (({ world with queue := tasks } : World).deliver id registration).calls =
      world.calls ++ [] := by rw [isAfter, List.append_nil]
  have nothing : world.handed .step = fun _ _ => [] := by
    funext other subscriber
    rw [handed_step queue silent, List.filterMap_nil, ite_self]
  have stepped : world.step = { world with queue := tasks } :=
    (step_of_queue queue).trans isAfter
  rw [nothing, stepped]
  refine ⟨⟨?_, attentive.deferred⟩, balances_of_caches rfl⟩
  intro other held heldFound
  have attended := attentive.caches other held heldFound
  refine { attended with queued := ?_ }
  intro subscriber isSubscriber isFound scheduled
  apply awaits_of_popped queue ?_ (attended.queued subscriber isSubscriber isFound scheduled)
  rintro ⟨rfl, rfl⟩
  rw [nobody held heldFound] at isFound
  cases isFound

theorem IsAttentive.step_delivery (attentive : world.IsAttentive) {tasks : List Task}
    (queue : world.queue = .deliver id registration :: tasks) :
    world.step.Hears world (world.handed .step) := by
  by_cases nobody : ∀ cache, world.caches[id]? = some cache →
      cache.feed.subscribers.get? registration = none
  · exact attentive.step_unheard queue nobody
  · simp only [not_forall] at nobody
    obtain ⟨cache, found, present⟩ := nobody
    obtain ⟨subscriber, isSubscriber⟩ := Option.ne_none_iff_exists'.mp present
    exact attentive.step_listened queue found isSubscriber

/-! ## Runs -/

theorem handed_of_isAside {incident : Incident} (isAside : incident.isAside = true) :
    world.handed incident = fun _ _ => [] := by
  funext id registration
  cases incident with
  | turn | elapse => rfl
  | requeue => cases isAside
  | command command single =>
      cases command with
      | step => cases isAside
      | _ => rfl

theorem IsAttentive.step_fetch (attentive : world.IsAttentive)
    (isFetch : world.delivers .step = false) :
    world.step.Hears world (world.handed .step) := by
  obtain ⟨task, tasks, _, queue, _, notDelivery, twins⟩ :=
    (IsLike.refl 0 world).twins_step isFetch isFetch
  have nothing : world.handed .step = fun _ _ => [] := by
    funext id registration
    unfold handed
    rw [queue]
    cases task with
    | deliver => cases notDelivery
    | fetch | resume => rfl
  have popped : ({ world with queue := tasks } : World).IsAttentive := by
    refine ⟨?_, attentive.deferred⟩
    intro id cache found
    apply (attentive.caches id cache found).mono
    rintro registration (queued | deferred)
    · rw [queue] at queued
      rcases List.mem_cons.mp queued with rfl | behind
      · cases notDelivery
      · exact Or.inl behind
    · exact Or.inr deferred
  rw [nothing]
  exact ⟨twins.left.isAttentive popped, twins.left.balances popped⟩

theorem IsAttentive.undergo (attentive : world.IsAttentive) (incident : Incident) :
    (world.undergo incident).Hears world (world.handed incident) := by
  by_cases isAside : incident.isAside = true
  · rw [handed_of_isAside isAside]
    exact ((IsLike.refl 0 world).undergo_aside isAside).left.hears attentive
  · cases incident with
    | turn | elapse => exact absurd rfl isAside
    | requeue => exact attentive.requeue
    | command command single =>
        cases command with
        | round | advance => cases single
        | build path calls => exact attentive.build path calls
        | closeCache id => exact attentive.closeCache id
        | listen id listener => exact attentive.listen id listener
        | unlisten id registration => exact attentive.unlisten id registration
        | step =>
            change world.step.Hears world (world.handed .step)
            cases queue : world.queue with
            | nil =>
                have still : world.step = world := by rw [step, queue]
                have nothing : world.handed .step = fun _ _ => [] := by
                  funext id registration
                  unfold handed
                  rw [queue]
                  rfl
                rw [still, nothing]
                exact attentive.hears_refl
            | cons task tasks =>
                cases task with
                | deliver id registration => exact attentive.step_delivery queue
                | fetch | resume =>
                    apply attentive.step_fetch
                    change world.queue.head?.all Task.isDelivery = false
                    rw [queue]
                    rfl
        | _ => exact absurd rfl isAside

theorem isAttentive_ofConfig (config : ConnectionConfig) : (ofConfig config).IsAttentive where
  caches := fun _ _ found => nomatch found
  deferred := fun _ none => absurd none List.not_mem_nil

theorem IsAttentive.undergoAll (attentive : world.IsAttentive) (incidents : List Incident) :
    (world.undergoAll incidents).IsAttentive := by
  induction incidents generalizing world with
  | nil => exact attentive
  | cons incident others inductionHypothesis =>
      exact inductionHypothesis (attentive.undergo incident).attentive

/-- What a cache tells in front of an audience. -/
def tidings (audience : World → Bool) (id : CacheId) : World → List Incident → List CacheEvent
  | _, [] => []
  | world, incident :: others =>
    (if audience world then (world.undergo incident).news world id else []) ++
      tidings audience id (world.undergo incident) others

/-- Along a run a listener hears, or is owed in the end, what was owed to it and what was told while
it was registered. -/
theorem IsAttentive.heard (attentive : world.IsAttentive) (incidents : List Incident)
    (id : CacheId) (registration : RegistrationId) :
    World.heard id registration world incidents ++
        (world.undergoAll incidents).owed id registration =
      world.owed id registration ++ tidings (·.listens id registration) id world incidents := by
  induction incidents generalizing world with
  | nil => rw [World.heard, tidings, undergoAll_nil, List.nil_append, List.append_nil]
  | cons incident others inductionHypothesis =>
      have hears := attentive.undergo incident
      rw [World.heard, tidings, undergoAll_cons, List.append_assoc,
        inductionHypothesis hears.attentive, ← List.append_assoc,
        hears.balances id registration, List.append_assoc]

/-- Nobody is owed anything once no task is queued. -/
theorem IsAttentive.owed_of_isIdle (attentive : world.IsAttentive) (idle : world.isIdle = true)
    (id : CacheId) (registration : RegistrationId) : world.owed id registration = [] := by
  rw [isIdle, Bool.and_eq_true, List.isEmpty_iff, List.isEmpty_iff] at idle
  cases found : world.caches[id]? with
  | none => rw [owed, found]
  | some cache =>
      have attended := attentive.caches id cache found
      rw [owed_of_found found]
      cases isSubscriber : cache.feed.subscribers.get? registration with
      | none => exact Feed.owed_of_none isSubscriber
      | some subscriber =>
          rw [Feed.owed_of_found isSubscriber]
          apply attended.silent registration subscriber isSubscriber
          by_contra scheduled
          have awaits := attended.queued registration subscriber isSubscriber
            (eq_true_of_ne_false scheduled)
          rw [WillCall, idle.1, idle.2] at awaits
          rcases awaits with none | none <;> exact absurd none List.not_mem_nil

end World

end WatchedTree
