import WatchedTree.Proofs.Cache.Delivery

/-!
# What subscribers are owed

A subscriber is owed the events written while it was registered, but for those that it was called
with. As long as it is owed any, a delivery is queued for it; so nothing is owed once no delivery
is queued.
-/
namespace WatchedTree

/-- A subscriber has not read past its end, and its end lies within the journal. -/
structure Subscriber.IsWithin (subscriber : Subscriber) (length : Nat) : Prop where
  position : subscriber.position ≤ subscriber.bound length
  bound : subscriber.bound length ≤ length

namespace Feed

/-- The events that a registration is still to be called with. -/
def owed (feed : Feed) (id : RegistrationId) : List CacheEvent :=
  match feed.subscribers.get? id with
  | none => []
  | some subscriber => feed.pending subscriber

/-- Whoever has something to be called with has a delivery queued, and so has everybody whose
delivery counts as queued. -/
structure IsAttended (feed : Feed) (queued : RegistrationId → Prop) : Prop where
  within : ∀ id subscriber, feed.subscribers.get? id = some subscriber →
    subscriber.IsWithin feed.journal.length
  queued : ∀ id subscriber, feed.subscribers.get? id = some subscriber →
    subscriber.scheduled = true → queued id
  silent : ∀ id subscriber, feed.subscribers.get? id = some subscriber →
    subscriber.scheduled = false → feed.pending subscriber = []
  fresh : ∀ id subscriber, feed.subscribers.get? id = some subscriber → id < feed.next

variable {feed after : Feed} {id other : RegistrationId} {subscriber later : Subscriber}
  {events : List CacheEvent} {queued requeued : RegistrationId → Prop}

theorem owed_of_found (found : feed.subscribers.get? id = some subscriber) :
    feed.owed id = feed.pending subscriber := by
  rw [owed, found]

theorem owed_of_none (absent : feed.subscribers.get? id = none) : feed.owed id = [] := by
  rw [owed, absent]

theorem isRegistered_of_found (found : feed.subscribers.get? id = some subscriber) :
    feed.isRegistered id = subscriber.isRegistered := by
  rw [isRegistered, found]

theorem isRegistered_of_none (absent : feed.subscribers.get? id = none) :
    feed.isRegistered id = false := by
  rw [isRegistered, absent]

theorem mem_idle (found : feed.subscribers.get? id = some subscriber)
    (idle : subscriber.isIdle = true) : id ∈ feed.idle :=
  List.mem_map.mpr ⟨(id, subscriber), List.mem_filter.mpr ⟨Table.mem_of_get? found, idle⟩, rfl⟩

theorem isAttended_new (queued : RegistrationId → Prop) : ({} : Feed).IsAttended queued :=
  ⟨nofun, nofun, nofun, nofun⟩

theorem IsAttended.mono (attended : feed.IsAttended queued) (more : ∀ id, queued id → requeued id) :
    feed.IsAttended requeued :=
  { attended with
    queued := fun id subscriber found scheduled =>
      more id (attended.queued id subscriber found scheduled) }

/-- What is written while it is registered is added to what a subscriber is to be called with. -/
theorem pending_grown (within : subscriber.IsWithin feed.journal.length)
    (journal : after.journal = feed.journal ++ events)
    (position : later.position = subscriber.position) (stop : later.stop = subscriber.stop) :
    after.pending later =
      feed.pending subscriber ++ if subscriber.isRegistered then events else [] := by
  obtain ⟨position_le, bound_le⟩ := within
  rw [Subscriber.bound] at position_le bound_le
  rw [pending, pending, journal, position, Subscriber.bound, Subscriber.bound, stop,
    Subscriber.isRegistered]
  cases isStop : subscriber.stop with
  | none =>
      rw [isStop] at position_le
      rw [Option.getD_none, Option.getD_none, List.take_length, List.take_length]
      exact List.drop_append_of_le_length position_le
  | some place =>
      rw [isStop, Option.getD_some] at bound_le
      rw [Option.getD_some, Option.getD_some, List.take_append_of_le_length bound_le]
      exact (List.append_nil _).symm

theorem grown_isWithin (within : subscriber.IsWithin feed.journal.length)
    (journal : after.journal = feed.journal ++ events)
    (position : later.position = subscriber.position) (stop : later.stop = subscriber.stop) :
    later.IsWithin after.journal.length := by
  obtain ⟨position_le, bound_le⟩ := within
  have longer : feed.journal.length ≤ after.journal.length := by
    rw [journal, List.length_append]
    exact Nat.le_add_right _ _
  rw [Subscriber.bound] at position_le bound_le
  constructor
  · rw [Subscriber.bound, position, stop]
    cases isStop : subscriber.stop with
    | none =>
        rw [isStop] at position_le
        exact Nat.le_trans position_le longer
    | some place =>
        rw [isStop] at position_le
        exact position_le
  · rw [Subscriber.bound, stop]
    cases isStop : subscriber.stop with
    | none => exact Nat.le_refl _
    | some place =>
        rw [isStop] at bound_le
        exact Nat.le_trans bound_le longer

/-! ## Events -/

/-- Events wake whoever is idle. -/
theorem IsAttended.dispatchAll (attended : feed.IsAttended queued) (events : List CacheEvent)
    (more : ∀ id, queued id → requeued id)
    (woken : events ≠ [] → ∀ id ∈ feed.idle, requeued id) :
    (feed.dispatchAll events).IsAttended requeued := by
  by_cases nothing : events = []
  · rw [nothing, dispatchAll_nil]
    exact attended.mono more
  · have journal := journal_dispatchAll feed events
    have found : ∀ id subscriber,
        (feed.dispatchAll events).subscribers.get? id = some subscriber →
          ∃ old, feed.subscribers.get? id = some old ∧ old.woken = subscriber := by
      intro id subscriber isFound
      rw [get?_dispatchAll feed nothing] at isFound
      exact Option.map_eq_some_iff.mp isFound
    refine ⟨?_, ?_, ?_, ?_⟩
    · intro id subscriber isFound
      obtain ⟨old, oldFound, rfl⟩ := found id subscriber isFound
      exact grown_isWithin (attended.within id old oldFound) journal old.position_woken
        old.stop_woken
    · intro id subscriber isFound scheduled
      obtain ⟨old, oldFound, rfl⟩ := found id subscriber isFound
      by_cases idle : old.isIdle = true
      · exact woken nothing id (mem_idle oldFound idle)
      · rw [Subscriber.woken_of_not_isIdle (eq_false_of_ne_true idle)] at scheduled
        exact more id (attended.queued id old oldFound scheduled)
    · intro id subscriber isFound unscheduled
      obtain ⟨old, oldFound, rfl⟩ := found id subscriber isFound
      have busy : old.isIdle = false := by
        by_contra idle
        rw [Subscriber.woken, if_pos (eq_true_of_ne_false idle)] at unscheduled
        cases unscheduled
      rw [Subscriber.woken_of_not_isIdle busy] at unscheduled
      have gone : old.isRegistered = false := by
        rw [Subscriber.isIdle, unscheduled, Bool.not_false, Bool.and_true] at busy
        exact busy
      rw [pending_grown (attended.within id old oldFound) journal old.position_woken
        old.stop_woken, gone, attended.silent id old oldFound unscheduled]
      rfl
    · intro id subscriber isFound
      obtain ⟨old, oldFound, rfl⟩ := found id subscriber isFound
      rw [next_dispatchAll]
      exact attended.fresh id old oldFound

theorem IsAttended.owed_dispatchAll (attended : feed.IsAttended queued)
    (events : List CacheEvent) (id : RegistrationId) :
    (feed.dispatchAll events).owed id =
      feed.owed id ++ if feed.isRegistered id then events else [] := by
  by_cases nothing : events = []
  · rw [nothing, dispatchAll_nil, ite_self, List.append_nil]
  · have told := get?_dispatchAll feed nothing id
    cases found : feed.subscribers.get? id with
    | none =>
        rw [found, Option.map_none] at told
        rw [owed_of_none told, owed_of_none found, isRegistered_of_none found]
        rfl
    | some subscriber =>
        rw [found, Option.map_some] at told
        rw [owed_of_found told, owed_of_found found, isRegistered_of_found found]
        exact pending_grown (attended.within id subscriber found) (journal_dispatchAll feed events)
          subscriber.position_woken subscriber.stop_woken

/-! ## Registrations -/

theorem get?_add (feed : Feed) (listener : Listener) (id : RegistrationId) :
    (feed.add listener).2.subscribers.get? id =
      (feed.subscribers.get? id).or
        (if feed.next = id then some { listener, position := feed.journal.length } else none) := by
  rw [add, Table.get?_append]
  rfl

/-- Whoever registers is owed nothing, and nobody else is owed any more or less. -/
theorem owed_add (feed : Feed) (listener : Listener) (id : RegistrationId) :
    (feed.add listener).2.owed id = feed.owed id := by
  have added := get?_add feed listener id
  cases found : feed.subscribers.get? id with
  | some subscriber =>
      rw [found, Option.some_or] at added
      rw [owed_of_found added, owed_of_found found]
      rfl
  | none =>
      rw [found, Option.none_or] at added
      rw [owed_of_none found]
      by_cases isNew : feed.next = id
      · rw [if_pos isNew] at added
        rw [owed_of_found added, pending]
        exact List.drop_eq_nil_of_le (List.length_take_le' _ _)
      · rw [if_neg isNew] at added
        exact owed_of_none added

theorem IsAttended.add (attended : feed.IsAttended queued) (listener : Listener)
    (more : ∀ id, queued id → requeued id) (isQueued : requeued feed.next) :
    (feed.add listener).2.IsAttended requeued := by
  have cases_found : ∀ id subscriber,
      (feed.add listener).2.subscribers.get? id = some subscriber →
        feed.subscribers.get? id = some subscriber ∨
          id = feed.next ∧ subscriber = { listener, position := feed.journal.length } := by
    intro id subscriber isFound
    rw [get?_add, Option.or_eq_some_iff] at isFound
    rcases isFound with old | ⟨_, new⟩
    · exact Or.inl old
    · right
      by_cases isNew : feed.next = id
      · rw [if_pos isNew] at new
        exact ⟨isNew.symm, (Option.some.inj new).symm⟩
      · rw [if_neg isNew] at new
        cases new
  refine ⟨?_, ?_, ?_, ?_⟩
  · intro id subscriber isFound
    rcases cases_found id subscriber isFound with old | ⟨_, rfl⟩
    · exact attended.within id subscriber old
    · exact ⟨Nat.le_refl _, Nat.le_refl _⟩
  · intro id subscriber isFound scheduled
    rcases cases_found id subscriber isFound with old | ⟨rfl, _⟩
    · exact more id (attended.queued id subscriber old scheduled)
    · exact isQueued
  · intro id subscriber isFound unscheduled
    rcases cases_found id subscriber isFound with old | ⟨_, rfl⟩
    · exact attended.silent id subscriber old unscheduled
    · cases unscheduled
  · intro id subscriber isFound
    rcases cases_found id subscriber isFound with old | ⟨rfl, _⟩
    · exact Nat.lt_succ_of_lt (attended.fresh id subscriber old)
    · exact Nat.lt_succ_self _

/-- Some registrations end here and now. -/
structure IsStopped (after before : Feed) (ends : RegistrationId → Prop) : Prop where
  journal : after.journal = before.journal
  next : after.next = before.next
  ended : ∀ id, ends id → after.subscribers.get? id =
    (before.subscribers.get? id).map (Subscriber.stopAt before.journal.length)
  other : ∀ id, ¬ ends id → after.subscribers.get? id = before.subscribers.get? id

theorem isStopped_remove (feed : Feed) (id : RegistrationId) :
    (feed.remove id).2.IsStopped feed (· = id) where
  journal := rfl
  next := rfl
  ended := by
    rintro _ rfl
    rw [remove, Table.get?_adjust, if_pos rfl]
  other := by
    intro other isOther
    rw [remove, Table.get?_adjust, if_neg isOther]

theorem isStopped_clear (feed : Feed) : feed.clear.IsStopped feed fun _ => True where
  journal := rfl
  next := rfl
  ended := fun id _ => Table.get?_mapValues feed.subscribers _ id
  other := fun _ others => absurd trivial others

theorem bound_stopAt (subscriber : Subscriber) (length : Nat) :
    (subscriber.stopAt length).bound length = subscriber.bound length := by
  unfold Subscriber.stopAt Subscriber.bound
  split
  next isNone => rw [isNone]; rfl
  next => rfl

theorem position_stopAt (subscriber : Subscriber) (place : Nat) :
    (subscriber.stopAt place).position = subscriber.position := by
  unfold Subscriber.stopAt
  split <;> rfl

theorem pending_stopAt (journal : after.journal = feed.journal) (subscriber : Subscriber) :
    after.pending (subscriber.stopAt feed.journal.length) = feed.pending subscriber := by
  rw [pending, pending, journal, bound_stopAt, position_stopAt]

variable {ends : RegistrationId → Prop}

/-- The end of a registration takes nothing away from what is owed. -/
theorem IsStopped.owed (stopped : after.IsStopped feed ends) (id : RegistrationId) :
    after.owed id = feed.owed id := by
  by_cases isEnded : ends id
  · have isStop := stopped.ended id isEnded
    cases found : feed.subscribers.get? id with
    | none =>
        rw [found, Option.map_none] at isStop
        rw [owed_of_none isStop, owed_of_none found]
    | some subscriber =>
        rw [found, Option.map_some] at isStop
        rw [owed_of_found isStop, owed_of_found found]
        exact pending_stopAt stopped.journal subscriber
  · have same := stopped.other id isEnded
    rw [Feed.owed, Feed.owed, same]
    cases feed.subscribers.get? id with
    | none => rfl
    | some subscriber =>
        simp only
        rw [pending, pending, stopped.journal]

theorem IsAttended.stopped (attended : feed.IsAttended queued)
    (stopped : after.IsStopped feed ends) (more : ∀ id, queued id → requeued id)
    (woken : ∀ id ∈ feed.idle, ends id → requeued id) : after.IsAttended requeued := by
  have cases_found : ∀ id subscriber, after.subscribers.get? id = some subscriber →
      ∃ old, feed.subscribers.get? id = some old ∧
        (subscriber = old ∨ ends id ∧ subscriber = old.stopAt feed.journal.length) := by
    intro id subscriber isFound
    by_cases isEnded : ends id
    · rw [stopped.ended id isEnded] at isFound
      obtain ⟨old, oldFound, isStop⟩ := Option.map_eq_some_iff.mp isFound
      exact ⟨old, oldFound, Or.inr ⟨isEnded, isStop.symm⟩⟩
    · rw [stopped.other id isEnded] at isFound
      exact ⟨subscriber, isFound, Or.inl rfl⟩
  refine ⟨?_, ?_, ?_, ?_⟩
  · intro id subscriber isFound
    obtain ⟨old, oldFound, rfl | ⟨_, rfl⟩⟩ := cases_found id subscriber isFound
    · rw [stopped.journal]
      exact attended.within id subscriber oldFound
    · obtain ⟨position_le, bound_le⟩ := attended.within id old oldFound
      rw [stopped.journal]
      constructor
      · rw [position_stopAt, bound_stopAt]
        exact position_le
      · rw [bound_stopAt]
        exact bound_le
  · intro id subscriber isFound scheduled
    obtain ⟨old, oldFound, rfl | ⟨isEnded, rfl⟩⟩ := cases_found id subscriber isFound
    · exact more id (attended.queued id subscriber oldFound scheduled)
    · by_cases idle : old.isIdle = true
      · exact woken id (mem_idle oldFound idle) isEnded
      · have still : old.scheduled = true := by
          unfold Subscriber.stopAt at scheduled
          cases isStop : old.stop with
          | some place =>
              rw [isStop] at scheduled
              exact scheduled
          | none =>
              by_contra unscheduled
              apply idle
              rw [Subscriber.isIdle, Subscriber.isRegistered, isStop,
                eq_false_of_ne_true unscheduled]
              rfl
        exact more id (attended.queued id old oldFound still)
  · intro id subscriber isFound unscheduled
    obtain ⟨old, oldFound, rfl | ⟨_, rfl⟩⟩ := cases_found id subscriber isFound
    · have silent := attended.silent id subscriber oldFound unscheduled
      rw [pending] at silent ⊢
      rw [stopped.journal]
      exact silent
    · rw [pending_stopAt stopped.journal]
      apply attended.silent id old oldFound
      unfold Subscriber.stopAt at unscheduled
      cases isStop : old.stop with
      | some place =>
          rw [isStop] at unscheduled
          exact unscheduled
      | none =>
          rw [isStop] at unscheduled
          cases unscheduled
  · intro id subscriber isFound
    obtain ⟨old, oldFound, _⟩ := cases_found id subscriber isFound
    rw [stopped.next]
    exact attended.fresh id old oldFound

/-! ## Deliveries -/

variable {handover : Handover}

/-- What a delivery hands over, and to whom. -/
structure HandsOver (handover : Handover) (id : RegistrationId) (after before : Feed)
    (subscriber : Subscriber) : Prop where
  found : before.subscribers.get? id = some subscriber
  events : handover.events = (before.pending subscriber).take deliveryLimit
  unfinished : handover.unfinished = (handover.events.length == deliveryLimit)
  journal : after.journal = before.journal
  next : after.next = before.next
  moved : after.subscribers.get? id = some { subscriber with
    position := subscriber.position + handover.events.length
    scheduled := handover.unfinished }
  other : ∀ other, other ≠ id → after.subscribers.get? other = before.subscribers.get? other

theorem exists_handsOver (delivered : feed.deliver id = (some handover, after)) :
    ∃ subscriber, HandsOver handover id after feed subscriber := by
  unfold deliver at delivered
  split at delivered
  next => cases delivered
  next subscriber found =>
    cases delivered
    exact ⟨subscriber, found, rfl, rfl, rfl, rfl, Table.get?_put_self _ _ _,
      fun other isOther => Table.get?_put_of_ne _ _ isOther⟩

namespace HandsOver

theorem pending (hands : HandsOver handover id after feed subscriber) (scheduled : Bool) :
    after.pending { subscriber with
      position := subscriber.position + handover.events.length, scheduled } =
        (feed.pending subscriber).drop handover.events.length := by
  rw [Feed.pending, hands.journal]
  exact List.drop_drop.symm

theorem length_le (hands : HandsOver handover id after feed subscriber) :
    handover.events.length ≤ (feed.pending subscriber).length := by
  rw [hands.events]
  exact List.length_take_le' _ _

/-- What is handed over is owed no longer. -/
theorem owed (hands : HandsOver handover id after feed subscriber) :
    handover.events ++ after.owed id = feed.owed id := by
  rw [owed_of_found hands.moved, owed_of_found hands.found, hands.pending]
  have whole := List.take_append_drop handover.events.length (feed.pending subscriber)
  have taken : (feed.pending subscriber).take handover.events.length = handover.events := by
    rw [hands.events, List.length_take, List.take_eq_take_iff]
    omega
  rw [taken] at whole
  exact whole

theorem owed_of_ne (hands : HandsOver handover id after feed subscriber) (isOther : other ≠ id) :
    after.owed other = feed.owed other := by
  rw [Feed.owed, Feed.owed, hands.other other isOther]
  cases feed.subscribers.get? other with
  | none => rfl
  | some found =>
      simp only
      rw [Feed.pending, Feed.pending, hands.journal]

/-- A delivery that is finished leaves nothing to be handed over. -/
theorem isAttended (hands : HandsOver handover id after feed subscriber)
    (attended : feed.IsAttended queued) (more : ∀ other, other ≠ id → queued other → requeued other)
    (unfinished : handover.unfinished = true → requeued id) : after.IsAttended requeued := by
  have cases_found : ∀ other found, after.subscribers.get? other = some found →
      other = id ∧ found = { subscriber with
        position := subscriber.position + handover.events.length
        scheduled := handover.unfinished } ∨
      other ≠ id ∧ feed.subscribers.get? other = some found := by
    intro other found isFound
    by_cases isOther : other = id
    · rw [isOther, hands.moved] at isFound
      exact Or.inl ⟨isOther, (Option.some.inj isFound).symm⟩
    · rw [hands.other other isOther] at isFound
      exact Or.inr ⟨isOther, isFound⟩
  refine ⟨?_, ?_, ?_, ?_⟩
  · intro other found isFound
    rw [hands.journal]
    rcases cases_found other found isFound with ⟨rfl, rfl⟩ | ⟨_, old⟩
    · obtain ⟨position_le, bound_le⟩ := attended.within other subscriber hands.found
      have length_le := hands.length_le
      rw [Feed.pending, List.length_drop, List.length_take] at length_le
      exact ⟨by simp only [Subscriber.bound] at *; omega, bound_le⟩
    · exact attended.within other found old
  · intro other found isFound scheduled
    rcases cases_found other found isFound with ⟨rfl, rfl⟩ | ⟨isOther, old⟩
    · exact unfinished scheduled
    · exact more other isOther (attended.queued other found old scheduled)
  · intro other found isFound unscheduled
    rcases cases_found other found isFound with ⟨rfl, rfl⟩ | ⟨_, old⟩
    · have short : handover.events.length ≠ deliveryLimit := by
        rw [hands.unfinished] at unscheduled
        exact ne_of_beq_false unscheduled
      rw [hands.pending]
      apply List.drop_eq_nil_of_le
      rw [hands.events, List.length_take] at short ⊢
      omega
    · have silent := attended.silent other found old unscheduled
      rw [Feed.pending] at silent ⊢
      rw [hands.journal]
      exact silent
  · intro other found isFound
    rw [hands.next]
    rcases cases_found other found isFound with ⟨rfl, rfl⟩ | ⟨_, old⟩
    · exact attended.fresh other subscriber hands.found
    · exact attended.fresh other found old

end HandsOver

end Feed

end WatchedTree
