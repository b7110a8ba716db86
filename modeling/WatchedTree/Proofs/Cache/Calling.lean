import WatchedTree.Proofs.Cache.Owing
import WatchedTree.Proofs.History
import WatchedTree.Proofs.World.Delivery

/-!
# The calls of listeners

Registrations come and go, events are written, and the workers of the registrations take events off
their queues, in any order and as many at a time as they like, with listeners that may fail on any
event. Every listener is called with what was written while it was registered: with each event once,
in order, and also after its registration has ended.
-/
namespace WatchedTree

/-- One call of a listener by the worker of its registration. -/
structure FeedCall where
  id : RegistrationId
  event : CacheEvent
  failed : Bool
deriving DecidableEq, Repr

/-- What befalls a feed. -/
inductive FeedAct where
  | add (listener : Listener)
  | remove (id : RegistrationId)
  | clear
  | dispatch (event : CacheEvent)
  /-- A worker takes so many events at most, and calls its listener with each; the listener fails
  on some. -/
  | work (id : RegistrationId) (limit : Nat) (fails : CacheEvent → Bool)
  /-- A worker does what it does in one turn of the queue. -/
  | deliver (id : RegistrationId) (fails : CacheEvent → Bool)

namespace FeedAct

/-- The event that is written. -/
def event? : FeedAct → Option CacheEvent
  | dispatch event => some event
  | _ => none

/-- Holds if a registration does not outlast the act. -/
def ends (id : RegistrationId) : FeedAct → Bool
  | remove other => other == id
  | clear => true
  | _ => false

/-- The act with listeners that do not fail. -/
def spared : FeedAct → FeedAct
  | work id limit _ => work id limit fun _ => false
  | deliver id _ => deliver id fun _ => false
  | act => act

/-- The events that are written by some acts. -/
def written (acts : List FeedAct) : List CacheEvent := acts.filterMap event?

theorem event?_of_ends {id : RegistrationId} {act : FeedAct} (isEnd : act.ends id = true) :
    act.event? = none := by
  cases act with
  | remove | clear => rfl
  | add | dispatch | work | deliver => cases isEnd

end FeedAct

namespace Feed

open FeedAct

/-! ## Workers -/

/-- A subscriber that has taken so many events at most. -/
def advanced (feed : Feed) (limit : Nat) (subscriber : Subscriber) : Subscriber :=
  let count := ((feed.pending subscriber).take limit).length
  { subscriber with position := subscriber.position + count, scheduled := count == limit }

/-- Takes so many events at most off the queue of a registration. -/
def takeOff (feed : Feed) (id : RegistrationId) (limit : Nat) : List CacheEvent × Feed :=
  ((feed.owed id).take limit,
    { feed with subscribers := feed.subscribers.adjust id (feed.advanced limit) })

/-- The calls of a listener with some events. A call that fails is noted as such, and the next one is
made all the same. -/
def callsWith (id : RegistrationId) (fails : CacheEvent → Bool) (events : List CacheEvent) :
    List FeedCall := events.map fun event => { id, event, failed := fails event }

/-- The calls that are made in an act, and the feed after it. -/
def obey (feed : Feed) : FeedAct → List FeedCall × Feed
  | .add listener => ([], (feed.add listener).2)
  | .remove id => ([], (feed.remove id).2)
  | .clear => ([], feed.clear)
  | .dispatch event => ([], (feed.dispatch event).2)
  | .work id limit fails =>
    let (events, after) := feed.takeOff id limit
    (callsWith id fails events, after)
  | .deliver id fails =>
    match feed.deliver id with
    | (none, after) => ([], after)
    | (some handover, after) => (callsWith id fails handover.events, after)

/-- The feed after some acts, one after the other. -/
def run (feed : Feed) (acts : List FeedAct) : Feed :=
  acts.foldl (fun feed act => (feed.obey act).2) feed

/-- All calls that are made over some acts. -/
def calls (feed : Feed) : List FeedAct → List FeedCall
  | [] => []
  | act :: acts => (feed.obey act).1 ++ (feed.obey act).2.calls acts

/-- The events that the listener of a registration is called with. -/
def calledWith (id : RegistrationId) (calls : List FeedCall) : List CacheEvent :=
  (calls.filter fun call => call.id == id).map (·.event)

variable {feed : Feed} {id other : RegistrationId} {limit : Nat} {fails : CacheEvent → Bool}
  {acts before after : List FeedAct} {act : FeedAct} {listener : Listener}

/-- A turn of the queue is a step of the worker with a limit. -/
theorem obey_deliver (feed : Feed) (id : RegistrationId) (fails : CacheEvent → Bool) :
    feed.obey (.deliver id fails) = feed.obey (.work id deliveryLimit fails) := by
  change (match feed.deliver id with
    | (none, after) => ([], after)
    | (some handover, after) => (callsWith id fails handover.events, after)) =
      (callsWith id fails ((feed.owed id).take deliveryLimit), (feed.takeOff id deliveryLimit).2)
  unfold deliver takeOff owed Table.adjust
  cases feed.subscribers.get? id <;> rfl

theorem run_concat (feed : Feed) (acts : List FeedAct) (act : FeedAct) :
    feed.run (acts ++ [act]) = ((feed.run acts).obey act).2 := by
  rw [run, List.foldl_append]
  rfl

theorem run_append (feed : Feed) (first second : List FeedAct) :
    feed.run (first ++ second) = (feed.run first).run second :=
  List.foldl_append

theorem calls_append (feed : Feed) (first second : List FeedAct) :
    feed.calls (first ++ second) = feed.calls first ++ (feed.run first).calls second := by
  induction first generalizing feed with
  | nil => rfl
  | cons act others inductionHypothesis =>
      rw [List.cons_append, calls, inductionHypothesis, calls, List.append_assoc]
      rfl

theorem calledWith_append (id : RegistrationId) (first second : List FeedCall) :
    calledWith id (first ++ second) = calledWith id first ++ calledWith id second := by
  rw [calledWith, List.filter_append, List.map_append]
  rfl

theorem calledWith_callsWith (id other : RegistrationId) (fails : CacheEvent → Bool)
    (events : List CacheEvent) :
    calledWith id (callsWith other fails events) = if other = id then events else [] := by
  by_cases same : other = id <;>
    simp [calledWith, callsWith, List.filter_map, Function.comp_def, same]

/-! ## What a step of a worker changes -/

theorem get?_takeOff (feed : Feed) (id other : RegistrationId) (limit : Nat) :
    (feed.takeOff id limit).2.subscribers.get? other =
      if other = id then (feed.subscribers.get? id).map (feed.advanced limit)
      else feed.subscribers.get? other :=
  Table.get?_adjust feed.subscribers id other (feed.advanced limit)

theorem pending_advanced (feed : Feed) (limit : Nat) (subscriber : Subscriber) :
    feed.pending (feed.advanced limit subscriber) = (feed.pending subscriber).drop limit := by
  rw [advanced, pending_skip, List.length_take, List.drop_eq_drop_iff]
  omega

theorem owed_takeOff (feed : Feed) (id other : RegistrationId) (limit : Nat) :
    (feed.takeOff id limit).2.owed other =
      if other = id then (feed.owed id).drop limit else feed.owed other := by
  have found := get?_takeOff feed id other limit
  by_cases same : other = id
  · subst same
    rw [if_pos rfl] at found ⊢
    cases held : feed.subscribers.get? other with
    | none =>
        rw [held, Option.map_none] at found
        rw [owed_of_none found, owed_of_none held, List.drop_nil]
    | some subscriber =>
        rw [held, Option.map_some] at found
        rw [owed_of_found found, owed_of_found held]
        exact pending_advanced feed limit subscriber
  · rw [if_neg same] at found ⊢
    rw [owed, owed, found]
    rfl

/-- The feed is one that can come about. -/
abbrev IsOrderly (feed : Feed) : Prop := feed.IsAttended fun _ => True

theorem isOrderly_new : ({} : Feed).IsOrderly := isAttended_new _

theorem IsOrderly.takeOff (orderly : feed.IsOrderly) (id : RegistrationId) (limit : Nat) :
    (feed.takeOff id limit).2.IsOrderly := by
  have cases_found : ∀ other subscriber,
      (feed.takeOff id limit).2.subscribers.get? other = some subscriber →
        feed.subscribers.get? other = some subscriber ∨
          ∃ old, feed.subscribers.get? other = some old ∧
            subscriber = feed.advanced limit old := by
    intro other subscriber isFound
    rw [get?_takeOff] at isFound
    split at isFound
    next same =>
      obtain ⟨old, oldFound, isAdvanced⟩ := Option.map_eq_some_iff.mp isFound
      exact Or.inr ⟨old, same ▸ oldFound, isAdvanced.symm⟩
    next => exact Or.inl isFound
  refine ⟨?_, fun _ _ _ _ => trivial, ?_, ?_⟩
  · intro other subscriber isFound
    rcases cases_found other subscriber isFound with old | ⟨old, oldFound, rfl⟩
    · exact orderly.within other subscriber old
    · obtain ⟨position_le, bound_le⟩ := orderly.within other old oldFound
      have left : (feed.pending old).length ≤ old.bound feed.journal.length - old.position := by
        rw [pending, List.length_drop, List.length_take]
        omega
      have fewer : ((feed.pending old).take limit).length ≤ (feed.pending old).length :=
        List.length_take_le' limit _
      refine ⟨?_, bound_le⟩
      change old.position + ((feed.pending old).take limit).length ≤ old.bound feed.journal.length
      omega
  · intro other subscriber isFound unscheduled
    change feed.pending subscriber = []
    rcases cases_found other subscriber isFound with old | ⟨old, oldFound, rfl⟩
    · exact orderly.silent other subscriber old unscheduled
    · have short : ((feed.pending old).take limit).length ≠ limit := ne_of_beq_false unscheduled
      rw [pending_advanced]
      apply List.drop_eq_nil_of_le
      rw [List.length_take] at short
      omega
  · intro other subscriber isFound
    rcases cases_found other subscriber isFound with old | ⟨old, oldFound, rfl⟩
    · exact orderly.fresh other subscriber old
    · exact orderly.fresh other old oldFound

/-! ## What an act changes -/

theorem IsOrderly.obey (orderly : feed.IsOrderly) (act : FeedAct) :
    (feed.obey act).2.IsOrderly := by
  cases act with
  | add listener => exact IsAttended.add orderly listener (fun _ _ => trivial) trivial
  | remove id =>
      exact IsAttended.stopped orderly (isStopped_remove feed id) (fun _ _ => trivial)
        fun _ _ _ => trivial
  | clear =>
      exact IsAttended.stopped orderly (isStopped_clear feed) (fun _ _ => trivial)
        fun _ _ _ => trivial
  | dispatch event =>
      exact IsAttended.dispatchAll orderly [event] (fun _ _ => trivial) fun _ _ _ => trivial
  | work id limit fails => exact orderly.takeOff id limit
  | deliver id fails =>
      rw [obey_deliver]
      exact orderly.takeOff id deliveryLimit

theorem IsOrderly.run (orderly : feed.IsOrderly) (acts : List FeedAct) :
    (feed.run acts).IsOrderly := by
  induction acts generalizing feed with
  | nil => exact orderly
  | cons act others inductionHypothesis => exact inductionHypothesis (orderly.obey act)

/-- Numbers are given one after the other. -/
theorem next_obey (feed : Feed) (act : FeedAct) :
    (feed.obey act).2.next = match act with
      | .add _ => feed.next + 1
      | _ => feed.next := by
  cases act with
  | deliver id fails =>
      rw [obey_deliver]
      rfl
  | add | remove | clear | dispatch | work => rfl

theorem next_le_obey (feed : Feed) (act : FeedAct) : feed.next ≤ (feed.obey act).2.next := by
  rw [next_obey]
  split
  · exact Nat.le_succ _
  · exact Nat.le_refl _

theorem next_le_run (feed : Feed) (acts : List FeedAct) : feed.next ≤ (feed.run acts).next := by
  induction acts generalizing feed with
  | nil => exact Nat.le_refl _
  | cons act others inductionHypothesis =>
      exact Nat.le_trans (next_le_obey feed act) (inductionHypothesis (feed.obey act).2)

theorem IsOrderly.get?_of_next_le (orderly : feed.IsOrderly) (unknown : feed.next ≤ id) :
    feed.subscribers.get? id = none := by
  by_contra present
  obtain ⟨subscriber, found⟩ := Option.ne_none_iff_exists'.mp present
  exact absurd (orderly.fresh id subscriber found) (Nat.not_lt.mpr unknown)

theorem isRegistered_eq (feed : Feed) (id : RegistrationId) :
    feed.isRegistered id = (feed.subscribers.get? id).any Subscriber.isRegistered := by
  unfold isRegistered
  cases feed.subscribers.get? id <;> rfl

theorem isRegistered_takeOff (feed : Feed) (id other : RegistrationId) (limit : Nat) :
    (feed.takeOff other limit).2.isRegistered id = feed.isRegistered id := by
  rw [isRegistered_eq, isRegistered_eq, get?_takeOff]
  split
  next same =>
    subst same
    cases feed.subscribers.get? id <;> rfl
  next => rfl

theorem isRegistered_of_stopped {stopped : Feed}
    (ended : stopped.subscribers.get? id =
      (feed.subscribers.get? id).map (Subscriber.stopAt feed.journal.length)) :
    stopped.isRegistered id = false := by
  rw [isRegistered_eq, ended]
  cases feed.subscribers.get? id with
  | none => rfl
  | some subscriber =>
      rw [Option.map_some, Option.any_some, Subscriber.stopAt, Subscriber.isRegistered]
      cases isStop : subscriber.stop with
      | none => rfl
      | some place =>
          rw [isStop]
          rfl

theorem isRegistered_obey_of_ends (isEnd : act.ends id = true) :
    (feed.obey act).2.isRegistered id = false := by
  cases act with
  | remove other =>
      obtain rfl : other = id := eq_of_beq isEnd
      exact isRegistered_of_stopped ((isStopped_remove feed other).ended other rfl)
  | clear => exact isRegistered_of_stopped ((isStopped_clear feed).ended id trivial)
  | add | dispatch | work | deliver => cases isEnd

theorem isRegistered_obey_of_not_ends (known : id < feed.next) (lasts : act.ends id = false) :
    (feed.obey act).2.isRegistered id = feed.isRegistered id := by
  cases act with
  | add listener =>
      rw [isRegistered_eq, isRegistered_eq]
      change Option.any _ ((feed.add listener).2.subscribers.get? id) = _
      rw [get?_add, if_neg (Nat.ne_of_gt known), Option.or_none]
  | remove other =>
      rw [isRegistered_eq, isRegistered_eq]
      exact congrArg _ ((isStopped_remove feed other).other id (Ne.symm (ne_of_beq_false lasts)))
  | clear => cases lasts
  | dispatch event =>
      rw [isRegistered_eq, isRegistered_eq]
      change Option.any _ ((feed.dispatchAll [event]).subscribers.get? id) = _
      rw [get?_dispatchAll feed (List.cons_ne_nil _ _)]
      cases feed.subscribers.get? id with
      | none => rfl
      | some subscriber =>
          change subscriber.woken.stop.isNone = subscriber.stop.isNone
          rw [subscriber.stop_woken]
  | work other limit fails => exact isRegistered_takeOff feed id other limit
  | deliver other fails =>
      rw [obey_deliver]
      exact isRegistered_takeOff feed id other deliveryLimit

/-- A known registration lasts until an act ends it. -/
theorem isRegistered_obey (known : id < feed.next) (act : FeedAct) :
    (feed.obey act).2.isRegistered id = (feed.isRegistered id && !act.ends id) := by
  cases isEnd : act.ends id with
  | true => rw [isRegistered_obey_of_ends isEnd, Bool.not_true, Bool.and_false]
  | false => rw [isRegistered_obey_of_not_ends known isEnd, Bool.not_false, Bool.and_true]

/-- A number that was not given yet is given to the next listener that registers. -/
theorem IsOrderly.isRegistered_obey_of_unknown (orderly : feed.IsOrderly)
    (unknown : feed.next ≤ id) :
    (feed.obey act).2.isRegistered id = true ↔
      ∃ listener, act = .add listener ∧ id = feed.next := by
  have absent := orderly.get?_of_next_le unknown
  have unregistered : ∀ act, (feed.obey act).2.next = feed.next →
      ¬ (feed.obey act).2.isRegistered id = true := by
    intro act sameNext
    rw [isRegistered_of_none ((orderly.obey act).get?_of_next_le (sameNext ▸ unknown))]
    exact Bool.false_ne_true
  cases act with
  | add listener =>
      change ((feed.add listener).2.isRegistered id) = true ↔ _
      rw [isRegistered_eq, get?_add, absent, Option.none_or]
      by_cases isNew : feed.next = id
      · rw [if_pos isNew]
        exact ⟨fun _ => ⟨listener, rfl, isNew.symm⟩, fun _ => rfl⟩
      · rw [if_neg isNew]
        exact ⟨nofun, fun ⟨_, _, isNext⟩ => absurd isNext.symm isNew⟩
  | remove | clear | dispatch | work | deliver =>
      exact ⟨fun registered => absurd registered (unregistered _ (next_obey feed _)), nofun⟩

theorem called_takeOff (feed : Feed) (id other : RegistrationId) (limit : Nat)
    (fails : CacheEvent → Bool) :
    calledWith id (callsWith other fails (feed.takeOff other limit).1) ++
      (feed.takeOff other limit).2.owed id = feed.owed id := by
  rw [calledWith_callsWith, owed_takeOff]
  by_cases same : other = id
  · subst same
    rw [if_pos rfl, if_pos rfl]
    exact List.take_append_drop limit _
  · rw [if_neg same, if_neg (Ne.symm same)]
    rfl

theorem owed_obey_of_silent (id : RegistrationId) (silent : act.event? = none) :
    calledWith id (feed.obey act).1 ++ (feed.obey act).2.owed id = feed.owed id := by
  cases act with
  | add listener => exact owed_add feed listener id
  | remove other => exact (isStopped_remove feed other).owed id
  | clear => exact (isStopped_clear feed).owed id
  | dispatch event => cases silent
  | work other limit fails => exact called_takeOff feed id other limit fails
  | deliver other fails =>
      rw [obey_deliver]
      exact called_takeOff feed id other deliveryLimit fails

/-- A listener is called with what is taken off its queue, and to its queue is added what is written
while it is registered. -/
theorem IsOrderly.owed_obey (orderly : feed.IsOrderly) (id : RegistrationId) (act : FeedAct) :
    calledWith id (feed.obey act).1 ++ (feed.obey act).2.owed id =
      feed.owed id ++ if feed.isRegistered id then act.event?.toList else [] := by
  cases isEvent : act.event? with
  | none =>
      rw [owed_obey_of_silent id isEvent, Option.toList_none, ite_self, List.append_nil]
  | some event =>
      cases act with
      | dispatch other =>
          cases isEvent
          exact IsAttended.owed_dispatchAll orderly [event] id
      | add | remove | clear | work | deliver => cases isEvent

/-! ## Runs -/

/-- What a known listener is called with over a run, and what is left in its queue, is what was there
and what is written up to the end of its registration. -/
theorem IsOrderly.called (orderly : feed.IsOrderly) (known : id < feed.next)
    (acts : List FeedAct) :
    calledWith id (feed.calls acts) ++ (feed.run acts).owed id =
      feed.owed id ++
        if feed.isRegistered id then written (acts.takeWhile fun act => !act.ends id) else [] := by
  induction acts generalizing feed with
  | nil =>
      change feed.owed id = feed.owed id ++ if feed.isRegistered id then [] else []
      rw [ite_self, List.append_nil]
  | cons act others inductionHypothesis =>
      have later := inductionHypothesis (orderly.obey act)
        (Nat.lt_of_lt_of_le known (next_le_obey feed act))
      have now := orderly.owed_obey id act
      rw [isRegistered_obey known] at later
      have split : calledWith id (feed.calls (act :: others)) ++
          (feed.run (act :: others)).owed id =
            calledWith id (feed.obey act).1 ++ (calledWith id ((feed.obey act).2.calls others) ++
              ((feed.obey act).2.run others).owed id) := by
        rw [calls, calledWith_append, List.append_assoc]
        rfl
      rw [split, later, ← List.append_assoc, now, List.append_assoc]
      congr 1
      cases feed.isRegistered id with
      | false => rfl
      | true =>
          cases isEnd : act.ends id with
          | true => simp [isEnd, event?_of_ends isEnd, written]
          | false => cases isEvent : act.event? <;> simp [isEnd, isEvent, written]

/-- Only listeners that have registered are called. -/
theorem IsOrderly.lt_next_of_mem_calls (orderly : feed.IsOrderly) {call : FeedCall}
    (member : call ∈ feed.calls acts) : call.id < (feed.run acts).next := by
  induction acts generalizing feed with
  | nil => exact absurd member List.not_mem_nil
  | cons act others inductionHypothesis =>
      rcases List.mem_append.mp member with now | later
      · have known : call.id < feed.next := by
          by_contra unknown
          have absent := orderly.get?_of_next_le (Nat.le_of_not_lt unknown)
          have worked : ∀ id limit fails, call ∉ (feed.obey (.work id limit fails)).1 := by
            intro id limit fails called
            obtain ⟨event, isOwed, rfl⟩ := List.mem_map.mp called
            have owed := List.mem_of_mem_take isOwed
            rw [owed_of_none absent] at owed
            exact List.not_mem_nil owed
          cases act with
          | add | remove | clear | dispatch => exact List.not_mem_nil now
          | work id limit fails => exact worked id limit fails now
          | deliver id fails =>
              rw [obey_deliver] at now
              exact worked id deliveryLimit fails now
        exact Nat.lt_of_lt_of_le known
          (Nat.le_trans (next_le_obey feed act) (next_le_run _ others))
      · exact inductionHypothesis (orderly.obey act) later

theorem calledWith_eq_nil {calls : List FeedCall} (nobody : ∀ call ∈ calls, call.id ≠ id) :
    calledWith id calls = [] := by
  rw [calledWith, List.filter_eq_nil_iff.mpr, List.map_nil]
  intro call member
  simpa using nobody call member

/-! ## Listeners that fail -/

theorem obey_spared (feed : Feed) (act : FeedAct) :
    feed.obey act.spared =
      ((feed.obey act).1.map fun call => { call with failed := false }, (feed.obey act).2) := by
  cases act with
  | add | remove | clear | dispatch => rfl
  | work id limit fails => simp [obey, spared, callsWith]
  | deliver id fails =>
      rw [obey_deliver, spared, obey_deliver]
      simp [obey, callsWith]

/-- Listeners that fail change nothing but the notes of their failures. -/
theorem run_spared (feed : Feed) (acts : List FeedAct) :
    feed.run (acts.map spared) = feed.run acts ∧
      feed.calls (acts.map spared) =
        (feed.calls acts).map fun call => { call with failed := false } := by
  induction acts generalizing feed with
  | nil => exact ⟨rfl, rfl⟩
  | cons act others inductionHypothesis =>
      obtain ⟨sameFeed, sameCalls⟩ := inductionHypothesis (feed.obey act).2
      constructor
      · change (feed.obey act.spared).2.run (others.map spared) = _
        rw [obey_spared]
        exact sameFeed
      · rw [List.map_cons, calls, obey_spared, sameCalls, calls, List.map_append]

/-! ## Registrations -/

/-- The registration was made by one of the acts, and none of the later ones ended it. -/
def Stands (acts : List FeedAct) (id : RegistrationId) : Prop :=
  ∃ before listener after, acts = before ++ .add listener :: after ∧
    id = (({} : Feed).run before).next ∧ ∀ act ∈ after, act.ends id = false

theorem stands_concat_of_known (known : id < (({} : Feed).run acts).next) :
    Stands (acts ++ [act]) id ↔ Stands acts id ∧ act.ends id = false := by
  constructor
  · rintro ⟨before, listener, after, split, rfl, lasts⟩
    rcases split_concat split with ⟨rfl, rfl, rfl⟩ | ⟨rest, rfl, earlier⟩
    · exact absurd known (Nat.lt_irrefl _)
    · exact ⟨⟨before, listener, rest, earlier, rfl,
        fun other member => lasts other (List.mem_append_left _ member)⟩,
        lasts act (List.mem_append_right _ List.mem_cons_self)⟩
  · rintro ⟨⟨before, listener, after, rfl, isId, lasts⟩, last⟩
    refine ⟨before, listener, after ++ [act], by simp, isId, ?_⟩
    intro other member
    rcases List.mem_append.mp member with earlier | isLast
    · exact lasts other earlier
    · exact List.mem_singleton.mp isLast ▸ last

theorem Stands.lt_next (stands : Stands acts id) : id < (({} : Feed).run acts).next := by
  obtain ⟨before, listener, after, rfl, rfl, _⟩ := stands
  rw [run_append]
  exact next_le_run ((({} : Feed).run before).obey (.add listener)).2 after

theorem stands_concat_of_unknown (unknown : (({} : Feed).run acts).next ≤ id) :
    Stands (acts ++ [act]) id ↔
      ∃ listener, act = .add listener ∧ id = (({} : Feed).run acts).next := by
  constructor
  · rintro ⟨before, listener, after, split, isId, lasts⟩
    rcases split_concat split with ⟨rfl, rfl, rfl⟩ | ⟨rest, rfl, earlier⟩
    · exact ⟨listener, rfl, isId⟩
    · have stands : Stands acts id := ⟨before, listener, rest, earlier, isId,
        fun other member => lasts other (List.mem_append_left _ member)⟩
      exact absurd stands.lt_next (Nat.not_lt.mpr unknown)
  · rintro ⟨listener, rfl, isId⟩
    exact ⟨acts, listener, [], rfl, isId, fun _ none => absurd none List.not_mem_nil⟩

/-- A registration is there as long as no act has ended it. -/
theorem isRegistered_run_iff (acts : List FeedAct) (id : RegistrationId) :
    (({} : Feed).run acts).isRegistered id = true ↔ Stands acts id := by
  induction acts using List.reverseRecOn with
  | nil =>
      constructor
      · intro registered
        cases registered
      · rintro ⟨before, listener, after, split, _⟩
        simp at split
  | append_singleton others act inductionHypothesis =>
      have orderly : (({} : Feed).run others).IsOrderly := isOrderly_new.run others
      rw [run_concat]
      rcases Nat.lt_or_ge id (({} : Feed).run others).next with known | unknown
      · rw [isRegistered_obey known, Bool.and_eq_true, Bool.not_eq_true', inductionHypothesis,
          stands_concat_of_known known]
      · rw [orderly.isRegistered_obey_of_unknown unknown, stands_concat_of_unknown unknown]

/-! ## All that is told -/

/-- Over some acts every listener is called with what was written while it was registered, and
numbers stand for one registration each. -/
structure TellsExactly (acts : List FeedAct) : Prop where
  /-- The calls made so far and the queue are the events between the registration and its end. -/
  called : ∀ before listener after, acts = before ++ .add listener :: after →
    ∀ id, id = ((({} : Feed).run before).add listener).1 →
      calledWith id (({} : Feed).calls acts) ++ (({} : Feed).run acts).owed id =
        written (after.takeWhile fun act => !act.ends id)
  /-- A worker goes on with its queue, whether or not the registration has ended. -/
  goesOn : ∀ id limit fails,
    ((({} : Feed).run acts).obey (.work id limit fails)).1 =
      callsWith id fails (((({} : Feed).run acts).owed id).take limit)
  turns : ∀ id fails,
    ((({} : Feed).run acts).obey (.deliver id fails)).1 =
      callsWith id fails (((({} : Feed).run acts).owed id).take deliveryLimit)
  /-- No two registrations get the same number. -/
  apart : ∀ first listener between other rest,
    acts = first ++ .add listener :: between ++ .add other :: rest →
      ((({} : Feed).run first).add listener).1 ≠
        ((({} : Feed).run (first ++ .add listener :: between)).add other).1
  removes : ∀ id, ((({} : Feed).run acts).remove id).1 = true ↔ Stands acts id
  /-- What was removed once is not removed again. -/
  once : ∀ before id after, acts = before ++ .remove id :: after →
    ((({} : Feed).run before).remove id).1 = true → ((({} : Feed).run acts).remove id).1 = false
  others : ∀ id other, other ≠ id →
    ((({} : Feed).run acts).remove id).2.subscribers.get? other =
        (({} : Feed).run acts).subscribers.get? other ∧
      ((({} : Feed).run acts).remove id).2.owed other = (({} : Feed).run acts).owed other
  /-- If the listeners had not failed, the same calls would have been made. -/
  spares : ({} : Feed).run (acts.map spared) = ({} : Feed).run acts ∧
    ({} : Feed).calls (acts.map spared) =
      (({} : Feed).calls acts).map fun call => { call with failed := false }

theorem called_after_add (before after : List FeedAct) (listener : Listener) :
    calledWith (({} : Feed).run before).next (({} : Feed).calls (before ++ .add listener :: after)) ++
        (({} : Feed).run (before ++ .add listener :: after)).owed (({} : Feed).run before).next =
      written (after.takeWhile fun act => !act.ends (({} : Feed).run before).next) := by
  have orderly : (({} : Feed).run before).IsOrderly := isOrderly_new.run before
  generalize isFeed : ({} : Feed).run before = feed at orderly
  have earlier : calledWith feed.next (({} : Feed).calls before) = [] := by
    apply calledWith_eq_nil
    intro call member
    have upTo := isOrderly_new.lt_next_of_mem_calls member
    rw [isFeed] at upTo
    exact Nat.ne_of_lt upTo
  have registered : (feed.add listener).2.isRegistered feed.next = true := by
    rw [isRegistered_eq, get?_add, orderly.get?_of_next_le (Nat.le_refl _), Option.none_or,
      if_pos rfl]
    rfl
  have nothing : (feed.add listener).2.owed feed.next = [] := by
    rw [owed_add]
    exact owed_of_none (orderly.get?_of_next_le (Nat.le_refl _))
  have added : (feed.add listener).2.IsOrderly := orderly.obey (.add listener)
  have told := added.called (Nat.lt_succ_self feed.next) after
  rw [nothing, List.nil_append, if_pos registered] at told
  rw [calls_append, calledWith_append, earlier, List.nil_append, run_append, isFeed]
  exact told

theorem not_stands_of_removed (before after : List FeedAct) (id : RegistrationId)
    (wasThere : Stands before id) : ¬ Stands (before ++ .remove id :: after) id := by
  induction after using List.reverseRecOn with
  | nil =>
      rw [stands_concat_of_known wasThere.lt_next]
      rintro ⟨_, lasts⟩
      rw [ends, beq_self_eq_true] at lasts
      cases lasts
  | append_singleton others act inductionHypothesis =>
      have known : id < (({} : Feed).run (before ++ .remove id :: others)).next := by
        rw [run_append]
        exact Nat.lt_of_lt_of_le wasThere.lt_next (next_le_run _ _)
      rw [← List.cons_append, ← List.append_assoc, stands_concat_of_known known]
      exact fun stands => inductionHypothesis stands.1

theorem tells_exactly (acts : List FeedAct) : TellsExactly acts where
  called := by
    rintro before listener after rfl id rfl
    exact called_after_add before after listener
  goesOn := fun _ _ _ => rfl
  turns := fun id fails => by rw [obey_deliver]; rfl
  apart := by
    rintro first listener between other rest -
    apply Nat.ne_of_lt
    change (({} : Feed).run first).next < (({} : Feed).run (first ++ .add listener :: between)).next
    rw [run_append]
    exact next_le_run ((({} : Feed).run first).obey (.add listener)).2 between
  removes := fun id => isRegistered_run_iff acts id
  once := by
    rintro before id after rfl removed
    have wasThere : Stands before id := (isRegistered_run_iff before id).mp removed
    apply eq_false_of_ne_true
    intro again
    exact not_stands_of_removed before after id wasThere
      ((isRegistered_run_iff (before ++ .remove id :: after) id).mp again)
  others := by
    intro id other isOther
    exact ⟨(isStopped_remove _ id).other other isOther, (isStopped_remove _ id).owed other⟩
  spares := run_spared {} acts

/-- A listener that fails on its first event hears the second one too, though it was removed before
its worker ran. -/
example : ({} : Feed).calls [.add { label := [] }, .dispatch (.refreshed ['a']),
    .dispatch (.refreshed ['b']), .remove 1, .dispatch (.refreshed ['c']),
    .work 1 1 fun _ => true, .deliver 1 fun _ => false] =
      [⟨1, .refreshed ['a'], true⟩, ⟨1, .refreshed ['b'], false⟩] := by decide

end Feed

namespace World

/-- What is noted of a call in a world. -/
def note (listener : Listener) (call : FeedCall) : Call :=
  { label := listener.label, heard := .event call.event, failed := call.failed }

theorem foldl_call_callsWith (id : RegistrationId) (listener : Listener) (events : List CacheEvent)
    (world : World) :
    events.foldl (fun state event => state.call listener (.event event)) world =
      { world with
        calls := world.calls ++
          (Feed.callsWith id (fun _ => listener.fails) events).map (note listener) } := by
  induction events generalizing world with
  | nil =>
      change world = { world with calls := world.calls ++ [] }
      rw [List.append_nil]
  | cons event others inductionHypothesis =>
      rw [List.foldl_cons, inductionHypothesis, call]
      simp only [List.append_assoc]
      rfl

/-- In a world a delivery is a turn of the queue of one listener, which fails on all events or on
none. -/
theorem deliver_eq_turn (world : World) {id : CacheId} {cache : Cache}
    {subscriber : RegistrationId} {registration : Subscriber}
    (found : world.caches[id]? = some cache)
    (registered : cache.feed.subscribers.get? subscriber = some registration) :
    let turn := cache.feed.obey (.deliver subscriber fun _ => registration.listener.fails)
    (world.deliver id subscriber).calls =
        world.calls ++ turn.1.map (note registration.listener) ∧
      (world.deliver id subscriber).caches = world.caches.set id { cache with feed := turn.2 } := by
  obtain ⟨handover, after, delivered, isListener⟩ : ∃ handover after,
      cache.feed.deliver subscriber = (some handover, after) ∧
        handover.listener = registration.listener := by
    rw [Feed.deliver, registered]
    exact ⟨_, _, rfl, rfl⟩
  have obeyed : cache.feed.obey (.deliver subscriber fun _ => registration.listener.fails) =
      (Feed.callsWith subscriber (fun _ => registration.listener.fails) handover.events, after) := by
    rw [Feed.obey, delivered]
  rw [obeyed, ← isListener, deliver, found]
  simp only [delivered, foldl_call_callsWith subscriber]
  split <;> exact ⟨rfl, rfl⟩

end World

end WatchedTree
