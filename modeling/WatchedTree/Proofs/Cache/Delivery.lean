import Mathlib.Data.List.Induction
import WatchedTree.Cache.Feed
import WatchedTree.Proofs.Table.Keys

/-!
# Deliveries of a feed

A delivery makes what is left to be told shorter by what it hands over. It is unfinished only if it
has handed over something.
-/
namespace WatchedTree

namespace Feed

variable {feed after : Feed} {id : RegistrationId} {subscriber : Subscriber} {handover : Handover}

/-- Number of the calls that are left to be made, over all subscribers. -/
def unread (feed : Feed) : Nat :=
  (feed.subscribers.map fun pair => (feed.pending pair.2).length).sum

theorem pending_skip (feed : Feed) (subscriber : Subscriber) (count : Nat) (scheduled : Bool) :
    feed.pending { subscriber with position := subscriber.position + count, scheduled } =
      (feed.pending subscriber).drop count :=
  List.drop_drop.symm

theorem journal_deliver (delivered : feed.deliver id = (some handover, after)) :
    after.journal = feed.journal := by
  unfold deliver at delivered
  split at delivered
  next => cases delivered
  next =>
    cases delivered
    rfl

theorem unread_deliver (delivered : feed.deliver id = (some handover, after)) :
    after.unread + handover.events.length = feed.unread ∧
      (handover.unfinished = true → 0 < handover.events.length) := by
  unfold deliver at delivered
  split at delivered
  next => cases delivered
  next subscriber found =>
    cases delivered
    refine ⟨?_, ?_⟩
    · have counted := Table.sum_put_of_some found
        { subscriber with
          position := subscriber.position + ((feed.pending subscriber).take deliveryLimit).length
          scheduled := ((feed.pending subscriber).take deliveryLimit).length == deliveryLimit }
        fun other => (feed.pending other).length
      have part : ((feed.pending subscriber).take deliveryLimit).length ≤
          (feed.pending subscriber).length := List.length_take_le' _ _
      simp only [pending_skip, List.length_drop] at counted
      simp only
      generalize ((feed.pending subscriber).take deliveryLimit).length = count at counted part ⊢
      change (List.map (fun pair => (feed.pending pair.2).length)
        (feed.subscribers.put id _)).sum + count = feed.unread
      rw [unread]
      omega
    · intro unfinished
      have reached := beq_iff_eq.mp unfinished
      simp only
      rw [reached]
      decide

/-! ## Events written one after the other -/

/-- The feed after some events. -/
def dispatchAll (feed : Feed) (events : List CacheEvent) : Feed :=
  events.foldl (fun feed event => (feed.dispatch event).2) feed

@[simp] theorem dispatchAll_nil (feed : Feed) : feed.dispatchAll [] = feed := rfl

theorem dispatchAll_concat (feed : Feed) (events : List CacheEvent) (event : CacheEvent) :
    feed.dispatchAll (events ++ [event]) = ((feed.dispatchAll events).dispatch event).2 := by
  rw [dispatchAll, List.foldl_append]
  rfl

theorem journal_dispatchAll (feed : Feed) (events : List CacheEvent) :
    (feed.dispatchAll events).journal = feed.journal ++ events := by
  induction events using List.reverseRecOn with
  | nil => exact (List.append_nil _).symm
  | append_singleton others last inductionHypothesis =>
      rw [dispatchAll_concat, dispatch, inductionHypothesis, List.append_assoc]

theorem next_dispatchAll (feed : Feed) (events : List CacheEvent) :
    (feed.dispatchAll events).next = feed.next := by
  induction events using List.reverseRecOn with
  | nil => rfl
  | append_singleton others last inductionHypothesis =>
      rw [dispatchAll_concat, dispatch, inductionHypothesis]

end Feed

/-- A subscriber that an event wakes if it is idle. -/
def Subscriber.woken (subscriber : Subscriber) : Subscriber :=
  if subscriber.isIdle then { subscriber with scheduled := true } else subscriber

theorem Subscriber.isIdle_woken (subscriber : Subscriber) : subscriber.woken.isIdle = false := by
  unfold woken
  by_cases idle : subscriber.isIdle = true
  · rw [if_pos idle, isIdle, Bool.not_true, Bool.and_false]
  · rw [if_neg idle]
    exact eq_false_of_ne_true idle

theorem Subscriber.position_woken (subscriber : Subscriber) :
    subscriber.woken.position = subscriber.position := by
  unfold woken
  split <;> rfl

theorem Subscriber.stop_woken (subscriber : Subscriber) :
    subscriber.woken.stop = subscriber.stop := by
  unfold woken
  split <;> rfl

theorem Subscriber.woken_of_not_isIdle {subscriber : Subscriber}
    (busy : subscriber.isIdle = false) : subscriber.woken = subscriber := by
  simp [woken, busy]

namespace Feed

/-- The first event wakes whoever is idle, and the later ones nobody. -/
theorem get?_dispatchAll (feed : Feed) {events : List CacheEvent} (some : events ≠ [])
    (id : RegistrationId) :
    (feed.dispatchAll events).subscribers.get? id =
      (feed.subscribers.get? id).map Subscriber.woken := by
  induction events using List.reverseRecOn with
  | nil => exact absurd rfl some
  | append_singleton others last inductionHypothesis =>
      have dispatched : ∀ feed : Feed, (feed.dispatch last).2.subscribers.get? id =
          (feed.subscribers.get? id).map Subscriber.woken := fun feed =>
        Table.get?_mapValues feed.subscribers Subscriber.woken id
      rw [dispatchAll_concat, dispatched]
      by_cases first : others = []
      · rw [first, dispatchAll_nil]
      · rw [inductionHypothesis first, Option.map_map]
        congr 1
        funext subscriber
        exact Subscriber.woken_of_not_isIdle subscriber.isIdle_woken

end Feed

end WatchedTree
