import WatchedTree.Proofs.Cache.Delivery
import WatchedTree.Proofs.World.Journal

/-!
# Deliveries

A delivery that is run calls listeners and moves on in one feed; it changes nothing else. If it
waits for another round, then less is left to be told.
-/
namespace WatchedTree

theorem sum_map_set {Value : Type} (size : Value → Nat) {values : List Value} {place : Nat}
    {old : Value} (found : values[place]? = some old) (value : Value) :
    ((values.set place value).map size).sum + size old = (values.map size).sum + size value := by
  induction values generalizing place with
  | nil => cases found
  | cons first rest inductionHypothesis =>
      cases place with
      | zero =>
          cases found
          simp only [List.set_cons_zero, List.map_cons, List.sum_cons]
          omega
      | succ place =>
          have tail := inductionHypothesis found
          simp only [List.set_cons_succ, List.map_cons, List.sum_cons]
          omega

namespace World

variable {world : World} {id : CacheId} {cache : Cache} {subscriber : RegistrationId}

/-- Number of the calls that are left to be made, over all caches. -/
def unread (world : World) : Nat := (world.caches.map fun cache => cache.feed.unread).sum

/-- Calls of listeners are all that is added when some events are handed over. -/
theorem foldl_call (listener : Listener) (events : List CacheEvent) (world : World) :
    ∃ calls, events.foldl (fun state event => state.call listener (.event event)) world =
      { world with calls } := by
  induction events generalizing world with
  | nil => exact ⟨world.calls, rfl⟩
  | cons event others inductionHypothesis => exact inductionHypothesis _

/-- What a delivery does, but for its part in the run of a world. -/
structure Delivered (after before : World) : Prop where
  journal : ∀ id, after.journal id = before.journal id
  refreshes : after.refreshes = before.refreshes
  channels : after.channels = before.channels
  queue : after.queue = before.queue
  less : after.unread < before.unread ∧ after.deferred.length = before.deferred.length + 1 ∨
    after.unread ≤ before.unread ∧ after.deferred.length = before.deferred.length

theorem delivered_refl (world : World) : world.Delivered world where
  journal := fun _ => rfl
  refreshes := rfl
  channels := rfl
  queue := rfl
  less := Or.inr ⟨Nat.le_refl _, rfl⟩

theorem delivered_deliver (world : World) (id : CacheId) (subscriber : RegistrationId) :
    (world.deliver id subscriber).Delivered world := by
  unfold deliver
  cases found : world.caches[id]? with
  | none => exact world.delivered_refl
  | some cache =>
      simp only
      split
      next => exact world.delivered_refl
      next handover feed delivered =>
        obtain ⟨calls, told⟩ := foldl_call handover.listener handover.events
          (world.setCache id { cache with feed })
        have journal : ∀ other,
            (world.setCache id { cache with feed }).journal other = world.journal other := by
          intro other
          rw [journal_setCache found]
          by_cases same : other = id
          · rw [if_pos same, same, journal_of_found found]
            exact Feed.journal_deliver delivered
          · rw [if_neg same]
        obtain ⟨handed, some⟩ := Feed.unread_deliver delivered
        have count : (world.setCache id { cache with feed }).unread + cache.feed.unread =
            world.unread + feed.unread :=
          sum_map_set (fun cache => cache.feed.unread) found { cache with feed }
        simp only [told]
        split
        next unfinished =>
          have handedSome := some unfinished
          have less : (world.setCache id { cache with feed }).unread < world.unread := by omega
          exact ⟨journal, rfl, rfl, rfl, Or.inl ⟨less, rfl⟩⟩
        next =>
          have less : (world.setCache id { cache with feed }).unread ≤ world.unread := by omega
          exact ⟨journal, rfl, rfl, rfl, Or.inr ⟨less, rfl⟩⟩

end World

end WatchedTree
