import WatchedTree.Proofs.Cache.Owing
import WatchedTree.Proofs.World.Incident
import WatchedTree.Proofs.World.Journal

/-!
# What listeners are called with

Whatever befalls a world, what a listener is called with and what it is still owed is what was
written while it was registered. Nothing is lost: as long as anything is owed, a delivery is queued.
-/
namespace WatchedTree

namespace World

variable {world first second third : World} {id : CacheId} {registration : RegistrationId}
  {cache : Cache}

/-- The events that a registration with a cache is still to be called with. -/
def owed (world : World) (id : CacheId) (registration : RegistrationId) : List CacheEvent :=
  match world.caches[id]? with
  | none => []
  | some cache => cache.feed.owed registration

/-- Holds while a registration with a cache lasts. -/
def listens (world : World) (id : CacheId) (registration : RegistrationId) : Bool :=
  match world.caches[id]? with
  | none => false
  | some cache => cache.feed.isRegistered registration

/-- What a cache has told since. -/
def news (after before : World) (id : CacheId) : List CacheEvent :=
  (after.journal id).drop (before.journal id).length

/-- Holds if the delivery to a subscriber is queued, for this round or for the next one. -/
def WillCall (world : World) (id : CacheId) (registration : RegistrationId) : Prop :=
  Task.deliver id registration ∈ world.queue ∨ Task.deliver id registration ∈ world.deferred

/-- Whoever has something to be called with has a delivery queued, and nothing but deliveries is
put off to the next round. -/
structure IsAttentive (world : World) : Prop where
  caches : ∀ (id : CacheId) (cache : Cache), world.caches[id]? = some cache →
    cache.feed.IsAttended (world.WillCall id)
  deferred : ∀ task ∈ world.deferred, task.isDelivery = true

/-- What is handed over and what is owed then is what was owed before, and what was told meanwhile
to those who were registered. -/
def Balances (after before : World)
    (handed : CacheId → RegistrationId → List CacheEvent) : Prop :=
  ∀ id registration, handed id registration ++ after.owed id registration =
    before.owed id registration ++
      if before.listens id registration then after.news before id else []

theorem owed_of_found (found : world.caches[id]? = some cache) :
    world.owed id registration = cache.feed.owed registration := by
  rw [owed, found]

theorem listens_of_found (found : world.caches[id]? = some cache) :
    world.listens id registration = cache.feed.isRegistered registration := by
  rw [listens, found]

theorem news_of_journal {told : List CacheEvent}
    (journal : second.journal id = first.journal id ++ told) : second.news first id = told := by
  rw [news, journal, List.drop_left]

/-! ## Telling -/

/-- Each cache has told some more, and a delivery is queued for everybody whom that has woken. -/
structure Notifies (after before : World) : Prop where
  caches : ∀ (id : CacheId) (cache : Cache), before.caches[id]? = some cache →
    ∃ later events, after.caches[id]? = some later ∧
      later.feed = cache.feed.dispatchAll events ∧
      (events ≠ [] → ∀ registration ∈ cache.feed.idle, .deliver id registration ∈ after.queue)
  count : after.caches.length = before.caches.length
  queue : ∀ id registration, .deliver id registration ∈ before.queue →
    Task.deliver id registration ∈ after.queue
  deferred : after.deferred = before.deferred

namespace Notifies

theorem of_same (caches : second.caches = first.caches)
    (queue : ∀ id registration, .deliver id registration ∈ first.queue →
      Task.deliver id registration ∈ second.queue)
    (deferred : second.deferred = first.deferred) : second.Notifies first where
  caches := fun _ cache found => ⟨cache, [], caches ▸ found, rfl, fun some => absurd rfl some⟩
  count := congrArg List.length caches
  queue := queue
  deferred := deferred

theorem refl (world : World) : world.Notifies world := of_same rfl (fun _ _ queued => queued) rfl

theorem trans (left : second.Notifies first) (right : third.Notifies second) :
    third.Notifies first where
  caches := by
    intro id cache found
    obtain ⟨middle, earlier, middleFound, middleFeed, earlyWoken⟩ := left.caches id cache found
    obtain ⟨later, events, laterFound, laterFeed, woken⟩ := right.caches id middle middleFound
    refine ⟨later, earlier ++ events, laterFound, ?_, ?_⟩
    · rw [laterFeed, middleFeed, Feed.dispatchAll, Feed.dispatchAll, Feed.dispatchAll,
        List.foldl_append]
    · intro some registration idle
      by_cases nothing : earlier = []
      · rw [nothing, Feed.dispatchAll_nil] at middleFeed
        rw [nothing, List.nil_append] at some
        exact woken some registration (middleFeed ▸ idle)
      · exact right.queue id registration (earlyWoken nothing registration idle)
  count := right.count.trans left.count
  queue := fun id registration queued =>
    right.queue id registration (left.queue id registration queued)
  deferred := right.deferred.trans left.deferred

/-- What neither tells nor runs a task can follow. -/
theorem kept (notifies : second.Notifies first) (caches : third.caches = second.caches)
    (queue : third.queue = second.queue) (deferred : third.deferred = second.deferred) :
    third.Notifies first :=
  notifies.trans (of_same caches (fun _ _ queued => queue ▸ queued) deferred)

theorem setCache (found : world.caches[id]? = some cache) {after : Cache}
    (feed : after.feed = cache.feed) : (world.setCache id after).Notifies world where
  caches := by
    intro other held heldFound
    by_cases isOther : other = id
    · subst isOther
      rw [found] at heldFound
      cases heldFound
      exact ⟨after, [], getElem?_setCache found after, feed, fun some => absurd rfl some⟩
    · refine ⟨held, [], ?_, rfl, fun some => absurd rfl some⟩
      rw [World.setCache, List.getElem?_set_ne (Ne.symm isOther)]
      exact heldFound
  count := List.length_set
  queue := fun _ _ queued => queued
  deferred := rfl

theorem enqueue (world : World) (tasks : List Task) : (world.enqueue tasks).Notifies world :=
  of_same rfl (fun _ _ queued => List.mem_append_left _ queued) rfl

theorem dispatch (world : World) (id : CacheId) (event : CacheEvent) :
    (world.dispatch id event).Notifies world := by
  unfold World.dispatch
  cases found : world.caches[id]? with
  | none => exact refl world
  | some cache =>
      have inPlace := getElem?_setCache found { cache with feed := (cache.feed.dispatch event).2 }
      refine ⟨?_, List.length_set, fun _ _ queued => List.mem_append_left _ queued, rfl⟩
      intro other held heldFound
      by_cases isOther : other = id
      · subst isOther
        rw [found] at heldFound
        cases heldFound
        exact ⟨_, [event], inPlace, rfl, fun _ registration idle =>
          List.mem_append_right _ (List.mem_map_of_mem idle)⟩
      · refine ⟨held, [], ?_, rfl, fun some => absurd rfl some⟩
        simp only [World.enqueue, World.setCache, List.getElem?_set_ne (Ne.symm isOther)]
        exact heldFound

theorem dispatchAll (world : World) (id : CacheId) (events : List CacheEvent) :
    (world.dispatchAll id events).Notifies world := by
  induction events generalizing world with
  | nil => exact refl world
  | cons event others inductionHypothesis =>
      exact (dispatch world id event).trans (inductionHypothesis _)

theorem journal (notifies : second.Notifies first) (found : first.caches[id]? = some cache) :
    ∃ later, second.caches[id]? = some later ∧
      later.feed = cache.feed.dispatchAll (second.news first id) ∧
      (second.news first id ≠ [] → ∀ registration ∈ cache.feed.idle,
        .deliver id registration ∈ second.queue) := by
  obtain ⟨later, events, laterFound, feed, woken⟩ := notifies.caches id cache found
  have told : second.news first id = events := by
    apply news_of_journal
    rw [journal_of_found laterFound, journal_of_found found, feed, Feed.journal_dispatchAll]
  rw [told]
  exact ⟨later, laterFound, feed, woken⟩

theorem absent (notifies : second.Notifies first) (missing : first.caches[id]? = none) :
    second.caches[id]? = none := by
  rw [List.getElem?_eq_none_iff] at missing ⊢
  rw [notifies.count]
  exact missing

theorem isAttentive (notifies : second.Notifies first) (attentive : first.IsAttentive) :
    second.IsAttentive where
  caches := by
    intro id later laterFound
    cases found : first.caches[id]? with
    | none =>
        rw [notifies.absent found] at laterFound
        cases laterFound
    | some cache =>
        obtain ⟨held, heldFound, feed, woken⟩ := notifies.journal found
        rw [laterFound] at heldFound
        cases heldFound
        rw [feed]
        apply (attentive.caches id cache found).dispatchAll
        · rintro registration (queued | deferred)
          · exact Or.inl (notifies.queue id registration queued)
          · exact Or.inr (notifies.deferred ▸ deferred)
        · exact fun some registration idle => Or.inl (woken some registration idle)
  deferred := notifies.deferred ▸ attentive.deferred

theorem balances (notifies : second.Notifies first) (attentive : first.IsAttentive) :
    second.Balances first fun _ _ => [] := by
  intro id registration
  rw [List.nil_append]
  cases found : first.caches[id]? with
  | none =>
      rw [owed, owed, listens, notifies.absent found, found]
      rfl
  | some cache =>
      obtain ⟨later, laterFound, feed, _⟩ := notifies.journal found
      rw [owed_of_found laterFound, owed_of_found found, listens_of_found found, feed]
      exact (attentive.caches id cache found).owed_dispatchAll _ registration

end Notifies

end World

end WatchedTree
