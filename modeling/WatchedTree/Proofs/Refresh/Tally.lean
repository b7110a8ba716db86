import WatchedTree.Proofs.World.Ledger
import WatchedTree.Proofs.World.Serving

/-!
# The tally of refreshes

The count of a refresh is the number of its fetches that are queued, suspended or running, and it
has fired once there are none. A deed books nothing, or one more fetch of the running refresh, or a
new refresh with its first fetch, or a token that is settled, or a new cache.
-/
namespace WatchedTree

/-- The refresh with another count. -/
def Refresh.counting (refresh : Refresh) (count : Int) : Refresh :=
  { refresh with refresher := { refresh.refresher with count } }

/-- The cache of a refresh, and whether the refresh has fired. -/
def Refresh.standing (refresh : Refresh) : CacheId × Bool :=
  (refresh.cache, refresh.refresher.fired)

theorem map_modify_of_same {Item Value : Type} {value : Item → Value} {change : Item → Item}
    (same : ∀ item, value (change item) = value item) (items : List Item) (place : Nat) :
    (items.modify place change).map value = items.map value := by
  apply List.ext_getElem?
  intro index
  rw [List.getElem?_map, List.getElem?_map, List.getElem?_modify]
  cases items[index]? with
  | none => rfl
  | some item =>
      by_cases isPlace : place = index
      · simp [isPlace, same]
      · simp [isPlace]

theorem modify_concat {Item : Type} (items : List Item) (last : Item) (change : Item → Item) :
    (items ++ [last]).modify items.length change = items ++ [change last] := by
  induction items with
  | nil => rfl
  | cons item others inductionHypothesis =>
      rw [List.cons_append, List.length_cons, List.modify_succ_cons, inductionHypothesis,
        List.cons_append]

namespace World

variable {world first second third : World} {running : Option RefreshId}
  {cleared : Option CacheId} {id : CacheId} {cache : Cache} {refresh : RefreshId} {given : Refresh}

/-- Number of the fetches of a refresh that are queued, deferred or suspended. -/
def outstanding (world : World) (refresh : RefreshId) : Nat := world.pending.count refresh

/-- The same number, with the fetch that is running. -/
def active (world : World) (running : Option RefreshId) (refresh : RefreshId) : Nat :=
  world.outstanding refresh + if running = some refresh then 1 else 0

/-- Number of the refreshes of a cache that have fired. -/
def ended (world : World) (id : CacheId) : Nat :=
  world.refreshes.countP fun refresh => refresh.cache = id && refresh.refresher.fired

/-- Every refresh has counted what it has to wait for, and every cache the refreshes that have
fired. -/
structure Tally (world : World) (running : Option RefreshId) : Prop where
  counts : ∀ (refresh : RefreshId) (given : Refresh), world.refreshes[refresh]? = some given →
    given.refresher.count = world.active running refresh ∧
      (given.refresher.fired = true ↔ world.active running refresh = 0)
  known : ∀ refresh ∈ running.toList ++ world.pending, refresh < world.refreshes.length
  owned : ∀ given ∈ world.refreshes, given.cache < world.caches.length
  ended : ∀ id count, (world.caches.map Cache.refreshCount)[id]? = some count →
    count = world.ended id

/-- The refresh that is running waits at least for itself. -/
theorem Tally.of_running (tally : world.Tally (some refresh)) :
    ∃ given, world.refreshes[refresh]? = some given ∧ given.refresher.fired = false ∧
      given.refresher.count = world.outstanding refresh + 1 := by
  have inRange : refresh < world.refreshes.length := tally.known refresh (by simp)
  obtain ⟨count, fired⟩ := tally.counts refresh _ (List.getElem?_eq_getElem inRange)
  have isActive : world.active (some refresh) refresh = world.outstanding refresh + 1 := by
    simp [active]
  rw [isActive] at count fired
  refine ⟨_, List.getElem?_eq_getElem inRange, ?_, count⟩
  exact eq_false_of_ne_true fun isFired => Nat.succ_ne_zero _ (fired.mp isFired)

/-! ## What a deed books -/

/-- Holds if neither refreshes nor channels nor counts have changed, and the same fetches wait. -/
structure SameBooks (after before : World) : Prop where
  refreshes : after.refreshes = before.refreshes
  channels : after.channels = before.channels
  counts : after.caches.map Cache.refreshCount = before.caches.map Cache.refreshCount
  pending : after.pending.Perm before.pending

theorem sameBooks_refl (world : World) : world.SameBooks world := ⟨rfl, rfl, rfl, .refl _⟩

theorem SameBooks.trans (left : first.SameBooks second) (right : second.SameBooks third) :
    first.SameBooks third where
  refreshes := left.refreshes.trans right.refreshes
  channels := left.channels.trans right.channels
  counts := left.counts.trans right.counts
  pending := left.pending.trans right.pending

theorem sameBooks_setCache (found : world.caches[id]? = some cache) {after : Cache}
    (count : after.refreshCount = cache.refreshCount) :
    (world.setCache id after).SameBooks world where
  refreshes := rfl
  channels := rfl
  counts := map_caches_setCache found count
  pending := .refl _

theorem sameBooks_enqueue_deliveries (world : World) (id : CacheId)
    (subscribers : List RegistrationId) :
    (world.enqueue (subscribers.map (Task.deliver id))).SameBooks world where
  refreshes := rfl
  channels := rfl
  counts := rfl
  pending := by rw [pending_enqueue_deliveries]

theorem sameBooks_dispatch (world : World) (id : CacheId) (event : CacheEvent) :
    (world.dispatch id event).SameBooks world := by
  unfold dispatch
  cases found : world.caches[id]? with
  | none => exact sameBooks_refl world
  | some cache =>
      exact (sameBooks_enqueue_deliveries _ id _).trans (sameBooks_setCache found rfl)

theorem sameBooks_dispatchAll (world : World) (id : CacheId) (events : List CacheEvent) :
    (world.dispatchAll id events).SameBooks world := by
  induction events generalizing world with
  | nil => exact sameBooks_refl world
  | cons event others inductionHypothesis =>
      exact (inductionHypothesis _).trans (sameBooks_dispatch world id event)

theorem Commits.sameBooks (commits : first.Commits second) : second.SameBooks first := by
  rcases commits with rfl | ⟨id, cache, node, epoch, found, rfl⟩
  · exact sameBooks_refl second
  · have count : (cache.commit first.now node epoch).2.refreshCount = cache.refreshCount := by
      unfold Cache.commit
      split <;> rfl
    exact (sameBooks_dispatchAll _ id _).trans (sameBooks_setCache found count)

/-- The kinds of entries in the books. -/
inductive Booking (world : World) : Option RefreshId → World → Prop where
  | same {running : Option RefreshId} {after : World} (books : after.SameBooks world) :
      Booking world running after
  | raise {refresh : RefreshId} {after : World}
      (refreshes : after.refreshes = world.refreshes.modify refresh (Refresh.raised 1))
      (channels : after.channels = world.channels)
      (counts : after.caches.map Cache.refreshCount = world.caches.map Cache.refreshCount)
      (pending : after.pending.Perm (refresh :: world.pending)) :
      Booking world (some refresh) after
  | opens {after : World} {given : Refresh} (fired : given.refresher.fired = false)
      (count : given.refresher.count = 1) (owned : given.cache < world.caches.length)
      (refreshes : after.refreshes = world.refreshes ++ [given])
      (channels : given.channel = none ∧ after.channels = world.channels ∨
        given.channel = some world.channels.length ∧
          after.channels = world.channels ++ [{ slot := .waiting }])
      (counts : after.caches.map Cache.refreshCount = world.caches.map Cache.refreshCount)
      (pending : after.pending.Perm (world.refreshes.length :: world.pending)) :
      Booking world none after
  | settle (outcome : Outcome) : Booking world none (world.settledToken outcome).2
  | build (options : CacheOptions) :
      Booking world none { world with caches := world.caches ++ [Cache.ofOptions options] }

theorem pending_enqueue_fetch (world : World) (fetch : Fetch) :
    (world.enqueue [.fetch fetch]).pending.Perm (fetch.refresh :: world.pending) := by
  apply List.perm_iff_count.mpr
  intro refresh
  unfold pending enqueue
  simp only [List.filterMap_append, List.count_append, List.count_cons, Task.refresh?,
    List.filterMap_cons, List.filterMap_nil, List.count_nil]
  omega

/-- What is counted up and down again while something else is waited for is as it was. -/
theorem countDown_countUp (found : world.refreshes[refresh]? = some given)
    (unfired : given.refresher.fired = false) (positive : 0 < given.refresher.count) :
    (world.countUp refresh).countDown refresh = world := by
  have raised : (world.countUp refresh).refreshes[refresh]? =
      some { given with refresher := given.refresher.increment } := by
    simp [countUp, found]
  have keeps : given.refresher.increment.decrement = (false, given.refresher) := by
    have stays : ¬ given.refresher.count ≤ 0 := Int.not_le.mpr positive
    obtain ⟨_, ⟨path, count, fired⟩, _⟩ := given
    simp only at unfired stays
    subst unfired
    simp [Refresher.increment, Refresher.decrement, stays]
  have restored : (world.countUp refresh).refreshes.set refresh given = world.refreshes := by
    obtain ⟨inRange, isGiven⟩ := List.getElem?_eq_some_iff.mp found
    apply List.ext_getElem?
    intro index
    rw [countUp, List.getElem?_set, List.getElem?_modify]
    by_cases isRefresh : refresh = index
    · subst isRefresh
      simp [inRange, isGiven]
    · simp [isRefresh]
  unfold countDown
  simp only [raised, keeps, Bool.false_eq_true, if_false, restored]
  rfl

/-- A fetch that the running refresh asks for is queued and counted, or nothing is done. -/
theorem spawn_of_running (tally : world.Tally (some refresh)) {fetch : Fetch}
    (isOwn : fetch.refresh = refresh) :
    world.spawn fetch = world ∨
      world.spawn fetch = (world.countUp refresh).enqueue [.fetch fetch] := by
  subst isOwn
  obtain ⟨given, found, unfired, count⟩ := tally.of_running
  have refuses : (world.countUp fetch.refresh).countDown fetch.refresh = world :=
    countDown_countUp found unfired (by omega)
  unfold spawn
  simp only
  split
  · exact Or.inl refuses
  · split
    · exact Or.inr rfl
    · exact Or.inl refuses

theorem booking_spawn (tally : world.Tally (some refresh)) {fetch : Fetch}
    (isOwn : fetch.refresh = refresh) : world.Booking (some refresh) (world.spawn fetch) := by
  rcases spawn_of_running tally isOwn with refused | queued
  · rw [refused]
    exact .same (sameBooks_refl world)
  · rw [queued]
    subst isOwn
    exact .raise rfl rfl rfl (pending_enqueue_fetch (world.countUp fetch.refresh) fetch)

theorem launch_eq (found : world.caches[id]? = some cache) (isStarted : cache.phase = .started)
    (path : Path) (full : Bool) (channel : Option ChannelId) :
    world.launch id path full channel =
      { world with
        refreshes :=
          world.refreshes ++ [{ cache := id, refresher := { path, count := 1 }, channel }]
        queue := world.queue ++
          [.fetch { cache := id, refresh := world.refreshes.length, path, full }] } := by
  unfold launch addRefresh spawn countUp enqueue
  simp only [found, isStarted, if_true, modify_concat, Refresher.increment, Int.zero_add]

theorem booking_launch (found : world.caches[id]? = some cache)
    (isStarted : cache.phase = .started) (path : Path) (full : Bool) :
    world.Booking none (world.launch id path full none) := by
  rw [launch_eq found isStarted]
  refine .opens rfl rfl ?_ rfl (Or.inl ⟨rfl, rfl⟩) rfl ?_
  · exact (List.getElem?_eq_some_iff.mp found).1
  · exact pending_enqueue_fetch world _

theorem booking_request (found : world.caches[id]? = some cache)
    (isStarted : cache.phase = .started) (path : Path) (full : Bool) :
    world.Booking none
      ((world.addChannel {}).2.launch id path full (some world.channels.length)) := by
  have stillFound : (world.addChannel {}).2.caches[id]? = some cache := found
  rw [launch_eq stillFound isStarted]
  refine .opens rfl rfl ?_ rfl (Or.inr ⟨rfl, rfl⟩) rfl ?_
  · exact (List.getElem?_eq_some_iff.mp found).1
  · exact pending_enqueue_fetch world _

theorem Deed.booking (deed : first.Deed running cleared second) (tally : first.Tally running) :
    first.Booking running second := by
  cases deed with
  | pass caches refreshes channels pending =>
      exact .same ⟨refreshes, channels, by rw [caches], pending⟩
  | tend found tended => exact .same (sameBooks_setCache found tended.refreshCount)
  | keep found _ => exact .same (sameBooks_setCache found rfl)
  | clear found cleared => exact .same (sameBooks_setCache found cleared.refreshCount)
  | remove found paths =>
      refine .same ((sameBooks_dispatchAll _ _ _).trans (sameBooks_setCache found ?_))
      rw [Cache.removeSubtrees_eq]
  | spawn fetch => exact booking_spawn tally rfl
  | launch found isStarted path full => exact booking_launch found isStarted path full
  | request found isStarted path full => exact booking_request found isStarted path full
  | settle outcome => exact .settle outcome
  | build options => exact .build options

/-! ## The tally is kept -/

theorem SameBooks.tally (books : second.SameBooks first) (tally : first.Tally running) :
    second.Tally running := by
  have active : second.active running = first.active running := by
    funext refresh
    rw [World.active, World.active, outstanding, outstanding, books.pending.count_eq]
  have size : second.caches.length = first.caches.length := by
    have same := congrArg List.length books.counts
    rwa [List.length_map, List.length_map] at same
  refine ⟨?_, ?_, ?_, ?_⟩
  · rw [active, books.refreshes]
    exact tally.counts
  · intro refresh member
    rw [books.refreshes]
    apply tally.known
    rw [List.mem_append, ← books.pending.mem_iff, ← List.mem_append]
    exact member
  · rw [books.refreshes, size]
    exact tally.owned
  · intro id count inPlace
    rw [books.counts] at inPlace
    rw [World.ended, books.refreshes]
    exact tally.ended id count inPlace

theorem size_of_counts (counts : second.caches.map Cache.refreshCount =
    first.caches.map Cache.refreshCount) : second.caches.length = first.caches.length := by
  have same := congrArg List.length counts
  rwa [List.length_map, List.length_map] at same

/-- Another count takes no refresh from its cache, and none has fired by it. -/
theorem standing_of_raise
    (refreshes : second.refreshes = first.refreshes.modify refresh (Refresh.raised 1)) :
    second.refreshes.map Refresh.standing = first.refreshes.map Refresh.standing := by
  rw [refreshes]
  apply map_modify_of_same
  exact fun _ => rfl

theorem ended_of_standing
    (same : second.refreshes.map Refresh.standing = first.refreshes.map Refresh.standing) :
    second.ended = first.ended := by
  funext id
  have counted := congrArg (List.countP fun pair => pair.1 = id && pair.2) same
  rw [List.countP_map, List.countP_map] at counted
  exact counted

theorem tally_of_raise (tally : first.Tally (some refresh))
    (refreshes : second.refreshes = first.refreshes.modify refresh (Refresh.raised 1))
    (counts : second.caches.map Cache.refreshCount = first.caches.map Cache.refreshCount)
    (pending : second.pending.Perm (refresh :: first.pending)) :
    second.Tally (some refresh) := by
  have active : ∀ other, second.active (some refresh) other =
      first.active (some refresh) other + if refresh = other then 1 else 0 := by
    intro other
    rw [World.active, World.active, outstanding, outstanding, pending.count_eq, List.count_cons]
    simp only [beq_iff_eq]
    omega
  have ended : second.ended = first.ended := ended_of_standing (standing_of_raise refreshes)
  refine ⟨?_, ?_, ?_, ?_⟩
  · intro other given found
    rw [refreshes, List.getElem?_modify] at found
    obtain ⟨old, oldFound, isGiven⟩ := Option.map_eq_some_iff.mp found
    obtain ⟨count, fired⟩ := tally.counts other old oldFound
    rw [active]
    by_cases isOther : refresh = other
    · subst isOther
      have positive : first.active (some refresh) refresh ≠ 0 := by simp [World.active]
      simp only [if_true] at isGiven ⊢
      subst isGiven
      refine ⟨?_, ?_⟩
      · rw [Refresh.raised, count]
        rfl
      · rw [Refresh.raised, fired]
        omega
    · simp only [isOther, if_false] at isGiven ⊢
      subst isGiven
      exact ⟨count, fired⟩
  · intro other member
    rw [refreshes, List.length_modify]
    apply tally.known
    rcases List.mem_append.mp member with isRunning | isPending
    · exact List.mem_append_left _ isRunning
    · exact pending.mem_iff.mp isPending
  · intro given member
    rw [size_of_counts counts]
    obtain ⟨place, found⟩ := List.getElem?_of_mem member
    rw [refreshes, List.getElem?_modify] at found
    obtain ⟨old, oldFound, isGiven⟩ := Option.map_eq_some_iff.mp found
    have owned := tally.owned old (List.mem_of_getElem? oldFound)
    subst isGiven
    split
    · exact owned
    · exact owned
  · rw [counts, ended]
    exact tally.ended

theorem tally_of_opens (tally : first.Tally none) (fired : given.refresher.fired = false)
    (count : given.refresher.count = 1) (owned : given.cache < first.caches.length)
    (refreshes : second.refreshes = first.refreshes ++ [given])
    (counts : second.caches.map Cache.refreshCount = first.caches.map Cache.refreshCount)
    (pending : second.pending.Perm (first.refreshes.length :: first.pending)) :
    second.Tally none := by
  have unknown : first.pending.count first.refreshes.length = 0 := by
    rw [List.count_eq_zero]
    exact fun member => Nat.lt_irrefl _ (tally.known _ (List.mem_append_right _ member))
  have active : ∀ other, second.active none other =
      first.active none other + if first.refreshes.length = other then 1 else 0 := by
    intro other
    rw [World.active, World.active, outstanding, outstanding, pending.count_eq, List.count_cons]
    simp only [beq_iff_eq]
    omega
  refine ⟨?_, ?_, ?_, ?_⟩
  · intro other held found
    rw [refreshes] at found
    rw [active]
    rcases getElem?_concat_cases found with isOld | ⟨isNew, rfl⟩
    · have different : first.refreshes.length ≠ other :=
        Nat.ne_of_gt (List.getElem?_eq_some_iff.mp isOld).1
      rw [if_neg different]
      exact tally.counts other held isOld
    · subst isNew
      have nothing : first.active none first.refreshes.length = 0 := by
        simp [World.active, outstanding, unknown]
      simp [nothing, count, fired]
  · intro other member
    rw [refreshes, List.length_append, List.length_singleton]
    have isPending : other ∈ second.pending := by simpa using member
    rcases List.mem_cons.mp (pending.mem_iff.mp isPending) with isNew | isOld
    · exact isNew ▸ Nat.lt_succ_self _
    · exact Nat.lt_succ_of_lt (tally.known other (List.mem_append_right _ isOld))
  · intro held member
    rw [size_of_counts counts]
    rw [refreshes] at member
    rcases List.mem_append.mp member with isOld | isNew
    · exact tally.owned held isOld
    · rw [List.mem_singleton.mp isNew]
      exact owned
  · intro id total inPlace
    rw [counts] at inPlace
    rw [World.ended, refreshes, List.countP_append, tally.ended id total inPlace, World.ended]
    simp [fired]

theorem tally_of_build (tally : world.Tally none) (options : CacheOptions) :
    ({ world with caches := world.caches ++ [Cache.ofOptions options] } : World).Tally none where
  counts := tally.counts
  known := tally.known
  owned := by
    intro given member
    rw [List.length_append]
    exact Nat.lt_add_right _ (tally.owned given member)
  ended := by
    intro id total inPlace
    rw [List.map_append, List.getElem?_append] at inPlace
    split at inPlace
    · exact tally.ended id total inPlace
    next beyond =>
      rw [List.length_map] at beyond inPlace
      have none : world.ended id = 0 := by
        apply List.countP_eq_zero.mpr
        intro given member
        have other : given.cache ≠ id :=
          Nat.ne_of_lt (Nat.lt_of_lt_of_le (tally.owned given member) (Nat.le_of_not_lt beyond))
        simp [other]
      obtain ⟨isLast, rfl⟩ := List.getElem?_eq_some_iff.mp inPlace
      rw [World.ended] at none ⊢
      rw [none]
      simp [Cache.ofOptions]

theorem Booking.tally (booking : first.Booking running second) (tally : first.Tally running) :
    second.Tally running := by
  cases booking with
  | same books => exact books.tally tally
  | raise refreshes channels counts pending => exact tally_of_raise tally refreshes counts pending
  | opens fired count owned refreshes channels counts pending =>
      exact tally_of_opens tally fired count owned refreshes counts pending
  | settle outcome => exact ⟨tally.counts, tally.known, tally.owned, tally.ended⟩
  | build options => exact tally_of_build tally options

theorem Deeds.tally (deeds : first.Deeds running cleared second) (tally : first.Tally running) :
    second.Tally running := by
  induction deeds with
  | refl => exact tally
  | tail _ deed inductionHypothesis =>
      exact (deed.booking inductionHypothesis).tally inductionHypothesis

end World

end WatchedTree
