import WatchedTree.Proofs.Refresh.Tally

/-!
# Fetches that wait for their turn

A fetch that is queued stays in the queue until it is at the front and is run, whatever happens
meanwhile.
-/
namespace WatchedTree

namespace World

variable {world after first second : World} {running : Option RefreshId}
  {cleared : Option CacheId} {refresh : RefreshId}

theorem keepsQueue_of_quiet (same : second.quiet = first.quiet) : second.KeepsQueue first := by
  intro fetch member
  have kept : Task.fetch fetch ∈ first.quiet.queue := List.mem_filter.mpr ⟨member, rfl⟩
  rw [← same] at kept
  exact (List.mem_filter.mp kept).1

theorem keepsQueue_spawn (world : World) (fetch : Fetch) :
    (world.spawn fetch).KeepsQueue world := by
  have counted : (world.countUp fetch.refresh).KeepsQueue world := .refl world
  have refused : ((world.countUp fetch.refresh).countDown fetch.refresh).KeepsQueue world :=
    counted.trans (keepsQueue_of_quiet (quiet_countDown _ _))
  unfold spawn
  simp only
  split
  · exact refused
  · split
    · exact counted.trans (keepsQueue_append rfl)
    · exact refused

theorem keepsQueue_dispatchAll (world : World) (id : CacheId) (events : List CacheEvent) :
    (world.dispatchAll id events).KeepsQueue world :=
  keepsQueue_of_quiet (quiet_dispatchAll world id events)

/-- A deed never takes a fetch off the queue. -/
theorem Deed.keepsQueue (deed : first.Deed running cleared second) : second.KeepsQueue first := by
  cases deed with
  | pass caches refreshes channels pending queue => exact queue
  | tend | keep | clear | settle | build => exact .refl first
  | remove found paths => exact keepsQueue_dispatchAll (first.setCache _ _) _ _
  | spawn fetch => exact keepsQueue_spawn first fetch
  | @launch _ place _ _ _ path full =>
      exact keepsQueue_spawn (first.addRefresh place path none).2 _
  | @request _ place _ _ _ path full =>
      exact keepsQueue_spawn ((first.addChannel {}).2.addRefresh place path
        (some first.channels.length)).2 _

theorem Deeds.keepsQueue (deeds : first.Deeds running cleared second) :
    second.KeepsQueue first := by
  induction deeds with
  | refl => exact .refl first
  | tail _ deed inductionHypothesis => exact inductionHypothesis.trans deed.keepsQueue

theorem Commits.keepsQueue (commits : first.Commits second) : second.KeepsQueue first := by
  rcases commits with rfl | ⟨id, cache, node, epoch, _, rfl⟩
  · exact .refl _
  · exact keepsQueue_dispatchAll (first.setCache _ _) _ _

theorem Handles.keepsQueue (handles : first.Handles refresh second) :
    second.KeepsQueue first := by
  obtain ⟨last, ⟨before, committed, earlier, _, commits, later⟩, ends⟩ := handles
  have courses := (earlier.keepsQueue.trans commits.keepsQueue).trans later.keepsQueue
  rcases ends with rfl | ⟨suspension, _, rfl⟩
  · exact courses.trans (keepsQueue_of_quiet (quiet_countDown last refresh))
  · exact courses

/-- Only the run of the fetch at the front takes a fetch off the queue, and it takes no other. -/
theorem keepsQueue_undergo (attended : world.Attended) (incident : Incident) :
    (world.undergo incident).KeepsQueue world ∨
      incident = .step ∧ ∃ fetch tasks, world.queue = .fetch fetch :: tasks ∧
        world.step.KeepsQueue { world with queue := tasks } := by
  rcases undergo_cases attended incident with ⟨channels, same⟩ |
    ⟨task, tasks, refresh, rfl, queue, isFor, handles⟩ | deeds
  · rw [same]
    exact Or.inl (.refl world)
  · cases task with
    | fetch fetch => exact Or.inr ⟨rfl, fetch, tasks, queue, handles.keepsQueue⟩
    | resume visit answer =>
        have popped : ({ world with queue := tasks } : World).KeepsQueue world := by
          intro fetch member
          rw [queue] at member
          rcases List.mem_cons.mp member with isResume | later
          · cases isResume
          · exact later
        exact Or.inl (popped.trans handles.keepsQueue)
    | deliver => cases isFor
  · exact Or.inl deeds.keepsQueue

/-- A fetch that is no longer queued had its turn. -/
theorem exists_turn (attended : world.Attended) {fetch : Fetch}
    (queued : .fetch fetch ∈ world.queue) {incidents : List Incident}
    (gone : .fetch fetch ∉ (world.undergoAll incidents).queue) :
    ∃ before after tasks, incidents = before ++ .step :: after ∧
      (world.undergoAll before).queue = .fetch fetch :: tasks := by
  induction incidents generalizing world with
  | nil => exact absurd queued gone
  | cons incident others inductionHypothesis =>
      by_cases still : .fetch fetch ∈ (world.undergo incident).queue
      · obtain ⟨before, after, tasks, isSplit, front⟩ :=
          inductionHypothesis (attended.undergo incident) still gone
        refine ⟨incident :: before, after, tasks, ?_, front⟩
        rw [isSplit, List.cons_append]
      · rcases keepsQueue_undergo attended incident with keeps | ⟨rfl, other, tasks, queue, keeps⟩
        · exact absurd (keeps fetch queued) still
        · rw [queue] at queued
          rcases List.mem_cons.mp queued with isFront | behind
          · refine ⟨[], others, tasks, rfl, ?_⟩
            rw [undergoAll_nil, isFront]
            exact queue
          · exact absurd (keeps fetch behind) still

/-! ## Records of refreshes -/

/-- Every refresh is still on record as it was. -/
def KeepsRecords (after before : World) : Prop :=
  ∀ (id : RefreshId) (given : Refresh), before.refreshes[id]? = some given →
    after.refreshes[id]? = some given

theorem KeepsRecords.of_same (same : second.refreshes = first.refreshes) :
    second.KeepsRecords first := by
  intro id given found
  rw [same]
  exact found

theorem keepsRecords_append {given : Refresh}
    (refreshes : second.refreshes = first.refreshes ++ [given]) : second.KeepsRecords first := by
  intro id old found
  rw [refreshes, List.getElem?_append_left (List.getElem?_eq_some_iff.mp found).1]
  exact found

/-- While no fetch runs, refreshes are added and none is counted up or down. -/
theorem Deed.keepsRecords (deed : first.Deed none cleared second) :
    second.KeepsRecords first := by
  cases deed with
  | pass caches refreshes => exact .of_same refreshes
  | tend | keep | clear | settle | build => exact .of_same rfl
  | remove found paths => exact .of_same (sameBooks_dispatchAll _ _ _).refreshes
  | launch found isStarted path full =>
      rw [launch_eq found isStarted]
      exact keepsRecords_append rfl
  | @request _ place cache found isStarted path full =>
      have stillFound : (first.addChannel {}).2.caches[place]? = some cache := found
      rw [launch_eq stillFound isStarted]
      exact keepsRecords_append rfl

theorem Deeds.keepsRecords (deeds : first.Deeds none cleared second) :
    second.KeepsRecords first := by
  induction deeds with
  | refl => exact .of_same rfl
  | tail _ deed inductionHypothesis =>
      exact fun id given found => deed.keepsRecords id given (inductionHypothesis id given found)

end World

end WatchedTree
