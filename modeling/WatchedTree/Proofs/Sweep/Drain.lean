import Mathlib.Data.Prod.Lex
import Mathlib.Order.WellFounded
import WatchedTree.Proofs.Sweep.Running
import WatchedTree.Proofs.World.Delivery

/-!
# The run of a sweep to its end

Each fetch is one visit more, and there are not more visits than nodes. Between the fetches only
listeners are called: that leaves the stage as it is, and makes what is left to be told shorter, or
the tasks fewer.
-/
namespace WatchedTree

open WatchedTree.Path

namespace World

/-- The fetches among so many tasks that are run next. -/
def fetched : Nat → World → List Fetch
  | 0, _ => []
  | steps + 1, world =>
    match world.queue with
    | .fetch fetch :: _ => fetch :: fetched steps world.step
    | _ => fetched steps world.step

/-- The world after so many rounds. -/
def rounds : Nat → World → World
  | 0, world => world
  | count + 1, world => rounds count world.round

/-- The fetches that are run in so many rounds. -/
def fetchedIn : Nat → World → List Fetch
  | 0, _ => []
  | count + 1, world => fetched roundLength world ++ fetchedIn count world.round

/-- What is left of a sweep: visits, calls of listeners, and tasks. -/
def labour (world : World) (sweep : Sweep) (stage : Sweep.Stage) : Nat ×ₗ Nat ×ₗ Nat :=
  toLex (sweep.remote.nodes.keys.length + 1 - stage.visited.length,
    toLex (world.unread, world.queue.length + world.deferred.length))

/-- A world that has come further with a sweep, by the fetches that were run since. -/
structure Furthers (after before : World) (errand : Errand) (sweep : Sweep)
    (later stage : Sweep.Stage) (fetches : List Fetch) : Prop where
  sweeps : after.Sweeps errand sweep later
  admits : sweep.Admits later
  visited : later.visited.map errand.fetch = stage.visited.map errand.fetch ++ fetches
  notMore : after.labour sweep later ≤ before.labour sweep stage

variable {world : World} {errand : Errand} {sweep : Sweep} {stage : Sweep.Stage} {id : CacheId}
  {subscriber : RegistrationId} {tasks : List Task}

theorem Sweeps.furthers (sweeps : world.Sweeps errand sweep stage)
    (admits : sweep.Admits stage) : world.Furthers world errand sweep stage stage [] where
  sweeps := sweeps
  admits := admits
  visited := (List.append_nil _).symm
  notMore := le_refl _

theorem Furthers.trans {first second third : Sweep.Stage} {middle after : World}
    {some others : List Fetch} (left : middle.Furthers world errand sweep second first some)
    (right : after.Furthers middle errand sweep third second others) :
    after.Furthers world errand sweep third first (some ++ others) where
  sweeps := right.sweeps
  admits := right.admits
  visited := by rw [right.visited, left.visited, List.append_assoc]
  notMore := right.notMore.trans left.notMore

/-! ## One task -/

theorem labour_of_visit {after : World} {later : Sweep.Stage} (admits : sweep.Admits later)
    (visited : later.visited.length = stage.visited.length + 1) :
    after.labour sweep later < world.labour sweep stage := by
  have most := admits.length_visited_le
  exact Prod.Lex.toLex_lt_toLex.mpr (Or.inl (by omega))

theorem labour_of_delivered {after : World}
    (delivered : after.Delivered { world with queue := tasks })
    (queue : world.queue.length = tasks.length + 1) :
    after.labour sweep stage < world.labour sweep stage := by
  have fewer : after.queue.length = tasks.length := congrArg List.length delivered.queue
  apply Prod.Lex.toLex_lt_toLex.mpr
  refine Or.inr ⟨rfl, ?_⟩
  apply Prod.Lex.toLex_lt_toLex.mpr
  rcases delivered.less with ⟨less, _⟩ | ⟨notMore, waiting⟩
  · exact Or.inl less
  · rcases Nat.lt_or_eq_of_le notMore with less | same
    · exact Or.inl less
    · refine Or.inr ⟨same, ?_⟩
      simp only at waiting ⊢
      omega

theorem Sweeps.of_quiet (sweeps : world.Sweeps errand sweep stage) {after : World}
    (quiet : after.quiet = world.quiet)
    (journal : after.journal errand.cache = world.journal errand.cache)
    (refreshes : after.refreshes = world.refreshes) (channels : after.channels = world.channels) :
    after.Sweeps errand sweep stage := by
  obtain ⟨cache, found, isOptions, isStarted, isCached⟩ := sweeps.found
  obtain ⟨held, heldFound, isHeld⟩ := exists_of_same_quiet quiet found
  have now := congrArg World.now quiet
  have connection := congrArg World.connection quiet
  rw [quiet_now, quiet_now] at now
  rw [quiet_connection, quiet_connection] at connection
  have ensemble : after.ensemble = world.ensemble := congrArg Connection.remote connection
  exact
    { sound := (sweeps.sound.of_quiet quiet).sound
      unbounded := sweeps.unbounded
      found := by
        refine ⟨held, heldFound, ?_, ?_, ?_⟩
        · exact (Cache.options_of_quiet isHeld).trans isOptions
        · exact (Cache.phase_of_quiet isHeld).trans isStarted
        · intro key
          rw [isCached, Cache.store_of_quiet isHeld, now]
      queue := by rw [quiet, sweeps.queue]
      connection := by
        rw [connection, now]
        exact sweeps.connection
      tree := by rw [ensemble, sweeps.tree]
      answers := by
        rw [ensemble]
        exact sweeps.answers
      journal := journal.trans sweeps.journal
      awaits := fun goesOn => (sweeps.awaits goesOn).of_same refreshes channels
      resolved := by
        rw [channels]
        exact sweeps.resolved }

theorem Sweeps.step_deliver (sweeps : world.Sweeps errand sweep stage)
    (queue : world.queue = .deliver id subscriber :: tasks) :
    world.step.Sweeps errand sweep stage ∧
      world.step.labour sweep stage < world.labour sweep stage := by
  have stepped : world.step = ({ world with queue := tasks } : World).deliver id subscriber := by
    rw [step, queue]
    rfl
  have popped : ({ world with queue := tasks } : World).quiet = world.quiet := by
    rw [World.quiet, World.quiet, queue]
    rfl
  have quiet := (quiet_deliver { world with queue := tasks } id subscriber).trans popped
  have delivered := delivered_deliver { world with queue := tasks } id subscriber
  have length : world.queue.length = tasks.length + 1 := by rw [queue, List.length_cons]
  rw [stepped]
  exact ⟨sweeps.of_quiet quiet (delivered.journal errand.cache) delivered.refreshes
    delivered.channels, labour_of_delivered delivered length⟩

theorem Sweeps.not_resume (sweeps : world.Sweeps errand sweep stage) {visit : Visit}
    {answer : DataAnswer} : .resume visit answer ∉ world.queue := by
  intro member
  have waits : Task.resume visit answer ∈ world.quiet.queue := List.mem_filter.mpr ⟨member, rfl⟩
  rw [sweeps.queue] at waits
  obtain ⟨path, _, same⟩ := List.mem_map.mp waits
  cases same

/-- Every task that is run brings the sweep nearer to its end. -/
theorem Sweeps.step (sweeps : world.Sweeps errand sweep stage) (admits : sweep.Admits stage)
    (sound : sweep.Sound) (waiting : world.queue ≠ []) :
    ∃ later, world.step.Furthers world errand sweep later stage (fetched 1 world) ∧
      world.step.labour sweep later < world.labour sweep stage := by
  cases queue : world.queue with
  | nil => exact absurd queue waiting
  | cons task tasks =>
      cases task with
      | deliver id subscriber =>
          obtain ⟨stepped, less⟩ := sweeps.step_deliver queue
          have nothing : fetched 1 world = [] := by
            rw [fetched, queue]
            rfl
          rw [nothing]
          exact ⟨stage, ⟨stepped, admits, (List.append_nil _).symm, less.le⟩, less⟩
      | fetch fetch =>
          obtain ⟨path, rest, children, events, cached, isFetch, passes, stepped⟩ :=
            sweeps.step_fetch admits sound queue
          have one : fetched 1 world = [errand.fetch path] := by
            rw [fetched, queue, isFetch]
            rfl
          have admitted := admits.pass sound passes
          have less : world.step.labour sweep (stage.passed path rest children events cached) <
              world.labour sweep stage := labour_of_visit admitted List.length_append
          rw [one]
          refine ⟨_, ⟨stepped, admitted, ?_, less.le⟩, less⟩
          rw [Sweep.Stage.passed, List.map_append]
          rfl
      | resume visit answer =>
          have member : Task.resume visit answer ∈ world.queue := by
            rw [queue]
            exact List.mem_cons_self
          exact absurd member sweeps.not_resume

/-! ## Whole runs -/

theorem fetched_succ (steps : Nat) (world : World) :
    fetched (steps + 1) world = fetched 1 world ++ fetched steps world.step := by
  rw [fetched, fetched]
  split <;> rfl

theorem step_of_queue_nil (queue : world.queue = []) : world.step = world := by
  rw [World.step, queue]

theorem run_of_queue_nil (steps : Nat) (queue : world.queue = []) : run steps world = world := by
  induction steps with
  | zero => rfl
  | succ steps inductionHypothesis =>
      rw [World.run, step_of_queue_nil queue]
      exact inductionHypothesis

theorem fetched_of_queue_nil (steps : Nat) (queue : world.queue = []) :
    fetched steps world = [] := by
  induction steps with
  | zero => rfl
  | succ steps inductionHypothesis =>
      rw [fetched, queue]
      simp only
      rw [step_of_queue_nil queue]
      exact inductionHypothesis

theorem Sweeps.run (sound : sweep.Sound) (steps : Nat) (sweeps : world.Sweeps errand sweep stage)
    (admits : sweep.Admits stage) :
    ∃ later, (run steps world).Furthers world errand sweep later stage (fetched steps world) ∧
      (steps ≠ 0 → world.queue ≠ [] →
        (run steps world).labour sweep later < world.labour sweep stage) := by
  induction steps generalizing world stage with
  | zero => exact ⟨stage, sweeps.furthers admits, fun some => absurd rfl some⟩
  | succ steps inductionHypothesis =>
      by_cases queue : world.queue = []
      · rw [run_of_queue_nil _ queue, fetched_of_queue_nil _ queue]
        exact ⟨stage, sweeps.furthers admits, fun _ waiting => absurd queue waiting⟩
      · obtain ⟨middle, stepped, less⟩ := sweeps.step admits sound queue
        obtain ⟨later, ran, _⟩ := inductionHypothesis stepped.sweeps stepped.admits
        rw [fetched_succ]
        exact ⟨later, stepped.trans ran, fun _ _ => ran.notMore.trans_lt less⟩

theorem labour_round (world : World) (sweep : Sweep) (stage : Sweep.Stage) :
    world.round.labour sweep stage = (World.run roundLength world).labour sweep stage := by
  unfold World.round labour
  simp only [List.length_append, List.length_nil, Nat.add_zero]
  rfl

/-- A round that has a task to run brings the sweep nearer to its end. -/
theorem Sweeps.round (sound : sweep.Sound) (sweeps : world.Sweeps errand sweep stage)
    (admits : sweep.Admits stage) :
    ∃ later, world.round.Furthers world errand sweep later stage (fetched roundLength world) ∧
      (world.queue ≠ [] → world.round.labour sweep later < world.labour sweep stage) := by
  obtain ⟨later, ran, less⟩ := sweeps.run sound roundLength admits
  refine ⟨later, ?_, ?_⟩
  · exact
      { sweeps := ran.sweeps.of_quiet sweeps.sound.quiet_round rfl rfl rfl
        admits := ran.admits
        visited := ran.visited
        notMore := by
          rw [labour_round]
          exact ran.notMore }
  · rw [labour_round]
    exact less (by decide)

theorem queue_round_of_nil (queue : world.queue = []) : world.round.queue = world.deferred := by
  rw [World.round, run_of_queue_nil _ queue, queue]
  rfl

/-- A sweep under way comes to its end. -/
theorem Sweeps.settles (sound : sweep.Sound) (sweeps : world.Sweeps errand sweep stage)
    (admits : sweep.Admits stage) :
    ∃ count last, (rounds count world).isIdle = true ∧
      (rounds count world).Furthers world errand sweep last stage (fetchedIn count world) := by
  generalize isLabour : world.labour sweep stage = labour
  induction labour using WellFoundedLT.induction generalizing world stage with
  | ind labour inductionHypothesis =>
      subst isLabour
      obtain ⟨later, moved, less⟩ := sweeps.round sound admits
      by_cases queue : world.queue = []
      · by_cases deferred : world.deferred = []
        · refine ⟨0, stage, ?_, sweeps.furthers admits⟩
          change world.isIdle = true
          rw [isIdle, queue, deferred]
          rfl
        · have waiting : world.round.queue ≠ [] := by
            rw [queue_round_of_nil queue]
            exact deferred
          obtain ⟨next, again, lessAgain⟩ := moved.sweeps.round sound moved.admits
          have fewer := (lessAgain waiting).trans_le moved.notMore
          obtain ⟨count, last, idle, settled⟩ :=
            inductionHypothesis _ fewer again.sweeps again.admits rfl
          exact ⟨count + 2, last, idle, moved.trans (again.trans settled)⟩
      · obtain ⟨count, last, idle, settled⟩ :=
          inductionHypothesis _ (less queue) moved.sweeps moved.admits rfl
        exact ⟨count + 1, last, idle, moved.trans settled⟩

end World

end WatchedTree
