import Mathlib.Data.Prod.Lex
import Mathlib.Order.WellFounded
import WatchedTree.Proofs.World.Delivery
import WatchedTree.Proofs.World.Heard

/-!
# Runs but for their deliveries

Two runs keep pace if the same befalls both, deliveries left out. Deliveries come to an end by
themselves, so that a world can always be brought to run a fetch, or to rest.
-/
namespace WatchedTree

/-- Holds of the incidents that run a task, or queue those again that are put off. -/
def Incident.isTask : Incident → Bool
  | .command .step _ => true
  | .requeue => true
  | _ => false

namespace World

variable {world first second : World} {token : ChannelId} {incident : Incident}

/-! ## Scripts -/

/-- What befalls a world along a run, deliveries left out. -/
def script : World → List Incident → List Incident
  | _, [] => []
  | world, incident :: others =>
    if world.delivers incident then script (world.undergo incident) others
    else incident :: script (world.undergo incident) others

theorem script_nil (world : World) : world.script [] = [] :=
  rfl

theorem script_of_delivers (delivers : world.delivers incident = true) (others : List Incident) :
    world.script (incident :: others) = (world.undergo incident).script others := by
  rw [script, if_pos delivers]

theorem script_of_not_delivers (busy : world.delivers incident = false)
    (others : List Incident) :
    world.script (incident :: others) = incident :: (world.undergo incident).script others := by
  rw [script, if_neg (by rw [busy]; exact Bool.false_ne_true)]

theorem script_append (world : World) (earlier later : List Incident) :
    world.script (earlier ++ later) =
      world.script earlier ++ (world.undergoAll earlier).script later := by
  induction earlier generalizing world with
  | nil => rfl
  | cons incident others inductionHypothesis =>
      rw [List.cons_append, undergoAll_cons]
      cases delivers : world.delivers incident with
      | true => rw [script_of_delivers delivers, script_of_delivers delivers, inductionHypothesis]
      | false =>
          rw [script_of_not_delivers delivers, script_of_not_delivers delivers,
            inductionHypothesis, List.cons_append]

/-- Two runs side by side: a delivery in one of them, or the same in both. -/
inductive Abreast : World → World → List Incident → List Incident → Prop where
  | nil {first second : World} : Abreast first second [] []
  | left {first second : World} {incident : Incident} {others later : List Incident}
      (delivers : first.delivers incident = true)
      (rest : Abreast (first.undergo incident) second others later) :
      Abreast first second (incident :: others) later
  | right {first second : World} {incident : Incident} {others earlier : List Incident}
      (delivers : second.delivers incident = true)
      (rest : Abreast first (second.undergo incident) earlier others) :
      Abreast first second earlier (incident :: others)
  | both {first second : World} {incident : Incident} {others later : List Incident}
      (isLeft : first.delivers incident = false) (isRight : second.delivers incident = false)
      (rest : Abreast (first.undergo incident) (second.undergo incident) others later) :
      Abreast first second (incident :: others) (incident :: later)

theorem abreast_of_script {earlier later : List Incident}
    (same : first.script earlier = second.script later) : Abreast first second earlier later := by
  induction earlier generalizing first second later with
  | nil =>
      induction later generalizing second with
      | nil => exact .nil
      | cons incident others inductionHypothesis =>
          cases delivers : second.delivers incident with
          | true =>
              rw [script_of_delivers delivers] at same
              exact .right delivers (inductionHypothesis same)
          | false =>
              rw [script_of_not_delivers delivers] at same
              cases same
  | cons incident others outerHypothesis =>
      cases isLeft : first.delivers incident with
      | true =>
          rw [script_of_delivers isLeft] at same
          exact .left isLeft (outerHypothesis same)
      | false =>
          rw [script_of_not_delivers isLeft] at same
          induction later generalizing second with
          | nil => cases same
          | cons twin laters inductionHypothesis =>
              cases isRight : second.delivers twin with
              | true =>
                  rw [script_of_delivers isRight] at same
                  exact .right isRight (inductionHypothesis same)
              | false =>
                  rw [script_of_not_delivers isRight] at same
                  obtain ⟨rfl, rest⟩ := List.cons.inj same
                  exact .both isLeft isRight (outerHypothesis rest)

/-! ## Tasks -/

theorem isTask_of_delivers (delivers : world.delivers incident = true) :
    incident.isTask = true := by
  cases incident with
  | turn | elapse => cases delivers
  | requeue => rfl
  | command command single =>
      cases command with
      | step => rfl
      | _ => cases delivers

/-- What is no task is left in a script. -/
theorem script_of_areMoves {moves : List Incident} (areMoves : ∀ move ∈ moves, move.isTask = false)
    (world : World) : world.script moves = moves := by
  induction moves generalizing world with
  | nil => rfl
  | cons move others inductionHypothesis =>
      obtain ⟨isMove, areOthers⟩ := List.forall_mem_cons.mp areMoves
      have busy : world.delivers move = false := by
        by_contra delivers
        rw [isTask_of_delivers (eq_true_of_ne_false delivers)] at isMove
        cases isMove
      rw [script_of_not_delivers busy, inductionHypothesis areOthers]

/-- A task that calls nobody runs a fetch. -/
theorem eq_step_of_isTask (isTask : incident.isTask = true)
    (busy : world.delivers incident = false) : incident = .step := by
  cases incident with
  | turn | elapse => cases isTask
  | requeue => cases busy
  | command command single =>
      cases command with
      | step => rfl
      | _ => cases isTask

theorem mem_of_mem_script {incidents : List Incident} {befallen : Incident}
    (member : befallen ∈ world.script incidents) : befallen ∈ incidents := by
  induction incidents generalizing world with
  | nil => exact absurd member List.not_mem_nil
  | cons incident others inductionHypothesis =>
      cases delivers : world.delivers incident with
      | true =>
          rw [script_of_delivers delivers] at member
          exact List.mem_cons_of_mem _ (inductionHypothesis member)
      | false =>
          rw [script_of_not_delivers delivers] at member
          rcases List.mem_cons.mp member with rfl | later
          · exact List.mem_cons_self
          · exact List.mem_cons_of_mem _ (inductionHypothesis later)

/-- What is left out of a script are tasks. -/
theorem isTask_of_script {incidents : List Incident}
    (tasks : ∀ task ∈ world.script incidents, task.isTask = true) :
    ∀ task ∈ incidents, task.isTask = true := by
  induction incidents generalizing world with
  | nil => exact fun _ none => absurd none List.not_mem_nil
  | cons incident others inductionHypothesis =>
      cases delivers : world.delivers incident with
      | true =>
          rw [script_of_delivers delivers] at tasks
          exact List.forall_mem_cons.mpr ⟨isTask_of_delivers delivers, inductionHypothesis tasks⟩
      | false =>
          rw [script_of_not_delivers delivers] at tasks
          obtain ⟨isTask, areTasks⟩ := List.forall_mem_cons.mp tasks
          exact List.forall_mem_cons.mpr ⟨isTask, inductionHypothesis areTasks⟩

/-- A run in which, each time after some things have befallen the world, tasks are run until none
is left. -/
inductive Settles : World → List (List Incident) → List Incident → Prop where
  | nil {world : World} : Settles world [] []
  | cons {world : World} {moves tasks others : List Incident} {rounds : List (List Incident)}
      (areMoves : ∀ move ∈ moves, move.isTask = false)
      (areTasks : ∀ task ∈ tasks, task.isTask = true)
      (idle : ((world.undergoAll moves).undergoAll tasks).isIdle = true)
      (rest : Settles ((world.undergoAll moves).undergoAll tasks) rounds others) :
      Settles world (moves :: rounds) (moves ++ (tasks ++ others))

/-! ## Deliveries come to an end -/

/-- What is left to be done about deliveries. -/
def backlog (world : World) : Nat ×ₗ Nat :=
  toLex (world.unread, 2 * world.deferred.length + world.queue.length)

theorem backlog_step {task : Task} {tasks : List Task} (queue : world.queue = task :: tasks)
    (isDelivery : task.isDelivery = true) : world.step.backlog < world.backlog := by
  cases task with
  | fetch | resume => cases isDelivery
  | deliver id registration =>
      have delivered := delivered_deliver ({ world with queue := tasks } : World) id registration
      have stepped : world.step = ({ world with queue := tasks } : World).deliver id registration :=
        step_of_queue queue
      rw [stepped]
      apply Prod.Lex.toLex_lt_toLex.mpr
      rcases delivered.less with ⟨less, _⟩ | ⟨notMore, same⟩
      · exact Or.inl less
      · rcases Nat.lt_or_eq_of_le notMore with less | equal
        · exact Or.inl less
        · refine Or.inr ⟨equal, ?_⟩
          rw [delivered.queue, same, queue, List.length_cons]
          exact Nat.lt_succ_self _

theorem backlog_requeue (queue : world.queue = []) (some : world.deferred ≠ []) :
    world.requeue.backlog < world.backlog := by
  have positive := List.length_pos_iff.mpr some
  apply Prod.Lex.toLex_lt_toLex.mpr
  refine Or.inr ⟨rfl, ?_⟩
  rw [requeue, queue]
  simp only [List.nil_append, List.length_nil]
  omega

/-- Deliveries are run until there are none, or a fetch is at the front. -/
theorem IsAttentive.exists_pause (attentive : world.IsAttentive) :
    ∃ pause, world.script pause = [] ∧ ((world.undergoAll pause).delivers .step = false ∨
      (world.undergoAll pause).isIdle = true) := by
  generalize isBacklog : world.backlog = backlog
  induction backlog using WellFoundedLT.induction generalizing world with
  | ind backlog inductionHypothesis =>
      subst isBacklog
      cases queue : world.queue with
      | nil =>
          by_cases nothing : world.deferred = []
          · refine ⟨[], rfl, Or.inr ?_⟩
            rw [undergoAll_nil, isIdle, queue, nothing]
            rfl
          · obtain ⟨pause, silent, ends⟩ := inductionHypothesis _ (backlog_requeue queue nothing)
              attentive.requeue.attentive rfl
            refine ⟨.requeue :: pause, ?_, ends⟩
            rw [script_of_delivers rfl]
            exact silent
      | cons task tasks =>
          have front : world.delivers .step = task.isDelivery := by
            change world.queue.head?.all Task.isDelivery = task.isDelivery
            rw [queue]
            rfl
          cases isDelivery : task.isDelivery with
          | false => exact ⟨[], rfl, Or.inl (front.trans isDelivery)⟩
          | true =>
              obtain ⟨pause, silent, ends⟩ := inductionHypothesis _ (backlog_step queue isDelivery)
                (attentive.undergo .step).attentive rfl
              refine ⟨.step :: pause, ?_, ends⟩
              rw [script_of_delivers (front.trans isDelivery)]
              exact silent

/-- A world that is like an idle one has no fetch to run. -/
theorem IsLike.delivers_of_isIdle (alike : IsLike token first second)
    (idle : second.isIdle = true) : first.delivers .step = true := by
  by_contra busy
  obtain ⟨task, tasks, queue, isFetch⟩ := exists_fetch (eq_false_of_ne_true busy)
  rw [isIdle, Bool.and_eq_true, List.isEmpty_iff] at idle
  have fronts := alike.queue
  rw [queue, idle.1, List.filter_cons_of_pos (by rw [isFetch]; rfl)] at fronts
  cases fronts

end World

end WatchedTree
