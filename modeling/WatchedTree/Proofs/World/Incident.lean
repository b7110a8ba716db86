import WatchedTree.Proofs.World.Command

/-!
# Incidents

What befalls a world, one thing at a time: a command, another remote side, the passing of time. A
round of tasks is no single incident; each of its tasks is one, so that what holds between incidents
holds between the tasks of a round.
-/
namespace WatchedTree

/-- Holds of the commands that run the tasks of a whole round. -/
def Command.isRound : Command → Bool
  | .round | .advance _ => true
  | _ => false

/-- One thing that befalls a world. -/
inductive Incident where
  | command (command : Command) (single : command.isRound = false)
  /-- The remote side becomes another one, whatever it was before. -/
  | turn (ensemble : Ensemble)
  | elapse (span : Span)
  /-- The deferred tasks are queued. -/
  | requeue

namespace Incident

/-- The task at the front of the queue is run. -/
def step : Incident := command .step rfl

end Incident

/-- The cache, if any, whose entries a command drops or changes by order of its user. -/
def Command.clears? : Command → Option CacheId
  | .closeCache id | .clear id _ | .clearAll id | .clearDataIf id _ _ => some id
  | _ => none

def Incident.clears? : Incident → Option CacheId
  | .command given _ => given.clears?
  | _ => none

/-- Holds of the commands that neither run a task nor touch a token. -/
def Command.isPlain : Command → Bool
  | .step | .round | .advance _ | .readToken _ | .cancelToken _ => false
  | _ => true

def Incident.isPlain : Incident → Bool
  | .command given _ => given.isPlain
  | _ => true

theorem Incident.eq_or_isPlain (incident : Incident) :
    incident = .step ∨ (∃ token, incident = .command (.readToken token) rfl) ∨
      (∃ token, incident = .command (.cancelToken token) rfl) ∨ incident.isPlain = true := by
  cases incident with
  | command given single =>
      cases given with
      | step => exact Or.inl rfl
      | readToken token => exact Or.inr (Or.inl ⟨token, rfl⟩)
      | cancelToken token => exact Or.inr (Or.inr (Or.inl ⟨token, rfl⟩))
      | round | advance => cases single
      | _ => exact Or.inr (Or.inr (Or.inr rfl))
  | turn | elapse | requeue => exact Or.inr (Or.inr (Or.inr rfl))

namespace World

/-- Queues the deferred tasks. -/
def requeue (world : World) : World :=
  { world with queue := world.queue ++ world.deferred, deferred := [] }

/-- The world after an incident. -/
def undergo (world : World) : Incident → World
  | .command command _ => world.obey command
  | .turn ensemble => world.setEnsemble ensemble
  | .elapse span => { world with now := world.now + span }
  | .requeue => world.requeue

/-- The world after some incidents, one after the other. -/
def undergoAll (world : World) (incidents : List Incident) : World :=
  incidents.foldl undergo world

@[simp] theorem undergoAll_nil (world : World) : world.undergoAll [] = world := rfl

@[simp] theorem undergoAll_cons (world : World) (incident : Incident)
    (incidents : List Incident) :
    world.undergoAll (incident :: incidents) = (world.undergo incident).undergoAll incidents := rfl

theorem undergoAll_append (world : World) (first second : List Incident) :
    world.undergoAll (first ++ second) = (world.undergoAll first).undergoAll second :=
  List.foldl_append

theorem undergoAll_concat (world : World) (incidents : List Incident) (last : Incident) :
    world.undergoAll (incidents ++ [last]) = (world.undergoAll incidents).undergo last :=
  undergoAll_append world incidents [last]

theorem run_eq_undergoAll (steps : Nat) (world : World) :
    run steps world = world.undergoAll (List.replicate steps .step) := by
  induction steps generalizing world with
  | zero => rfl
  | succ steps inductionHypothesis => exact inductionHypothesis world.step

end World

/-- What a round comes to. -/
def Incident.round : List Incident := List.replicate World.roundLength step ++ [requeue]

/-- What a command comes to. -/
def Command.incidents : Command → List Incident
  | .round => Incident.round
  | .advance span => .elapse span :: Incident.round
  | command => if single : command.isRound = false then [.command command single] else []

namespace World

theorem round_eq_undergoAll (world : World) : world.round = world.undergoAll Incident.round := by
  rw [Incident.round, undergoAll_concat, ← run_eq_undergoAll]
  rfl

theorem obey_eq_undergoAll (world : World) (command : Command) :
    world.obey command = world.undergoAll command.incidents := by
  cases command with
  | round => exact round_eq_undergoAll world
  | advance span =>
      rw [obey, advance, round_eq_undergoAll, Command.incidents, undergoAll_cons, undergo]
  | _ => rfl

/-- What commands lead to, incidents lead to. -/
theorem obeyAll_eq_undergoAll (world : World) (commands : List Command) :
    world.obeyAll commands = world.undergoAll (commands.flatMap Command.incidents) := by
  induction commands generalizing world with
  | nil => rfl
  | cons command others inductionHypothesis =>
      rw [obeyAll_cons, List.flatMap_cons, undergoAll_append, ← obey_eq_undergoAll]
      exact inductionHypothesis _

end World

end WatchedTree
