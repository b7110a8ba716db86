import Mathlib.Computability.StateTransition
import Mathlib.Data.List.Induction
import WatchedTree.Proofs.Connection.BoundedQueue

/-!
# The queue of failures, as a list

A push is a loop of offers to a channel that may be full; it ends, and what it leaves is a list with
the failure at its end and without its front if it was full. As failures may be alike, a ledger
keeps such a list of their places in the order of pushing, and says of each place whether its
failure waits, has been polled or is lost.
-/
namespace WatchedTree

/-- One call on a queue of failures. -/
inductive QueueCall where
  | push (failure : Failure)
  | poll

/-! ## A push as a loop -/

/-- A push under way: what the channel holds, and the failure that it has not taken yet. -/
structure Sending where
  pending : List Failure
  held : Option Failure

namespace Sending

/-- The next turn, unless the failure has been taken. A full channel hands it back and drops its
oldest failure, if it holds any. -/
def turn (capacity : Nat) (sending : Sending) : Option Sending :=
  match sending.held with
  | none => none
  | some failure =>
    if sending.pending.length < capacity then
      some { pending := sending.pending ++ [failure], held := none }
    else some { pending := sending.pending.tail, held := some failure }

/-- With room for one failure at least, a push ends, whatever the channel holds at first. -/
theorem ends {capacity : Nat} (positive : 1 ≤ capacity) (pending : List Failure)
    (failure : Failure) :
    { pending := FailureQueue.offer capacity pending failure, held := none } ∈
      StateTransition.eval (turn capacity) { pending, held := some failure } := by
  have taken : ∀ waiting : List Failure, waiting.length < capacity →
      { pending := waiting ++ [failure], held := none } ∈
        StateTransition.eval (turn capacity) { pending := waiting, held := some failure } := by
    intro waiting hasRoom
    exact StateTransition.mem_eval.mpr ⟨.single (if_pos hasRoom), rfl⟩
  -- A turn without success drops one failure, so that there is room at the latest when none is left.
  induction pending with
  | nil =>
      rw [FailureQueue.offer, if_pos (Nat.lt_of_succ_le positive)]
      exact taken [] positive
  | cons oldest rest inductionHypothesis =>
      rw [FailureQueue.offer]
      by_cases hasRoom : (oldest :: rest).length < capacity
      · rw [if_pos hasRoom]
        exact taken (oldest :: rest) hasRoom
      · have refused : turn capacity { pending := oldest :: rest, held := some failure } =
            some { pending := rest, held := some failure } := if_neg hasRoom
        rw [if_neg hasRoom, StateTransition.reaches_eval (.single refused)]
        exact inductionHypothesis

end Sending

/-! ## Places -/

/-- The failures pushed so far, and by their places among them, counted from zero, those that wait
and those that have been polled, each in the order of their coming. -/
structure Ledger where
  pushed : List Failure := []
  waiting : List Nat := []
  polled : List Nat := []
deriving DecidableEq

namespace Ledger

/-- A push takes in the next place, and a poll takes the front. -/
def obey (capacity : Nat) (ledger : Ledger) : QueueCall → Ledger
  | .push failure =>
    { ledger with
      pushed := ledger.pushed ++ [failure]
      waiting := FailureQueue.takeIn capacity ledger.waiting ledger.pushed.length }
  | .poll =>
    { ledger with
      waiting := ledger.waiting.tail
      polled := ledger.polled ++ ledger.waiting.head?.toList }

/-- The ledger after some calls on a queue that was empty at first. -/
def ofCalls (capacity : Nat) (calls : List QueueCall) : Ledger := calls.foldl (obey capacity) {}

theorem ofCalls_concat (capacity : Nat) (calls : List QueueCall) (call : QueueCall) :
    ofCalls capacity (calls ++ [call]) = (ofCalls capacity calls).obey capacity call := by
  rw [ofCalls, List.foldl_append]
  rfl

/-- The failure at a place. -/
def read (ledger : Ledger) (place : Nat) : Option Failure := ledger.pushed[place]?

/-- The failures pushed after the one at a place. -/
def newer (ledger : Ledger) (place : Nat) : List Failure := ledger.pushed.drop (place + 1)

/-- A failure was pushed, and neither waits nor has been polled. -/
structure IsLost (ledger : Ledger) (place : Nat) : Prop where
  pushed : place < ledger.pushed.length
  notWaiting : place ∉ ledger.waiting
  notPolled : place ∉ ledger.polled

/-! ## What the ledger says of its places -/

/-- No more places wait than the queue has room for, and all places are settled as the items of a
bounded queue are. -/
structure IsSound (ledger : Ledger) (capacity : Nat) : Prop where
  within : ledger.waiting.length ≤ capacity
  settled : FailureQueue.IsSettled capacity (List.range ledger.pushed.length) ledger.polled
    ledger.waiting

variable {ledger : Ledger} {capacity : Nat} {call : QueueCall} {calls : List QueueCall}
  {place : Nat}

theorem IsSound.obey (sound : ledger.IsSound capacity) (call : QueueCall) :
    (ledger.obey capacity call).IsSound capacity := by
  obtain ⟨pushed, waiting, polled⟩ := ledger
  cases call with
  | push failure =>
      have queued : FailureQueue.Passes capacity waiting [] [pushed.length]
          (FailureQueue.takeIn capacity waiting pushed.length) :=
        FailureQueue.newest_eq_takeIn sound.within pushed.length ▸ .queued
      refine ⟨queued.length_le sound.within, ?_⟩
      have settled := sound.settled.step queued
      rw [List.append_nil, ← List.range_succ] at settled
      rw [Ledger.obey, List.length_append]
      exact settled
  | poll =>
      cases waiting with
      | nil => exact ⟨sound.within, by simpa [Ledger.obey] using sound.settled⟩
      | cons oldest rest =>
          have handed : FailureQueue.Passes capacity (oldest :: rest) [oldest] [] rest := .handed
          refine ⟨handed.length_le sound.within, ?_⟩
          have settled := sound.settled.step handed
          rw [List.append_nil] at settled
          exact settled

theorem isSound (capacity : Nat) (calls : List QueueCall) :
    (ofCalls capacity calls).IsSound capacity := by
  induction calls using List.reverseRecOn with
  | nil => exact ⟨Nat.zero_le _, FailureQueue.isSettled_nil capacity⟩
  | append_singleton calls call inductionHypothesis =>
      rw [ofCalls_concat]
      exact inductionHypothesis.obey call

theorem IsSound.lt_of_waits (sound : ledger.IsSound capacity) (waits : place ∈ ledger.waiting) :
    place < ledger.pushed.length := by
  obtain ⟨next, _, _, _, waiting, _⟩ := sound.settled.of_range
  rw [waiting] at waits
  exact List.mem_range.mp (List.mem_of_mem_drop waits)

theorem IsSound.lt_of_polled (sound : ledger.IsSound capacity) (polled : place ∈ ledger.polled) :
    place < ledger.pushed.length := by
  obtain ⟨next, _, before, nextWithin, _⟩ := sound.settled.of_range
  exact Nat.lt_of_lt_of_le (before place polled) nextWithin

/-- A place is read as before after another call. -/
theorem read_obey (pushed : place < ledger.pushed.length) (call : QueueCall) :
    (ledger.obey capacity call).read place = ledger.read place := by
  cases call with
  | push failure => exact List.getElem?_append_left pushed
  | poll => rfl

/-- What has not been polled before as many newer failures were pushed as the queue holds is
lost. -/
theorem IsSound.isLost (sound : ledger.IsSound capacity) (notPolled : place ∉ ledger.polled)
    (pushedOut : place + capacity < ledger.pushed.length) : ledger.IsLost place := by
  refine ⟨by omega, fun waits => ?_, notPolled⟩
  obtain ⟨next, _, _, nextWithin, waiting, _⟩ := sound.settled.of_range
  have within := sound.within
  rw [waiting, List.length_drop, List.length_range] at within
  -- The places that wait are the last ones, and too few to reach back to this one.
  have behind : next ≤ place := by
    rw [waiting, List.mem_drop_iff_getElem] at waits
    obtain ⟨offset, _, rfl⟩ := waits
    rw [List.getElem_range]
    omega
  omega

/-- What is lost was followed by as many newer failures as the queue holds. -/
theorem IsSound.pushedOut (sound : ledger.IsSound capacity) (lost : ledger.IsLost place) :
    place + capacity < ledger.pushed.length := by
  obtain ⟨next, _, _, _, waiting, gone⟩ := sound.settled.of_range
  refine gone place (Nat.lt_of_not_le fun beyond => lost.notWaiting ?_) lost.notPolled
  rw [waiting, List.mem_drop_iff_getElem]
  have pushed := lost.pushed
  exact ⟨place - next, by rw [List.length_range]; omega, by rw [List.getElem_range]; omega⟩

/-- What is lost stays lost. -/
theorem IsLost.obey (lost : ledger.IsLost place) (call : QueueCall) :
    (ledger.obey capacity call).IsLost place := by
  obtain ⟨pushed, notWaiting, notPolled⟩ := lost
  cases call with
  | push failure =>
      refine ⟨?_, fun waits => ?_, notPolled⟩
      · rw [Ledger.obey, List.length_append]
        exact Nat.lt_add_right _ pushed
      · have known : place ∈ ledger.waiting ++ [ledger.pushed.length] := by
          simp only [Ledger.obey, FailureQueue.takeIn] at waits
          split at waits
          · exact List.mem_of_mem_tail waits
          · exact waits
        rcases List.mem_append.mp known with waited | isNew
        · exact notWaiting waited
        · exact Nat.ne_of_lt pushed (List.mem_singleton.mp isNew)
  | poll =>
      refine ⟨pushed, fun waits => notWaiting (List.mem_of_mem_tail waits), fun polled => ?_⟩
      rcases List.mem_append.mp polled with before | isFront
      · exact notPolled before
      · exact notWaiting (List.mem_of_mem_head? (Option.mem_toList.mp isFront))

theorem IsLost.later (lost : (ofCalls capacity calls).IsLost place) (later : List QueueCall) :
    (ofCalls capacity (calls ++ later)).IsLost place := by
  induction later using List.reverseRecOn with
  | nil => rwa [List.append_nil]
  | append_singleton earlier last inductionHypothesis =>
      rw [← List.append_assoc, ofCalls_concat]
      exact inductionHypothesis.obey last

/-- A failure is lost exactly if as many newer ones as the queue holds were pushed at a time when it
had not been polled. -/
theorem isLost_iff :
    (ofCalls capacity calls).IsLost place ↔
      ∃ before after, calls = before ++ after ∧ place ∉ (ofCalls capacity before).polled ∧
        place < (ofCalls capacity before).pushed.length ∧
        capacity ≤ ((ofCalls capacity before).newer place).length := by
  constructor
  · intro lost
    have pushedOut := (isSound capacity calls).pushedOut lost
    refine ⟨calls, [], (List.append_nil calls).symm, lost.notPolled, lost.pushed, ?_⟩
    rw [newer, List.length_drop]
    omega
  · rintro ⟨before, after, rfl, notPolled, pushed, pushedOut⟩
    rw [newer, List.length_drop] at pushedOut
    have lost := (isSound capacity before).isLost notPolled (by omega)
    exact lost.later after

end Ledger

namespace FailureQueue

variable {queue : FailureQueue} {ledger : Ledger} {capacity : Nat}

/-! ## Calls on a queue -/

/-- The queue after a call. -/
def obey (queue : FailureQueue) : QueueCall → FailureQueue
  | .push failure => queue.push failure
  | .poll => queue.poll.2

/-- The queue after some calls, one after the other. -/
def run (queue : FailureQueue) (calls : List QueueCall) : FailureQueue := calls.foldl obey queue

/-- The failure that a call is answered with. -/
def hands (queue : FailureQueue) : QueueCall → List Failure
  | .push _ => []
  | .poll => queue.poll.1.toList

/-- The failures that the polls among some calls are answered with, one after the other. -/
def polled (queue : FailureQueue) : List QueueCall → List Failure
  | [] => []
  | call :: calls => queue.hands call ++ (queue.obey call).polled calls

theorem run_concat (queue : FailureQueue) (calls : List QueueCall) (call : QueueCall) :
    queue.run (calls ++ [call]) = (queue.run calls).obey call := by
  rw [run, List.foldl_append]
  rfl

theorem polled_concat (queue : FailureQueue) (calls : List QueueCall) (call : QueueCall) :
    queue.polled (calls ++ [call]) = queue.polled calls ++ (queue.run calls).hands call := by
  induction calls generalizing queue with
  | nil => simp [polled, run]
  | cons first others inductionHypothesis =>
      rw [List.cons_append, polled, polled, inductionHypothesis, List.append_assoc]
      rfl

theorem push_eq (within : queue.pending.length ≤ queue.capacity) (failure : Failure) :
    queue.push failure =
      { queue with pending := takeIn queue.capacity queue.pending failure } := by
  rw [push, offer_eq_newest, newest_eq_takeIn within]

theorem poll_eq (queue : FailureQueue) :
    queue.poll = (queue.pending.head?, { queue with pending := queue.pending.tail }) := by
  obtain ⟨capacity, pending⟩ := queue
  cases pending <;> rfl

/-- A queue holds the failures at the places that wait. -/
structure IsReadFrom (queue : FailureQueue) (ledger : Ledger) (capacity : Nat) : Prop where
  sameCapacity : queue.capacity = capacity
  pending : queue.pending.map some = ledger.waiting.map ledger.read

namespace IsReadFrom

theorem within (isRead : queue.IsReadFrom ledger capacity) (sound : ledger.IsSound capacity) :
    queue.pending.length ≤ queue.capacity := by
  have same := congrArg List.length isRead.pending
  rw [List.length_map, List.length_map] at same
  rw [same, isRead.sameCapacity]
  exact sound.within

theorem push (isRead : queue.IsReadFrom ledger capacity) (sound : ledger.IsSound capacity)
    (failure : Failure) :
    (queue.push failure).IsReadFrom (ledger.obey capacity (.push failure)) capacity := by
  rw [push_eq (isRead.within sound)]
  refine ⟨isRead.sameCapacity, ?_⟩
  -- The places that wait are read as before, and the new one is that of the failure.
  have readStill : ledger.waiting.map (ledger.obey capacity (.push failure)).read =
      ledger.waiting.map ledger.read :=
    List.map_congr_left fun place waits => Ledger.read_obey (sound.lt_of_waits waits) _
  have readNew : (ledger.obey capacity (.push failure)).read ledger.pushed.length =
      some failure := List.getElem?_concat_length
  calc (takeIn queue.capacity queue.pending failure).map some
      = takeIn capacity (queue.pending.map some) (some failure) := by
        rw [map_takeIn, isRead.sameCapacity]
    _ = takeIn capacity (ledger.waiting.map (ledger.obey capacity (.push failure)).read)
          ((ledger.obey capacity (.push failure)).read ledger.pushed.length) := by
        rw [isRead.pending, readStill, readNew]
    _ = (takeIn capacity ledger.waiting ledger.pushed.length).map
          (ledger.obey capacity (.push failure)).read := (map_takeIn _ _ _ _).symm

theorem poll (isRead : queue.IsReadFrom ledger capacity) :
    queue.poll.2.IsReadFrom (ledger.obey capacity .poll) capacity := by
  rw [poll_eq]
  refine ⟨isRead.sameCapacity, ?_⟩
  rw [List.map_tail, isRead.pending, ← List.map_tail]
  rfl

theorem obey (isRead : queue.IsReadFrom ledger capacity) (sound : ledger.IsSound capacity)
    (call : QueueCall) : (queue.obey call).IsReadFrom (ledger.obey capacity call) capacity := by
  cases call with
  | push failure => exact isRead.push sound failure
  | poll => exact isRead.poll

end IsReadFrom

theorem isReadFrom_run (capacity : Nat) (calls : List QueueCall) :
    (run { capacity } calls).IsReadFrom (Ledger.ofCalls capacity calls) capacity := by
  induction calls using List.reverseRecOn with
  | nil => exact ⟨rfl, rfl⟩
  | append_singleton calls call inductionHypothesis =>
      rw [run_concat, Ledger.ofCalls_concat]
      exact inductionHypothesis.obey (Ledger.isSound capacity calls) call

/-- What was polled is what the ledger has at the places polled. -/
theorem polled_eq (capacity : Nat) (calls : List QueueCall) :
    (polled { capacity } calls).map some =
      (Ledger.ofCalls capacity calls).polled.map (Ledger.ofCalls capacity calls).read := by
  induction calls using List.reverseRecOn with
  | nil => rfl
  | append_singleton calls call inductionHypothesis =>
      have isRead := isReadFrom_run capacity calls
      have sound := Ledger.isSound capacity calls
      rw [polled_concat, Ledger.ofCalls_concat, List.map_append, inductionHypothesis]
      generalize Ledger.ofCalls capacity calls = ledger at isRead sound ⊢
      have readStill : ledger.polled.map (ledger.obey capacity call).read =
          ledger.polled.map ledger.read :=
        List.map_congr_left fun place polled => Ledger.read_obey (sound.lt_of_polled polled) call
      rw [← readStill]
      cases call with
      | push failure => exact List.append_nil _
      | poll =>
          have fronts := congrArg (·.head?.toList) isRead.pending
          simp only [List.head?_map, Option.toList_map] at fronts
          rw [hands, poll_eq, fronts, Ledger.obey, List.map_append]
          rfl

/-- After any pushes and polls on a queue with room for one failure at least, a further push comes to
an end, puts its failure behind those that wait, and drops the front of a full queue; a poll takes
the front. What waits and what was polled is what a list of places has, kept in the same way, so
that failures are polled in the order of their pushing and none twice. A failure is lost exactly if
as many newer ones as the queue holds were pushed at a time when it had not been polled. -/
theorem follows_ledger (positive : 1 ≤ capacity) (calls : List QueueCall) :
    let queue := run { capacity } calls
    let ledger := Ledger.ofCalls capacity calls
    (∀ failure,
      { pending := (queue.push failure).pending, held := none } ∈
          StateTransition.eval (Sending.turn capacity)
            { pending := queue.pending, held := some failure } ∧
        queue.push failure =
          { queue with pending := takeIn capacity queue.pending failure }) ∧
    queue.poll = (queue.pending.head?, { queue with pending := queue.pending.tail }) ∧
    queue.pending.map some = ledger.waiting.map ledger.read ∧
    (polled { capacity } calls).map some = ledger.polled.map ledger.read ∧
    ledger.polled.Pairwise (· < ·) ∧
    ∀ place, ledger.IsLost place ↔
      ∃ before after, calls = before ++ after ∧
        place ∉ (Ledger.ofCalls capacity before).polled ∧
        place < (Ledger.ofCalls capacity before).pushed.length ∧
        capacity ≤ ((Ledger.ofCalls capacity before).newer place).length := by
  intro queue ledger
  have isRead : queue.IsReadFrom ledger capacity := isReadFrom_run capacity calls
  have sound : ledger.IsSound capacity := Ledger.isSound capacity calls
  obtain ⟨_, ascending, _⟩ := sound.settled.of_range
  refine ⟨fun failure => ⟨?_, ?_⟩, poll_eq queue, isRead.pending, polled_eq capacity calls,
    ascending, fun place => Ledger.isLost_iff⟩
  · have ended := Sending.ends positive queue.pending failure
    rw [push, isRead.sameCapacity]
    exact ended
  · rw [push_eq (isRead.within sound), isRead.sameCapacity]

/-- Two alike failures and two others in a queue with room for two: the first of the alike ones is
lost, the second is polled. -/
theorem follows_ledger_of_alike :
    let calls : List QueueCall :=
      [.push .closed, .push .closed, .push .notStarted, .poll, .push (.transport .connectionLoss)]
    let queue := run { capacity := 2 } calls
    let ledger := Ledger.ofCalls 2 calls
    1 ≤ 2 ∧ queue.pending = [.notStarted, .transport .connectionLoss] ∧
      polled { capacity := 2 } calls = [.closed] ∧ ledger.polled = [1] ∧
      queue.push .closed =
        { queue with pending := [.transport .connectionLoss, .closed] } ∧
      ∃ before after, calls = before ++ after ∧ 0 ∉ (Ledger.ofCalls 2 before).polled ∧
        0 < (Ledger.ofCalls 2 before).pushed.length ∧
        2 ≤ ((Ledger.ofCalls 2 before).newer 0).length := by
  intro calls queue ledger
  have follows := follows_ledger (by decide : 1 ≤ 2) calls
  obtain ⟨pushes, _, _, _, _, lost⟩ := follows
  refine ⟨by decide, by decide, by decide, by decide, (pushes .closed).2, (lost 0).mp ?_⟩
  exact ⟨by decide, by decide, by decide⟩

end FailureQueue

end WatchedTree
