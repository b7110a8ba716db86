import Mathlib.Data.List.Induction
import WatchedTree.Proofs.Connection.BoundedQueue
import WatchedTree.Proofs.Connection.Calls

/-!
# What becomes of the failures of a connection

Only an expiry whose session cannot be replaced queues a failure. A failure waits until a request
for a handle or a poll takes it, oldest first, or until ten newer ones have pushed it out. The
counters agree with what callers and the service have seen.
-/
namespace WatchedTree

namespace Connection

variable {Remote Listener : Type} [Transport Remote]
  {connection after : Connection Remote Listener} {now : Moment}

/-! ## What a call is on record for -/

/-- The failure of the background that a request for a handle is answered with. -/
def surfaced : Except Failure SessionId → List Failure
  | .error (.sessionExpired source) => [.sessionExpired source]
  | _ => []

/-- The time without a connection that a request for a handle is refused for. -/
def timedOut : Except Failure SessionId → List Span
  | .error (.connectionTimeout elapsed) => [elapsed]
  | _ => []

/-- The expiry that a call brings, unless the connection is closed. -/
def expires (connection : Connection Remote Listener) (_now : Moment) :
    ConnectionCall Remote Listener → List Event
  | .absorb event => if event.isExpiry && !connection.isClosed then [event] else []
  | _ => []

/-- The failure that a call queues: the one of an expiry after which no session can be opened. -/
def queues (connection : Connection Remote Listener) (now : Moment)
    (call : ConnectionCall Remote Listener) : List Failure :=
  (connection.expires now call).flatMap fun _ =>
    match (connection.openSession now).1 with
    | .error failure => [.sessionExpired failure]
    | .ok () => []

def surfaces (connection : Connection Remote Listener) (now : Moment) :
    ConnectionCall Remote Listener → List Failure
  | .acquire => surfaced (connection.acquire now).1
  | _ => []

/-- The failure of the background that a caller is given. -/
def hands (connection : Connection Remote Listener) (now : Moment) :
    ConnectionCall Remote Listener → List Failure
  | .acquire => surfaced (connection.acquire now).1
  | .pollFailure => connection.pollFailure.1.toList
  | _ => []

def timesOut (connection : Connection Remote Listener) (now : Moment) :
    ConnectionCall Remote Listener → List Span
  | .acquire => timedOut (connection.acquire now).1
  | _ => []

/-! ## One call -/

/-- What holds of the failures that wait, whatever was done to the connection. -/
structure KeepsFailures (connection : Connection Remote Listener) : Prop where
  capacity : connection.watcher.failures.capacity = 10
  within : connection.watcher.failures.pending.length ≤ 10
  ofExpiry : ∀ failure ∈ connection.watcher.failures.pending,
    ∃ source, failure = .sessionExpired source

/-- What becomes of the failures that wait and of the counters. -/
structure Settles (connection after : Connection Remote Listener) (handed queued : List Failure)
    (expired surfaced timedOut : Nat) : Prop where
  capacity : after.watcher.failures.capacity = connection.watcher.failures.capacity
  passes : FailureQueue.Passes 10 connection.watcher.failures.pending handed queued
    after.watcher.failures.pending
  sessionExpired : after.counters.sessionExpired.value =
    connection.counters.sessionExpired.value + expired
  backgroundExceptions : after.counters.backgroundExceptions.value =
    connection.counters.backgroundExceptions.value + surfaced
  connectionsTimedOut : after.counters.connectionsTimedOut.value =
    connection.counters.connectionsTimedOut.value + timedOut

omit [Transport Remote] in
theorem Settles.of_kept (failures : after.watcher.failures = connection.watcher.failures)
    (counted : after.readCounters.1 = connection.readCounters.1) :
    connection.Settles after [] [] 0 0 0 := by
  simp only [readCounters, Counters.read, List.cons.injEq, and_true] at counted
  obtain ⟨backgroundExceptions, connectionsTimedOut, sessionExpired⟩ := counted
  exact
    { capacity := congrArg FailureQueue.capacity failures
      passes := by
        rw [failures]
        exact .idle
      sessionExpired, backgroundExceptions, connectionsTimedOut }

/-- A failure that waited tells of an expiry, which sets it apart from every other refusal. -/
theorem KeepsFailures.settles_acquire (keeps : connection.KeepsFailures) (now : Moment) :
    connection.Settles (connection.acquire now).2 (surfaced (connection.acquire now).1) [] 0
      (surfaced (connection.acquire now).1).length
      (timedOut (connection.acquire now).1).length := by
  have acquired := connection.acquires now
  generalize connection.acquire now = answer at acquired ⊢
  obtain ⟨result, after⟩ := answer
  cases acquired with
  | @failed failure rest waits =>
      obtain ⟨source, rfl⟩ := keeps.ofExpiry failure (by simp [waits])
      refine ⟨rfl, ?_, rfl, rfl, rfl⟩
      rw [waits]
      exact .handed
  | overdue => exact ⟨rfl, .idle, rfl, rfl, rfl⟩
  | closed | held | unopened | refused | reopened => exact .of_kept rfl rfl

omit [Transport Remote] in
theorem expires_eq_nil {event : Event}
    (deaf : event.isExpiry = false ∨ connection.isClosed = true) :
    connection.expires now (.absorb event) = [] := by
  rcases deaf with otherwise | closed
  · simp [expires, otherwise]
  · simp [expires, closed]

/-- Only an expiry without a replacement adds to the failures that wait. -/
theorem KeepsFailures.settles_absorb (keeps : connection.KeepsFailures) (now : Moment)
    (event : Event) :
    connection.Settles (connection.absorb now event) [] (connection.queues now (.absorb event))
      (connection.expires now (.absorb event)).length 0 0 := by
  have absorbed := connection.absorbs now event
  generalize connection.absorb now event = after at absorbed ⊢
  cases absorbed with
  | ignored deaf =>
      have unexpired : connection.expires now (.absorb event) = [] := by
        refine expires_eq_nil (deaf.imp_left fun isNode => ?_)
        rw [Event.isExpiry, isNode, Bool.false_and]
      rw [queues, unexpired]
      exact .of_kept rfl rfl
  | noted _ _ goesOn =>
      have unexpired : connection.expires now (.absorb event) = [] :=
        expires_eq_nil (Or.inl (by simp [Event.isExpiry, goesOn]))
      rw [queues, unexpired]
      exact .of_kept rfl rfl
  | @refused fault remote isExpiry notClosed asked =>
      have expired : connection.expires now (.absorb event) = [event] := by
        simp [expires, isExpiry, notClosed]
      have queued : connection.queues now (.absorb event) =
          [.sessionExpired (.transport fault)] := by
        rw [queues, expired, openSession_eq notClosed, asked]
        rfl
      rw [queued, expired]
      refine ⟨rfl, ?_, rfl, rfl, rfl⟩
      change FailureQueue.Passes 10 connection.watcher.failures.pending [] _
        (connection.watcher.failures.push (.sessionExpired (.transport fault))).pending
      rw [FailureQueue.push, FailureQueue.offer_eq_newest, keeps.capacity]
      exact .queued
  | @replaced session remote isExpiry notClosed asked =>
      have expired : connection.expires now (.absorb event) = [event] := by
        simp [expires, isExpiry, notClosed]
      have unqueued : connection.queues now (.absorb event) = [] := by
        rw [queues, expired, openSession_eq notClosed, asked]
        rfl
      rw [unqueued, expired]
      exact ⟨rfl, .idle, rfl, rfl, rfl⟩

omit [Transport Remote] in
theorem settles_pollFailure (connection : Connection Remote Listener) :
    connection.Settles connection.pollFailure.2 connection.pollFailure.1.toList [] 0 0 0 := by
  unfold pollFailure SessionWatcher.poll FailureQueue.poll
  cases waits : connection.watcher.failures.pending with
  | nil => exact .of_kept rfl rfl
  | cons oldest rest =>
      refine ⟨rfl, ?_, rfl, rfl, rfl⟩
      rw [waits]
      exact .handed

theorem KeepsFailures.settles (keeps : connection.KeepsFailures) (now : Moment)
    (call : ConnectionCall Remote Listener) :
    connection.Settles (connection.obey now call) (connection.hands now call)
      (connection.queues now call) (connection.expires now call).length
      (connection.surfaces now call).length (connection.timesOut now call).length := by
  cases call with
  | start =>
      obtain ⟨failures, counters, _⟩ := kept_openSession connection now
      exact .of_kept failures (congrArg (·.read.1) counters)
  | close =>
      obtain ⟨failures, counters, _⟩ := kept_close connection now
      exact .of_kept failures (congrArg (·.read.1) counters)
  | acquire => exact keeps.settles_acquire now
  | absorb event => exact keeps.settles_absorb now event
  | pollFailure => exact settles_pollFailure connection
  | readCounters | substituteObserver | listen | unlisten | turn => exact .of_kept rfl rfl

/-- What waits after a call has waited before or is queued by the call. -/
theorem KeepsFailures.obey (keeps : connection.KeepsFailures) (now : Moment)
    (call : ConnectionCall Remote Listener) : (connection.obey now call).KeepsFailures where
  capacity := (keeps.settles now call).capacity.trans keeps.capacity
  within := (keeps.settles now call).passes.length_le keeps.within
  ofExpiry := by
    intro failure member
    rcases (keeps.settles now call).passes.mem_or_mem member with waited | queued
    · exact keeps.ofExpiry failure waited
    · obtain ⟨event, _, isFailure⟩ := List.mem_flatMap.mp queued
      split at isFailure
      next source _ => exact ⟨source, List.mem_singleton.mp isFailure⟩
      next => cases isFailure

/-! ## All calls -/

/-- What has become of everything by the end of some calls. -/
structure IsAccounted (connection : Connection Remote Listener)
    (calls : List (Moment × ConnectionCall Remote Listener)) : Prop where
  keeps : (connection.obeyAll calls).KeepsFailures
  settled : FailureQueue.IsSettled 10 (connection.along queues calls)
    (connection.along hands calls) (connection.obeyAll calls).watcher.failures.pending
  sessionExpired : (connection.obeyAll calls).counters.sessionExpired.value =
    connection.counters.sessionExpired.value + (connection.along expires calls).length
  backgroundExceptions : (connection.obeyAll calls).counters.backgroundExceptions.value =
    connection.counters.backgroundExceptions.value + (connection.along surfaces calls).length
  connectionsTimedOut : (connection.obeyAll calls).counters.connectionsTimedOut.value =
    connection.counters.connectionsTimedOut.value + (connection.along timesOut calls).length

theorem IsAccounted.concat {calls : List (Moment × ConnectionCall Remote Listener)}
    (accounted : connection.IsAccounted calls) (last : Moment × ConnectionCall Remote Listener) :
    connection.IsAccounted (calls ++ [last]) := by
  have settles := accounted.keeps.settles last.1 last.2
  have obeyed : connection.obeyAll (calls ++ [last]) =
      (connection.obeyAll calls).obey last.1 last.2 := obeyAll_append connection calls [last]
  constructor
  · rw [obeyed]
    exact accounted.keeps.obey last.1 last.2
  · rw [obeyed, along_concat, along_concat]
    exact accounted.settled.step settles.passes
  · rw [obeyed, along_concat, List.length_append, ← Nat.add_assoc, ← accounted.sessionExpired]
    exact settles.sessionExpired
  · rw [obeyed, along_concat, List.length_append, ← Nat.add_assoc, ← accounted.backgroundExceptions]
    exact settles.backgroundExceptions
  · rw [obeyed, along_concat, List.length_append, ← Nat.add_assoc, ← accounted.connectionsTimedOut]
    exact settles.connectionsTimedOut

omit [Transport Remote] in
theorem keepsFailures_initial (remote : Remote) (config : ConnectionConfig) (counters : Counters) :
    ({ remote, config, counters } : Connection Remote Listener).KeepsFailures :=
  ⟨rfl, Nat.zero_le _, fun _ member => absurd member List.not_mem_nil⟩

theorem isAccounted (remote : Remote) (config : ConnectionConfig) (counters : Counters)
    (calls : List (Moment × ConnectionCall Remote Listener)) :
    IsAccounted { remote, config, counters } calls := by
  induction calls using List.reverseRecOn with
  | nil =>
      exact ⟨keepsFailures_initial remote config counters, FailureQueue.isSettled_nil 10,
        rfl, rfl, rfl⟩
  | append_singleton earlier last inductionHypothesis => exact inductionHypothesis.concat last

/-- Every run ends with at most ten failures that wait, the newest of those that were queued. What
was handed out stood in the queue in this order, each at one place, and what is neither waiting nor
handed out was followed by ten newer ones. Any further call hands out the oldest one, queues one at
the end of a queue that keeps its ten newest, or does neither. Each counter has grown by what it
counts. -/
theorem failures_accounted (remote : Remote) (config : ConnectionConfig) (counters : Counters)
    (calls : List (Moment × ConnectionCall Remote Listener)) :
    let connection : Connection Remote Listener := { remote, config, counters }
    let after := connection.obeyAll calls
    (after.pendingFailures ≤ 10 ∧
      FailureQueue.IsSettled 10 (connection.along queues calls) (connection.along hands calls)
        after.watcher.failures.pending ∧
      ∀ (now : Moment) (call : ConnectionCall Remote Listener),
        FailureQueue.Passes 10 after.watcher.failures.pending (after.hands now call)
          (after.queues now call) (after.obey now call).watcher.failures.pending) ∧
    after.counters.sessionExpired.value =
      counters.sessionExpired.value + (connection.along expires calls).length ∧
    after.counters.backgroundExceptions.value =
      counters.backgroundExceptions.value + (connection.along surfaces calls).length ∧
    after.counters.connectionsTimedOut.value =
      counters.connectionsTimedOut.value + (connection.along timesOut calls).length := by
  intro connection after
  have accounted : connection.IsAccounted calls := isAccounted remote config counters calls
  refine ⟨⟨accounted.keeps.within, accounted.settled, ?_⟩, accounted.sessionExpired,
    accounted.backgroundExceptions, accounted.connectionsTimedOut⟩
  intro now call
  exact (accounted.keeps.settles now call).passes

/-- Of twelve expiries without a replacement the first two have been pushed out. -/
example :
    let refusals := List.replicate 11 (some .connectionLoss) ++ [some .sessionExpired]
    let connection : Connection ScriptedTransport Party :=
      { remote := { connects := none :: refusals } }
    let expiries := List.replicate 12 (1, .absorb (.ofSession .expired))
    let after := connection.obeyAll ((0, .start) :: expiries)
    after.pendingFailures = 10 ∧ after.counters.sessionExpired = some 12 ∧
      after.watcher.failures.pending.getLast? =
        some (.sessionExpired (.transport .sessionExpired)) := by
  decide

end Connection

end WatchedTree
