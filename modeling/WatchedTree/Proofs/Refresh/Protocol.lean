import WatchedTree.Proofs.History
import WatchedTree.Refresh.Pact

/-!
# The protocol of a refresher and its token

A refresher and the token of its caller are driven from two sides, in any order. What the observer
is told, what becomes of the completion and what the token reads are read off the calls made before:
the first decrement that leaves the count at or below zero, the first completion, and what came
after it.
-/
namespace WatchedTree

/-! ## Channels -/

/-- What is read from a slot, unless the token was cancelled. -/
def Slot.answer : Slot → Option Outcome
  | waiting => none
  | resolved outcome => some outcome
  | severed => some (.error .closed)

namespace Channel

theorem read_fst (channel : Channel) :
    channel.read.1 =
      if channel.cancelled then some (.error .refreshCancelled) else channel.slot.answer := by
  unfold read
  split
  · rfl
  · cases channel.slot <;> rfl

end Channel

/-! ## Calls -/

/-- One call on a refresher, on the token of its caller, or on the completion that joins them. -/
inductive PactCall where
  | increment
  | decrement
  | cancel
  /-- The completion is used, whoever holds it. -/
  | complete (outcome : Outcome)
  | read
  /-- The completion goes away; a refresher that holds it goes with it. -/
  | dropCompletion
deriving DecidableEq

namespace PactCall

variable {holder : CompletionHolder} {outcome other : Outcome} {before calls : List PactCall}
  {call : PactCall}

/-- The count of a refresher after some calls. -/
def balance (calls : List PactCall) : Int := calls.count increment - calls.count decrement

/-- A refresher counts down and leaves the count at or below zero. -/
structure Empties (holder : CompletionHolder) (before : List PactCall) (call : PactCall) :
    Prop where
  isDecrement : call = decrement
  atMostZero : balance (before ++ [decrement]) ≤ 0
  present : holder = .refresher → dropCompletion ∉ before

/-- The completion is used with an outcome: by a call of its own, or by the refresher that holds it,
once, when it first has nothing left to count and is not cancelled. -/
structure Completes (holder : CompletionHolder) (outcome : Outcome) (before : List PactCall)
    (call : PactCall) : Prop where
  held : holder ≠ .nobody
  present : dropCompletion ∉ before
  how : call = complete outcome ∨
    holder = .refresher ∧ cancel ∉ before ∧ outcome = .ok () ∧
      Empties holder before call ∧ NoneIn (Empties holder) before

/-- The completion is used. -/
def IsCompletion (holder : CompletionHolder) (before : List PactCall) (call : PactCall) : Prop :=
  ∃ outcome, Completes holder outcome before call

theorem Completes.unique (completes : Completes holder outcome before call)
    (others : Completes holder other before call) : outcome = other := by
  rcases completes.how with rfl | ⟨_, _, rfl, empties, _⟩
  · rcases others.how with same | ⟨_, _, _, empties, _⟩
    · cases same
      rfl
    · cases empties.isDecrement
  · rcases others.how with rfl | ⟨_, _, rfl, _, _⟩
    · cases empties.isDecrement
    · rfl

theorem balance_concat (calls : List PactCall) (call : PactCall) :
    balance (calls ++ [call]) =
      balance calls + match call with
        | increment => 1
        | decrement => -1
        | _ => 0 := by
  cases call <;> simp [balance] <;> omega

end PactCall

namespace Pact

open PactCall

/-- A new refresher whose completion has this holder; without one there is no token either. -/
def start (path : Path) (holder : CompletionHolder) : Pact :=
  { refresher := some { path }, hasToken := holder != .nobody, holder }

/-- The pact after a call. -/
def obey (pact : Pact) : PactCall → Pact
  | .increment => pact.increment
  | .decrement => pact.decrement.2
  | .cancel => pact.cancel
  | .complete outcome =>
    if pact.holder = .refresher then { pact with channel := pact.channel.complete outcome }
    else pact.complete outcome
  | .read => pact.read.2
  | .dropCompletion =>
    if pact.holder = .refresher then pact.dropRefresher.2 else pact.dropCompletion.2

/-- What the observer is told in a call. -/
def told (pact : Pact) : PactCall → List RefreshNotice
  | .decrement => pact.decrement.1.toList
  | _ => []

/-- The pact after some calls, one after the other. -/
def run (pact : Pact) (calls : List PactCall) : Pact := calls.foldl obey pact

/-- All that the observer is told over some calls. -/
def notices (pact : Pact) : List PactCall → List RefreshNotice
  | [] => []
  | call :: calls => pact.told call ++ (pact.obey call).notices calls

theorem read_fst (pact : Pact) :
    pact.read.1 = if pact.hasToken then some pact.channel.read.1 else none := by
  unfold read
  split <;> rfl

theorem run_concat (pact : Pact) (calls : List PactCall) (call : PactCall) :
    pact.run (calls ++ [call]) = (pact.run calls).obey call := by
  rw [run, List.foldl_append]
  rfl

theorem notices_concat (pact : Pact) (calls : List PactCall) (call : PactCall) :
    pact.notices (calls ++ [call]) = pact.notices calls ++ (pact.run calls).told call := by
  induction calls generalizing pact with
  | nil => simp [notices, run]
  | cons first others inductionHypothesis =>
      rw [List.cons_append, notices, inductionHypothesis, notices, List.append_assoc]
      rfl

/-! ## What a call changes -/

variable {pact : Pact} {path : Path} {holder : CompletionHolder} {outcome : Outcome}
  {calls before after : List PactCall} {call : PactCall} {refresher : Refresher}

/-- Whether a decrement would make the refresher fire. -/
def isDue (pact : Pact) : Bool := pact.refresher.any fun refresher => refresher.decrement.1

theorem decrement_fst (pact : Pact) :
    pact.decrement.1 = (pact.refresher.filter fun refresher => refresher.decrement.1).map
      fun refresher => { path := refresher.path, cancelled := pact.seenCancelled } := by
  unfold decrement
  cases pact.refresher with
  | none => rfl
  | some refresher =>
      by_cases due : refresher.decrement.1 = true
      · simp only [due, if_true, fire, Option.filter_some, Option.map_some]
        split <;> rfl
      · simp [due, Option.filter_some]

/-- A refresher that fires uses the completion if it holds it and is not cancelled. -/
theorem decrement_snd (pact : Pact) :
    pact.decrement.2 =
      { pact with
        refresher := pact.refresher.map fun refresher => refresher.decrement.2
        channel :=
          if pact.isDue = true ∧ pact.holder = .refresher ∧ pact.channel.cancelled = false
          then pact.channel.complete (.ok ()) else pact.channel } := by
  obtain ⟨refresher, ⟨slot, cancelled⟩, hasToken, holder⟩ := pact
  unfold decrement isDue
  cases refresher with
  | none => simp
  | some refresher =>
      by_cases due : refresher.decrement.1 = true
      · simp only [due, if_true, fire, seenCancelled, Option.any_some, Option.map_some]
        cases holder <;> cases cancelled <;> rfl
      · simp [due]

/-- The refresher after a call. -/
def counted (pact : Pact) : PactCall → Option Refresher
  | .increment => pact.refresher.map Refresher.increment
  | .decrement => pact.refresher.map fun refresher => refresher.decrement.2
  | .dropCompletion => if pact.holder = .refresher then none else pact.refresher
  | .cancel | .complete _ | .read => pact.refresher

/-- The channel after a call. -/
def served (pact : Pact) : PactCall → Channel
  | .increment => pact.channel
  | .decrement =>
    if pact.isDue = true ∧ pact.holder = .refresher ∧ pact.channel.cancelled = false
    then pact.channel.complete (.ok ()) else pact.channel
  | .cancel => if pact.hasToken then pact.channel.cancel else pact.channel
  | .complete outcome =>
    if pact.holder = .nobody then pact.channel else pact.channel.complete outcome
  | .read => if pact.hasToken then pact.channel.read.2 else pact.channel
  | .dropCompletion => if pact.holder = .nobody then pact.channel else pact.channel.sever

/-- A call changes each part of a pact by itself. -/
theorem obey_eq (pact : Pact) (call : PactCall) :
    pact.obey call =
      { refresher := pact.counted call
        channel := pact.served call
        hasToken := pact.hasToken
        holder := if call = .dropCompletion then .nobody else pact.holder } := by
  cases call with
  | increment => rfl
  | decrement => exact decrement_snd pact
  | cancel | complete outcome | read | dropCompletion =>
      obtain ⟨refresher, channel, hasToken, holder⟩ := pact
      cases hasToken <;> cases holder <;> rfl

/-! ## The refresher -/

/-- The parts of a pact that the calls before determine, the outcome left out. -/
structure Accords (path : Path) (holder : CompletionHolder) (calls : List PactCall)
    (pact : Pact) : Prop where
  gone : pact.refresher = none ↔ holder = .refresher ∧ .dropCompletion ∈ calls
  counts : ∀ refresher, pact.refresher = some refresher →
    refresher.path = path ∧ refresher.count = balance calls ∧
      (refresher.fired = false ↔ NoneIn (Empties holder) calls)
  hasToken : pact.hasToken = (holder != .nobody)
  held : pact.holder = if .dropCompletion ∈ calls then .nobody else holder
  cancelled : pact.channel.cancelled = true ↔ holder ≠ .nobody ∧ .cancel ∈ calls

theorem accords_start (path : Path) (holder : CompletionHolder) :
    Accords path holder [] (start path holder) where
  gone := by simp [start]
  counts := by
    intro refresher found
    cases found
    exact ⟨rfl, rfl, fun _ => noneIn_nil _, fun _ => rfl⟩
  hasToken := rfl
  held := rfl
  cancelled := by simp [start]

theorem not_empties (other : call ≠ .decrement) : ¬Empties holder calls call :=
  fun empties => other empties.isDecrement

namespace Accords

variable (accords : Accords path holder calls pact)

include accords

theorem isDue_iff (found : pact.refresher = some refresher) :
    refresher.decrement.1 = true ↔
      Empties holder calls .decrement ∧ NoneIn (Empties holder) calls := by
  obtain ⟨_, count, fired⟩ := accords.counts refresher found
  have present : holder = .refresher → .dropCompletion ∉ calls := by
    intro isHolder dropped
    rw [accords.gone.mpr ⟨isHolder, dropped⟩] at found
    cases found
  have balanced := balance_concat calls .decrement
  simp only at balanced
  rw [Refresher.decrement, Bool.and_eq_true, decide_eq_true_eq, Bool.not_eq_true', fired, count]
  constructor
  · rintro ⟨atMost, none⟩
    exact ⟨⟨rfl, by omega, present⟩, none⟩
  · rintro ⟨empties, none⟩
    exact ⟨by have := empties.atMostZero; omega, none⟩

theorem counts_obey : ∀ refresher, pact.counted call = some refresher →
    refresher.path = path ∧ refresher.count = balance (calls ++ [call]) ∧
      (refresher.fired = false ↔ NoneIn (Empties holder) (calls ++ [call])) := by
  intro refresher found
  have balanced := balance_concat calls call
  have idle : call ≠ .decrement →
      (NoneIn (Empties holder) (calls ++ [call]) ↔ NoneIn (Empties holder) calls) :=
    fun other => by rw [noneIn_concat, and_iff_left (not_empties other)]
  cases call with
  | increment =>
      obtain ⟨old, present, rfl⟩ := Option.map_eq_some_iff.mp found
      obtain ⟨samePath, count, fired⟩ := accords.counts old present
      rw [idle (by simp), balanced, ← count, ← fired]
      exact ⟨samePath, rfl, Iff.rfl⟩
  | decrement =>
      obtain ⟨old, present, rfl⟩ := Option.map_eq_some_iff.mp found
      obtain ⟨samePath, count, fired⟩ := accords.counts old present
      have due := accords.isDue_iff present
      rw [← fired] at due
      rw [balanced, ← count, noneIn_concat, ← fired]
      refine ⟨samePath, rfl, ?_⟩
      change (old.fired || old.decrement.1) = false ↔ _
      rw [Bool.or_eq_false_iff, ← Bool.not_eq_true old.decrement.1, due]
      exact and_congr_right fun unfired => by rw [and_iff_left unfired]
  | dropCompletion =>
      have present : pact.refresher = some refresher := by
        change (if pact.holder = .refresher then none else pact.refresher) = _ at found
        split at found
        · cases found
        · exact found
      obtain ⟨samePath, count, fired⟩ := accords.counts refresher present
      rw [idle (by simp), balanced, count, fired]
      exact ⟨samePath, (Int.add_zero _).symm, Iff.rfl⟩
  | cancel | complete outcome | read =>
      obtain ⟨samePath, count, fired⟩ := accords.counts refresher found
      rw [idle (by simp), balanced, count, fired]
      exact ⟨samePath, (Int.add_zero _).symm, Iff.rfl⟩

theorem gone_obey :
    pact.counted call = none ↔ holder = .refresher ∧ .dropCompletion ∈ calls ++ [call] := by
  have gone := accords.gone
  have held := accords.held
  cases call with
  | increment | decrement => simpa [counted] using gone
  | cancel | complete outcome | read => simpa [counted] using gone
  | dropCompletion =>
      change (if pact.holder = .refresher then none else pact.refresher) = none ↔ _
      by_cases dropped : .dropCompletion ∈ calls
      · rw [if_pos dropped] at held
        simp [held, gone, dropped]
      · rw [if_neg dropped] at held
        simp only [dropped, and_false, iff_false] at gone
        simp [held, gone]

theorem cancelled_obey :
    (pact.served call).cancelled = true ↔ holder ≠ .nobody ∧ .cancel ∈ calls ++ [call] := by
  have cancelled := accords.cancelled
  have hasToken := accords.hasToken
  cases call with
  | cancel =>
      rw [served, hasToken]
      cases holder <;> simp_all [Channel.cancel]
  | increment => simpa [served] using cancelled
  | decrement | complete outcome | read | dropCompletion =>
      rw [served]
      split <;> simpa using cancelled

theorem obey (call : PactCall) : Accords path holder (calls ++ [call]) (pact.obey call) := by
  rw [obey_eq]
  refine ⟨accords.gone_obey, accords.counts_obey, accords.hasToken, ?_, accords.cancelled_obey⟩
  simp only [List.mem_append, List.mem_singleton, accords.held]
  by_cases isDrop : call = .dropCompletion
  · simp [isDrop]
  · simp [isDrop, Ne.symm isDrop]

end Accords

theorem accords_run (path : Path) (holder : CompletionHolder) (calls : List PactCall) :
    Accords path holder calls ((start path holder).run calls) := by
  induction calls using List.reverseRecOn with
  | nil => exact accords_start path holder
  | append_singleton calls call inductionHypothesis =>
      rw [run_concat]
      exact inductionHypothesis.obey call

/-! ## The observer -/

namespace Accords

variable (accords : Accords path holder calls pact)

include accords

/-- The observer is told by the decrement that first leaves nothing to count, and by no other
call. -/
theorem told_eq_nil (notFirst : ¬(Empties holder calls call ∧ NoneIn (Empties holder) calls)) :
    pact.told call = [] := by
  cases call with
  | increment | cancel | complete outcome | read | dropCompletion => rfl
  | decrement =>
      rw [told, decrement_fst]
      cases found : pact.refresher with
      | none => rfl
      | some refresher =>
          have waits : ¬refresher.decrement.1 = true :=
            fun due => notFirst ((accords.isDue_iff found).mp due)
          rw [Option.filter_some, if_neg waits]
          rfl

theorem exists_refresher (empties : Empties holder calls call) :
    ∃ refresher, pact.refresher = some refresher := by
  rw [← Option.ne_none_iff_exists', ne_eq, accords.gone]
  exact fun gone => empties.present gone.1 gone.2

theorem seenCancelled_eq (empties : Empties holder calls call) :
    pact.seenCancelled = decide (holder = .refresher ∧ .cancel ∈ calls) := by
  have held := accords.held
  have cancelled := accords.cancelled
  have present := empties.present
  rw [seenCancelled, held, Bool.eq_iff_iff, Bool.and_eq_true, cancelled]
  cases holder <;> by_cases dropped : .dropCompletion ∈ calls <;> simp_all

theorem told_eq (empties : Empties holder calls call) (first : NoneIn (Empties holder) calls) :
    pact.told call =
      [{ path, cancelled := decide (holder = .refresher ∧ .cancel ∈ calls) }] := by
  obtain ⟨refresher, found⟩ := accords.exists_refresher empties
  obtain ⟨samePath, _, _⟩ := accords.counts refresher found
  have seen := accords.seenCancelled_eq empties
  obtain rfl := empties.isDecrement
  have due := (accords.isDue_iff found).mpr ⟨empties, first⟩
  rw [told, decrement_fst, found, Option.filter_some, if_pos due, Option.map_some, samePath, seen]
  rfl

end Accords

/-! ## The completion -/

/-- What the token's side may still receive after some calls, if the completion has a holder. -/
inductive SlotAfter (holder : CompletionHolder) (calls : List PactCall) : Slot → Prop
  | waiting (none : NoneIn (IsCompletion holder) calls) (present : .dropCompletion ∉ calls) :
      SlotAfter holder calls .waiting
  | dropped (none : NoneIn (IsCompletion holder) calls) (gone : .dropCompletion ∈ calls) :
      SlotAfter holder calls .severed
  | resolved {before after : List PactCall} {call : PactCall} {outcome : Outcome}
      (first : FirstIn (IsCompletion holder) calls before call after)
      (completes : Completes holder outcome before call)
      (unread : .cancel ∈ calls ∨ .read ∉ after) : SlotAfter holder calls (.resolved outcome)
  | taken {before after : List PactCall} {call : PactCall}
      (first : FirstIn (IsCompletion holder) calls before call after) (read : .read ∈ after) :
      SlotAfter holder calls .severed

theorem isCompletion_cases (isCompletion : IsCompletion holder calls call) :
    (∃ outcome, call = .complete outcome) ∨ call = .decrement := by
  obtain ⟨outcome, completes⟩ := isCompletion
  rcases completes.how with same | ⟨_, _, _, empties, _⟩
  · exact Or.inl ⟨outcome, same⟩
  · exact Or.inr empties.isDecrement

theorem not_isCompletion (notComplete : ∀ outcome, call ≠ .complete outcome)
    (notDecrement : call ≠ .decrement) : ¬IsCompletion holder calls call := by
  intro isCompletion
  rcases isCompletion_cases isCompletion with ⟨outcome, same⟩ | same
  · exact notComplete outcome same
  · exact notDecrement same

theorem completes_decrement (isCompletion : IsCompletion holder calls .decrement) :
    Completes holder (.ok ()) calls .decrement := by
  obtain ⟨outcome, completes⟩ := isCompletion
  rcases completes.how with same | ⟨_, _, rfl, _, _⟩
  · cases same
  · exact completes

namespace SlotAfter

variable {slot : Slot}

/-- Nothing changes unless the completion is used or goes away, or an outcome is read. -/
theorem idle (slotAfter : SlotAfter holder calls slot)
    (notCompletion : ¬IsCompletion holder calls call)
    (notDrop : call = .dropCompletion → .dropCompletion ∈ calls)
    (unread : call = .read → .cancel ∈ calls ∨ ∀ outcome, slot ≠ .resolved outcome) :
    SlotAfter holder (calls ++ [call]) slot := by
  cases slotAfter with
  | waiting none present =>
      refine .waiting (noneIn_concat.mpr ⟨none, notCompletion⟩) fun dropped => ?_
      rcases List.mem_append.mp dropped with earlier | last
      · exact present earlier
      · exact present (notDrop (List.mem_singleton.mp last).symm)
  | dropped none gone =>
      exact .dropped (noneIn_concat.mpr ⟨none, notCompletion⟩) (List.mem_append_left _ gone)
  | resolved first completes kept =>
      refine .resolved (first.concat call) completes ?_
      rcases kept with cancelled | notRead
      · exact Or.inl (List.mem_append_left _ cancelled)
      · by_cases reads : call = .read
        · rcases unread reads with cancelled | noOutcome
          · exact Or.inl (List.mem_append_left _ cancelled)
          · exact absurd rfl (noOutcome _)
        · exact Or.inr (by simp [notRead, Ne.symm reads])
  | taken first read => exact .taken (first.concat call) (List.mem_append_left _ read)

theorem use (slotAfter : SlotAfter holder calls slot)
    (completes : Completes holder outcome calls call) :
    SlotAfter holder (calls ++ [call]) (if slot = .waiting then .resolved outcome else slot) := by
  have notRead : call ≠ .read := by
    rintro rfl
    rcases isCompletion_cases ⟨outcome, completes⟩ with ⟨_, same⟩ | same <;> cases same
  cases slotAfter with
  | waiting none present =>
      rw [if_pos rfl]
      exact .resolved (firstIn_last none ⟨outcome, completes⟩) completes (Or.inr (by simp))
  | dropped none gone => exact absurd gone completes.present
  | resolved first earlier kept =>
      rw [if_neg (by simp)]
      refine .resolved (first.concat call) earlier ?_
      exact kept.imp (List.mem_append_left _) fun unread => by simp [unread, Ne.symm notRead]
  | taken first read =>
      rw [if_neg (by simp)]
      exact .taken (first.concat call) (List.mem_append_left _ read)

theorem take (slotAfter : SlotAfter holder calls (.resolved outcome)) :
    SlotAfter holder (calls ++ [.read]) .severed := by
  cases slotAfter with
  | resolved first _ _ => exact .taken (first.concat .read) (by simp)

theorem drop (slotAfter : SlotAfter holder calls slot) :
    SlotAfter holder (calls ++ [.dropCompletion])
      (if slot = .waiting then .severed else slot) := by
  have notCompletion : ¬IsCompletion holder calls .dropCompletion :=
    not_isCompletion (by simp) (by simp)
  cases slotAfter with
  | waiting none _ =>
      rw [if_pos rfl]
      exact .dropped (noneIn_concat.mpr ⟨none, notCompletion⟩) (by simp)
  | dropped none gone =>
      rw [if_neg (by simp)]
      exact .dropped (noneIn_concat.mpr ⟨none, notCompletion⟩) (List.mem_append_left _ gone)
  | resolved first completes kept =>
      rw [if_neg (by simp)]
      refine .resolved (first.concat _) completes ?_
      exact kept.imp (List.mem_append_left _) fun unread => by simp [unread]
  | taken first read =>
      rw [if_neg (by simp)]
      exact .taken (first.concat _) (List.mem_append_left _ read)

theorem eq_waiting_iff (slotAfter : SlotAfter holder calls slot)
    (present : .dropCompletion ∉ calls) :
    slot = .waiting ↔ NoneIn (IsCompletion holder) calls := by
  cases slotAfter with
  | waiting none _ => exact iff_of_true rfl none
  | dropped _ gone => exact absurd gone present
  | resolved first _ _ => exact iff_of_false (by simp) first.not_noneIn
  | taken first _ => exact iff_of_false (by simp) first.not_noneIn

theorem complete_eq {channel : Channel} (slotAfter : SlotAfter holder calls channel.slot)
    (present : .dropCompletion ∉ calls) (spent : ¬NoneIn (IsCompletion holder) calls)
    (outcome : Outcome) : channel.complete outcome = channel :=
  Channel.complete_of_not_waiting (mt (slotAfter.eq_waiting_iff present).mp spent) outcome

theorem eq_severed (slotAfter : SlotAfter holder calls slot)
    (none : NoneIn (IsCompletion holder) calls) (gone : .dropCompletion ∈ calls) :
    slot = .severed := by
  cases slotAfter with
  | waiting _ present => exact absurd gone present
  | resolved first _ _ => exact absurd none first.not_noneIn
  | dropped | taken => rfl

/-- The outcome of the first completion is there until it is read. -/
theorem eq_of_firstIn (slotAfter : SlotAfter holder calls slot) (alive : .cancel ∉ calls)
    (isFirst : FirstIn (IsCompletion holder) calls before call after)
    (completes : Completes holder outcome before call) :
    slot = if .read ∈ after then .severed else .resolved outcome := by
  cases slotAfter with
  | waiting none _ | dropped none _ => exact absurd none isFirst.not_noneIn
  | resolved first others unread =>
      obtain ⟨rfl, rfl, rfl⟩ := isFirst.unique first
      obtain rfl := completes.unique others
      rw [if_neg (unread.resolve_left alive)]
  | taken first read =>
      obtain ⟨rfl, rfl, rfl⟩ := isFirst.unique first
      rw [if_pos read]

end SlotAfter

namespace Accords

variable (accords : Accords path holder calls pact)

include accords

/-- When the refresher uses the completion. -/
theorem uses_iff : (pact.isDue = true ∧ pact.holder = .refresher ∧ pact.channel.cancelled = false) ↔
    Completes holder (.ok ()) calls .decrement := by
  have held := accords.held
  have cancelled := accords.cancelled
  constructor
  · rintro ⟨due, holds, alive⟩
    obtain ⟨refresher, found, fires⟩ := (Option.any_eq_true _ _).mp due
    obtain ⟨empties, first⟩ := (accords.isDue_iff found).mp fires
    by_cases dropped : .dropCompletion ∈ calls
    · rw [if_pos dropped, holds] at held
      cases held
    · rw [if_neg dropped, holds] at held
      subst held
      refine ⟨by simp, dropped, Or.inr ⟨rfl, fun isCancelled => ?_, rfl, empties, first⟩⟩
      rw [cancelled.mpr ⟨by simp, isCancelled⟩] at alive
      cases alive
  · intro completes
    rcases completes.how with same | ⟨rfl, alive, _, empties, first⟩
    · cases same
    · obtain ⟨refresher, found⟩ := accords.exists_refresher empties
      refine ⟨?_, held.trans (if_neg completes.present), ?_⟩
      · rw [isDue, found]
        exact (accords.isDue_iff found).mpr ⟨empties, first⟩
      · rw [← Bool.not_eq_true, cancelled]
        exact fun both => alive both.2

theorem slot_obey (someone : holder ≠ .nobody)
    (slotAfter : SlotAfter holder calls pact.channel.slot) (call : PactCall) :
    SlotAfter holder (calls ++ [call]) (pact.obey call).channel.slot := by
  rw [obey_eq]
  change SlotAfter _ _ (pact.served call).slot
  have held := accords.held
  have tokened : pact.hasToken = true := by simp [accords.hasToken, someone]
  cases call with
  | increment => exact slotAfter.idle (not_isCompletion (by simp) (by simp)) (by simp) (by simp)
  | cancel =>
      rw [served, if_pos tokened]
      exact slotAfter.idle (not_isCompletion (by simp) (by simp)) (by simp) (by simp)
  | decrement =>
      rw [served]
      split
      next uses =>
        rw [Channel.slot_complete]
        exact slotAfter.use (accords.uses_iff.mp uses)
      next unused =>
        refine slotAfter.idle (fun isCompletion => unused ?_) (by simp) (by simp)
        exact accords.uses_iff.mpr (completes_decrement isCompletion)
  | complete outcome =>
      rw [served, held]
      by_cases dropped : .dropCompletion ∈ calls
      · rw [if_pos dropped, if_pos rfl]
        refine slotAfter.idle ?_ (by simp) (by simp)
        rintro ⟨_, completes⟩
        exact completes.present dropped
      · rw [if_neg dropped, if_neg someone, Channel.slot_complete]
        exact slotAfter.use ⟨someone, dropped, Or.inl rfl⟩
  | read =>
      rw [served, if_pos tokened]
      have silent : ¬IsCompletion holder calls .read := not_isCompletion (by simp) (by simp)
      by_cases hidden : pact.channel.cancelled = true
      · rw [Channel.read, if_pos hidden]
        exact slotAfter.idle silent (by simp) fun _ => Or.inl (accords.cancelled.mp hidden).2
      · rw [Channel.read, if_neg hidden]
        cases slot : pact.channel.slot with
        | waiting | severed =>
            exact slotAfter.idle silent (by simp) fun _ => Or.inr (by simp [slot])
        | resolved outcome =>
            rw [slot] at slotAfter
            exact slotAfter.take
  | dropCompletion =>
      rw [served, held]
      by_cases dropped : .dropCompletion ∈ calls
      · rw [if_pos dropped, if_pos rfl]
        exact slotAfter.idle (not_isCompletion (by simp) (by simp)) (fun _ => dropped) (by simp)
      · rw [if_neg dropped, if_neg someone, Channel.slot_sever]
        exact slotAfter.drop

end Accords

theorem slotAfter_run (path : Path) (someone : holder ≠ .nobody) (calls : List PactCall) :
    SlotAfter holder calls ((start path holder).run calls).channel.slot := by
  induction calls using List.reverseRecOn with
  | nil => exact .waiting (noneIn_nil _) (by simp)
  | append_singleton calls call inductionHypothesis =>
      rw [run_concat]
      exact (accords_run path holder calls).slot_obey someone inductionHypothesis call

/-! ## The protocol -/

/-- What the token reads after some calls. -/
structure Answers (holder : CompletionHolder) (calls : List PactCall) (answer : Option Outcome) :
    Prop where
  cancelled : .cancel ∈ calls → answer = some (.error .refreshCancelled)
  pending : .cancel ∉ calls → NoneIn (IsCompletion holder) calls → .dropCompletion ∉ calls →
    answer = none
  dropped : .cancel ∉ calls → NoneIn (IsCompletion holder) calls → .dropCompletion ∈ calls →
    answer = some (.error .closed)
  /-- The outcome of the first completion is read once. -/
  first : ∀ before call after outcome, .cancel ∉ calls →
    FirstIn (IsCompletion holder) calls before call after → Completes holder outcome before call →
    answer = some (if .read ∈ after then .error .closed else outcome)

theorem answers_read {channel : Channel} (slotAfter : SlotAfter holder calls channel.slot)
    (cancelled : channel.cancelled = true ↔ .cancel ∈ calls) :
    Answers holder calls channel.read.1 := by
  have read : .cancel ∉ calls → channel.read.1 = channel.slot.answer := fun alive =>
    channel.read_fst.trans (if_neg (mt cancelled.mp alive))
  refine ⟨fun isCancelled => ?_, fun alive none present => ?_, fun alive none gone => ?_,
    fun before call after outcome alive isFirst completes => ?_⟩
  · exact channel.read_fst.trans (if_pos (cancelled.mpr isCancelled))
  · rw [read alive, (slotAfter.eq_waiting_iff present).mpr none]
    rfl
  · rw [read alive, slotAfter.eq_severed none gone]
    rfl
  · rw [read alive, slotAfter.eq_of_firstIn alive isFirst completes]
    by_cases wasRead : .read ∈ after
    · rw [if_pos wasRead, if_pos wasRead]
      rfl
    · rw [if_neg wasRead, if_neg wasRead]
      rfl

namespace Accords

variable (accords : Accords path holder calls pact)

include accords

theorem slot_obey_of_completes (slotAfter : SlotAfter holder calls pact.channel.slot)
    (completes : Completes holder outcome calls call) (none : NoneIn (IsCompletion holder) calls) :
    pact.channel.slot = .waiting ∧ (pact.obey call).channel.slot = .resolved outcome := by
  have waiting := (slotAfter.eq_waiting_iff completes.present).mpr none
  refine ⟨waiting, ?_⟩
  have uses : (pact.obey call).channel = pact.channel.complete outcome := by
    rw [obey_eq]
    rcases completes.how with rfl | ⟨_, _, rfl, empties, _⟩
    · change (if pact.holder = .nobody then _ else _) = _
      rw [if_neg]
      simp [accords.held, completes.present, completes.held]
    · obtain rfl := empties.isDecrement
      exact if_pos (accords.uses_iff.mpr completes)
  rw [uses, Channel.slot_complete, if_pos waiting]

end Accords

/-- What a refresher and its token have done over some calls, and what the next one does. -/
structure Follows (path : Path) (holder : CompletionHolder) (calls : List PactCall) : Prop where
  /-- The observer is not told before a decrement leaves the count at or below zero. -/
  untold : NoneIn (Empties holder) calls → (start path holder).notices calls = []
  /-- It is told once, at the first such decrement, whatever follows. -/
  told : ∀ before call after, FirstIn (Empties holder) calls before call after →
    (start path holder).notices calls =
      [{ path, cancelled := decide (holder = .refresher ∧ .cancel ∈ before) }]
  once : ((start path holder).notices calls).length ≤ 1
  /-- This decrement resolves a refresh that is neither cancelled nor resolved. -/
  resolves : Empties holder calls .decrement → NoneIn (Empties holder) calls →
    holder = .refresher → .cancel ∉ calls → NoneIn (IsCompletion holder) calls →
    ((start path holder).run calls).channel.slot = .waiting ∧
      ((start path holder).run (calls ++ [.decrement])).channel.slot = .resolved (.ok ())
  /-- No other decrement resolves anything. -/
  keeps : ¬Empties holder calls .decrement ∨ ¬NoneIn (Empties holder) calls ∨
      holder ≠ .refresher ∨ .cancel ∈ calls ∨ ¬NoneIn (IsCompletion holder) calls →
    ((start path holder).run (calls ++ [.decrement])).channel =
      ((start path holder).run calls).channel
  /-- The first completion resolves the channel. -/
  effective : ∀ outcome, holder ≠ .nobody → .dropCompletion ∉ calls →
    NoneIn (IsCompletion holder) calls →
    ((start path holder).run calls).channel.slot = .waiting ∧
      ((start path holder).run (calls ++ [.complete outcome])).channel.slot = .resolved outcome
  /-- No other completion does anything. -/
  ineffective : ∀ outcome,
    holder = .nobody ∨ .dropCompletion ∈ calls ∨ ¬NoneIn (IsCompletion holder) calls →
    (start path holder).run (calls ++ [.complete outcome]) = (start path holder).run calls
  answers : holder ≠ .nobody → ∃ answer,
    ((start path holder).run calls).read.1 = some answer ∧ Answers holder calls answer
  tokenless : holder = .nobody → ((start path holder).run calls).read.1 = none

theorem notices_eq_nil (path : Path) (none : NoneIn (Empties holder) calls) :
    (start path holder).notices calls = [] := by
  induction calls using List.reverseRecOn with
  | nil => rfl
  | append_singleton calls call inductionHypothesis =>
      obtain ⟨noneBefore, notLast⟩ := noneIn_concat.mp none
      rw [notices_concat, inductionHypothesis noneBefore, List.nil_append]
      exact (accords_run path holder calls).told_eq_nil fun both => notLast both.1

theorem notices_eq (path : Path) (isFirst : FirstIn (Empties holder) calls before call after) :
    (start path holder).notices calls =
      [{ path, cancelled := decide (holder = .refresher ∧ .cancel ∈ before) }] := by
  obtain ⟨rfl, holds, none⟩ := isFirst
  induction after using List.reverseRecOn with
  | nil =>
      rw [notices_concat, notices_eq_nil path none, List.nil_append]
      exact (accords_run path holder before).told_eq holds none
  | append_singleton after last inductionHypothesis =>
      have isFirst : FirstIn (Empties holder) (before ++ call :: after) before call after :=
        ⟨rfl, holds, none⟩
      rw [← List.cons_append, ← List.append_assoc, notices_concat, inductionHypothesis,
        (accords_run path holder _).told_eq_nil fun both => isFirst.not_noneIn both.2]
      rfl

theorem keeps_run (path : Path)
    (idle : ¬Empties holder calls .decrement ∨ ¬NoneIn (Empties holder) calls ∨
      holder ≠ .refresher ∨ .cancel ∈ calls ∨ ¬NoneIn (IsCompletion holder) calls) :
    ((start path holder).run (calls ++ [.decrement])).channel =
      ((start path holder).run calls).channel := by
  rw [run_concat, obey_eq]
  change (if _ then _ else _) = _
  split
  next uses =>
    have completes := (accords_run path holder calls).uses_iff.mp uses
    obtain ⟨held, alive, _, empties, first⟩ := completes.how.resolve_left (by simp)
    have spent : ¬NoneIn (IsCompletion holder) calls := by
      subst held
      simpa [empties, first, alive] using idle
    exact (slotAfter_run path completes.held calls).complete_eq completes.present spent _
  next => rfl

theorem ineffective_run (path : Path) (outcome : Outcome)
    (idle : holder = .nobody ∨ .dropCompletion ∈ calls ∨ ¬NoneIn (IsCompletion holder) calls) :
    (start path holder).run (calls ++ [.complete outcome]) = (start path holder).run calls := by
  have held := (accords_run path holder calls).held
  have kept : ((start path holder).run calls).served (.complete outcome) =
      ((start path holder).run calls).channel := by
    rw [served]
    split
    next => rfl
    next someone =>
      by_cases gone : .dropCompletion ∈ calls
      · exact absurd (held.trans (if_pos gone)) someone
      · rw [held, if_neg gone] at someone
        exact (slotAfter_run path someone calls).complete_eq gone
          ((idle.resolve_left someone).resolve_left gone) outcome
  rw [run_concat, obey_eq, kept]
  rfl

theorem follows_protocol (path : Path) (holder : CompletionHolder) (calls : List PactCall) :
    Follows path holder calls := by
  have accords := accords_run path holder calls
  have completes : Empties holder calls .decrement → NoneIn (Empties holder) calls →
      holder = .refresher → .cancel ∉ calls → Completes holder (.ok ()) calls .decrement :=
    fun empties first held alive =>
      ⟨by simp [held], empties.present held, Or.inr ⟨held, alive, rfl, empties, first⟩⟩
  exact
    { untold := notices_eq_nil path
      told := fun before call after => notices_eq path
      once := by
        rcases noneIn_or_firstIn (Empties holder) calls with none | ⟨_, _, _, isFirst⟩
        · rw [notices_eq_nil path none]
          exact Nat.zero_le 1
        · rw [notices_eq path isFirst]
          exact Nat.le_refl 1
      resolves := by
        intro empties first held alive none
        rw [run_concat]
        exact accords.slot_obey_of_completes (slotAfter_run path (by simp [held]) calls)
          (completes empties first held alive) none
      keeps := keeps_run path
      effective := by
        intro outcome someone present none
        rw [run_concat]
        exact accords.slot_obey_of_completes (slotAfter_run path someone calls)
          ⟨someone, present, Or.inl rfl⟩ none
      ineffective := ineffective_run path
      answers := by
        intro someone
        refine ⟨_, (read_fst _).trans (if_pos (by simp [accords.hasToken, someone])), ?_⟩
        refine answers_read (slotAfter_run path someone calls) ?_
        rw [accords.cancelled, and_iff_right someone]
      tokenless := by
        intro nobody
        rw [read_fst, accords.hasToken, nobody]
        rfl }

/-- Counting below zero and up again tells the observer nothing new. -/
example : (start ['/'] .refresher).notices [.decrement, .increment, .cancel, .decrement] =
    [{ path := ['/'], cancelled := false }] := by decide

end Pact

end WatchedTree
