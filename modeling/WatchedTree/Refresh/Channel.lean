import WatchedTree.Failure

/-!
The one-shot channel between a refresh and the token handed to its caller. The first completion
resolves it; the token reads the outcome once.
-/
namespace WatchedTree

/-- How a refresh ended. -/
abbrev Outcome := Except Failure Unit

instance decidableEqExcept {Fault Answer : Type} [DecidableEq Fault] [DecidableEq Answer] :
    DecidableEq (Except Fault Answer)
  | .error left, .error right => decidable_of_iff (left = right) ⟨congrArg _, Except.error.inj⟩
  | .ok left, .ok right => decidable_of_iff (left = right) ⟨congrArg _, Except.ok.inj⟩
  | .error _, .ok _ => isFalse nofun
  | .ok _, .error _ => isFalse nofun

/-- What the token's side may still receive. -/
inductive Slot where
  /-- Nothing yet. -/
  | waiting
  | resolved (outcome : Outcome)
  /-- Nothing any more: the outcome was taken, or can no longer be sent. -/
  | severed
deriving DecidableEq

structure Channel where
  slot : Slot := .waiting
  cancelled : Bool := false
deriving DecidableEq

namespace Channel

/-- Only the first completion counts. -/
def complete (channel : Channel) (outcome : Outcome) : Channel :=
  match channel.slot with
  | .waiting => { channel with slot := .resolved outcome }
  | _ => channel

/-- The completing side goes away; an outcome that was sent stays. -/
def sever (channel : Channel) : Channel :=
  match channel.slot with
  | .waiting => { channel with slot := .severed }
  | _ => channel

def cancel (channel : Channel) : Channel := { channel with cancelled := true }

/-- What the token reads: `none` while the refresh runs. Cancelling hides the outcome, and an
outcome is read once. -/
def read (channel : Channel) : Option Outcome × Channel :=
  if channel.cancelled then (some (.error .refreshCancelled), channel)
  else match channel.slot with
    | .waiting => (none, channel)
    | .resolved outcome => (some outcome, { channel with slot := .severed })
    | .severed => (some (.error .closed), channel)

/-- A channel that was resolved from the start. -/
def settled (outcome : Outcome) : Channel := { slot := .resolved outcome }

@[simp] theorem cancelled_complete (channel : Channel) (outcome : Outcome) :
    (channel.complete outcome).cancelled = channel.cancelled := by
  unfold complete
  split <;> rfl

@[simp] theorem cancelled_sever (channel : Channel) :
    channel.sever.cancelled = channel.cancelled := by
  unfold sever
  split <;> rfl

@[simp] theorem cancelled_read (channel : Channel) :
    channel.read.2.cancelled = channel.cancelled := by
  unfold read
  split
  · rfl
  · split <;> rfl

theorem slot_complete (channel : Channel) (outcome : Outcome) :
    (channel.complete outcome).slot =
      if channel.slot = .waiting then .resolved outcome else channel.slot := by
  unfold complete
  cases slot : channel.slot <;> simp [slot]

theorem slot_sever (channel : Channel) :
    channel.sever.slot = if channel.slot = .waiting then .severed else channel.slot := by
  unfold sever
  cases slot : channel.slot <;> simp [slot]

theorem complete_of_not_waiting {channel : Channel} (spent : channel.slot ≠ .waiting)
    (outcome : Outcome) : channel.complete outcome = channel := by
  unfold complete
  cases slot : channel.slot with
  | waiting => exact absurd slot spent
  | resolved | severed => rfl

end Channel

end WatchedTree
