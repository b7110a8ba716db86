import WatchedTree.Node
import WatchedTree.Registry

/-!
The events of a cache and their delivery. Events go into one journal; every subscriber reads the
part written while it was registered, in its own time and so many events at once. A subscriber that
was removed still reads what was written before.
-/
namespace WatchedTree

/-- What a cache tells its listeners. -/
inductive CacheEvent where
  | nodeCreated (node : Node)
  | nodeChanged (node : Node)
  /-- Carries the last known node. -/
  | nodeDeleted (node : Node)
  /-- A refresh of this path has finished. -/
  | refreshed (path : Path)
deriving DecidableEq, Repr

namespace CacheEvent

def label : CacheEvent → String
  | nodeCreated _ => "NodeCreated"
  | nodeChanged _ => "NodeChanged"
  | nodeDeleted _ => "NodeDeleted"
  | refreshed _ => "Refreshed"

def node? : CacheEvent → Option Node
  | nodeCreated node | nodeChanged node | nodeDeleted node => some node
  | refreshed _ => none

def path : CacheEvent → Path
  | nodeCreated node | nodeChanged node | nodeDeleted node => node.path
  | refreshed path => path

end CacheEvent

/-- Who is called: a label for the record of calls, and whether each call fails. -/
structure Listener where
  label : Text
  fails : Bool := false
deriving DecidableEq, Repr

structure Subscriber where
  listener : Listener
  /-- Number of journal entries it has been called with or has skipped. -/
  position : Nat
  /-- Where its registration ended; `none` while it is registered. -/
  stop : Option Nat := none
  /-- Whether a delivery is queued for it. -/
  scheduled : Bool := true
deriving DecidableEq, Repr

namespace Subscriber

def isRegistered (subscriber : Subscriber) : Bool := subscriber.stop.isNone

/-- Ends the registration at a place of the journal; an earlier end stays. A delivery notes the
end. -/
def stopAt (place : Nat) (subscriber : Subscriber) : Subscriber :=
  match subscriber.stop with
  | none => { subscriber with stop := some place, scheduled := true }
  | some _ => subscriber

/-- Holds if news wakes the subscriber: it is registered, and no delivery is queued yet. -/
def isIdle (subscriber : Subscriber) : Bool := subscriber.isRegistered && !subscriber.scheduled

/-- The place up to which it reads a journal of some length. -/
def bound (subscriber : Subscriber) (length : Nat) : Nat := subscriber.stop.getD length

end Subscriber

/-- A delivery hands over at most this many events. -/
def deliveryLimit : Nat := 128

/-- What one delivery hands over. -/
structure Handover where
  listener : Listener
  events : List CacheEvent
  /-- Whether the limit was reached, so that another delivery is due. -/
  unfinished : Bool
deriving DecidableEq, Repr

structure Feed where
  /-- Every event so far, oldest first. -/
  journal : List CacheEvent := []
  /-- Everyone ever registered. -/
  subscribers : Table RegistrationId Subscriber := []
  next : RegistrationId := 1
deriving DecidableEq, Repr

namespace Feed

/-- Registers a listener for the events to come; its first delivery is queued at once. -/
def add (feed : Feed) (listener : Listener) : RegistrationId × Feed :=
  (feed.next,
    { feed with
      subscribers :=
        feed.subscribers ++ [(feed.next, { listener, position := feed.journal.length })]
      next := feed.next + 1 })

def isRegistered (feed : Feed) (id : RegistrationId) : Bool :=
  match feed.subscribers.get? id with
  | none => false
  | some subscriber => subscriber.isRegistered

/-- The subscribers for which the next news queues a delivery. -/
def idle (feed : Feed) : List RegistrationId :=
  (feed.subscribers.filter fun pair => pair.2.isIdle).map Prod.fst

/-- Ends a registration, and says whether it was there. -/
def remove (feed : Feed) (id : RegistrationId) : Bool × Feed :=
  (feed.isRegistered id,
    { feed with
      subscribers := feed.subscribers.adjust id (Subscriber.stopAt feed.journal.length) })

/-- Ends every registration. -/
def clear (feed : Feed) : Feed :=
  { feed with
    subscribers := feed.subscribers.map fun pair =>
      (pair.1, pair.2.stopAt feed.journal.length) }

/-- Number of registered listeners. -/
def size (feed : Feed) : Nat := (feed.subscribers.filter fun pair => pair.2.isRegistered).length

def isEmpty (feed : Feed) : Bool := feed.size == 0

/-- Writes an event, and names the subscribers for which a delivery has to be queued. -/
def dispatch (feed : Feed) (event : CacheEvent) : List RegistrationId × Feed :=
  (feed.idle,
    { feed with
      journal := feed.journal ++ [event]
      subscribers := feed.subscribers.map fun pair =>
        (pair.1, if pair.2.isIdle then { pair.2 with scheduled := true } else pair.2) })

/-- The events that a subscriber has still to be called with. -/
def pending (feed : Feed) (subscriber : Subscriber) : List CacheEvent :=
  (feed.journal.take (subscriber.bound feed.journal.length)).drop subscriber.position

/-- Runs a queued delivery: the pending events of one subscriber, up to the limit. -/
def deliver (feed : Feed) (id : RegistrationId) : Option Handover × Feed :=
  match feed.subscribers.get? id with
  | none => (none, feed)
  | some subscriber =>
    let events := (feed.pending subscriber).take deliveryLimit
    let unfinished := events.length == deliveryLimit
    (some { listener := subscriber.listener, events, unfinished },
      { feed with
        subscribers := feed.subscribers.put id
          { subscriber with
            position := subscriber.position + events.length
            scheduled := unfinished } })

def describe (feed : Feed) : Text :=
  Text.record "CacheListeners" [Text.field "listeners" (Text.ofNat feed.size)]

end Feed

end WatchedTree
