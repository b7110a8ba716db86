import WatchedTree.Table
import WatchedTree.Text.Quoted

/-!
Registrations under fresh numbers. A number is given once, so removing it removes exactly the
registration that it was given for.
-/
namespace WatchedTree

/-- The number of a registration. -/
abbrev RegistrationId := Nat

/-- The present registrations in the order they were made, and the next number to give. -/
structure Registry (Item : Type) where
  entries : Table RegistrationId Item := []
  next : RegistrationId := 1
deriving DecidableEq, Repr

namespace Registry

variable {Item : Type}

def add (registry : Registry Item) (item : Item) : RegistrationId × Registry Item :=
  (registry.next,
    { entries := registry.entries ++ [(registry.next, item)], next := registry.next + 1 })

/-- Whether the registration was there, and the registry without it. -/
def remove (registry : Registry Item) (id : RegistrationId) : Bool × Registry Item :=
  (registry.entries.contains id, { registry with entries := registry.entries.erase id })

def clear (registry : Registry Item) : Registry Item := { registry with entries := [] }

def size (registry : Registry Item) : Nat := registry.entries.length

def isEmpty (registry : Registry Item) : Bool := registry.entries.isEmpty

/-- What is registered now, in the order of registration. -/
def snapshot (registry : Registry Item) : List Item := registry.entries.map Prod.snd

def describe (registry : Registry Item) : Text :=
  Text.openRecord "Listenable" [Text.field "listeners" (Text.ofNat registry.size)]

end Registry

/-- The written form of a registration's number. -/
def describeRegistration (id : RegistrationId) : Text :=
  Text.applied "ListenerId" (Text.ofNat id)

end WatchedTree
