import WatchedTree.Registry

/-!
A registry of named listeners that may change it while they are called. A call goes to the
listeners registered when it starts, whatever they do to the registry meanwhile.
-/
namespace WatchedTree

/-- What a listener does when it is called. -/
inductive PanelAct where
  | log
  /-- The call ends here. -/
  | fail
  /-- Registers a listener that only logs. -/
  | enroll
  /-- Removes the first registration of a name. -/
  | dismiss (name : Text)
  | clear
deriving DecidableEq, Repr

structure PanelListener where
  name : Text
  acts : List PanelAct
deriving DecidableEq, Repr

/-- The registry, and the number of every registration ever made, by name. -/
structure Panel where
  registry : Registry PanelListener := {}
  names : Table Text RegistrationId := []
deriving DecidableEq, Repr

namespace Panel

def add (panel : Panel) (listener : PanelListener) : RegistrationId × Panel :=
  let (id, registry) := panel.registry.add listener
  (id, { registry, names := panel.names ++ [(listener.name, id)] })

/-- Removes the first registration ever made of a name; `none` for an unknown name. -/
def remove (panel : Panel) (name : Text) : Option Bool × Panel :=
  match panel.names.get? name with
  | none => (none, panel)
  | some id =>
    let (present, registry) := panel.registry.remove id
    (some present, { panel with registry })

def clear (panel : Panel) : Panel := { panel with registry := panel.registry.clear }

/-- The listener that an enrolling listener adds. -/
def follower (listener : PanelListener) : PanelListener :=
  { name := listener.name ++ ['+'], acts := [.log] }

/-- Runs the acts of one call up to the first failure, and collects the lines logged. -/
def call (listener : PanelListener) (message : Text) :
    List PanelAct → Panel × List Text → Panel × List Text
  | [], state => state
  | .fail :: _, state => state
  | .log :: acts, (panel, lines) =>
    call listener message acts (panel, lines ++ [listener.name ++ ':' :: message])
  | .enroll :: acts, (panel, lines) =>
    call listener message acts ((panel.add (follower listener)).2, lines)
  | .dismiss name :: acts, (panel, lines) =>
    call listener message acts ((panel.remove name).2, lines)
  | .clear :: acts, (panel, lines) => call listener message acts (panel.clear, lines)

/-- Calls every listener registered now, and returns the lines logged in byte order. -/
def notify (panel : Panel) (message : Text) : List Text × Panel :=
  let (after, lines) := panel.registry.snapshot.foldl
    (fun state listener => call listener message listener.acts state) (panel, [])
  (Text.sort lines, after)

end Panel

end WatchedTree
