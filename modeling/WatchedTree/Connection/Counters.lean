import WatchedTree.Text.Quoted

/-!
Counters of connection health for one connect string, and their exposition as text. A counter
exists from its first use on.
-/
namespace WatchedTree

/-- A counter; `none` before its first use. -/
abbrev Counter := Option Nat

namespace Counter

def value (counter : Counter) : Nat := counter.getD 0

def raise (counter : Counter) : Counter := some (counter.value + 1)

/-- A look at a counter is a use of it. -/
def touch (counter : Counter) : Counter := some counter.value

end Counter

structure Counters where
  /-- Queued failures handed to a caller that asked for a handle. -/
  backgroundExceptions : Counter := none
  /-- Requests for a handle that the connection timeout refused. -/
  connectionsTimedOut : Counter := none
  /-- Expirations reported by the service. -/
  sessionExpired : Counter := none
deriving DecidableEq, Repr

namespace Counters

/-- The three values; all three counters exist afterwards. -/
def read (counters : Counters) : List Nat × Counters :=
  ([counters.backgroundExceptions.value, counters.connectionsTimedOut.value,
      counters.sessionExpired.value],
    { backgroundExceptions := counters.backgroundExceptions.touch
      connectionsTimedOut := counters.connectionsTimedOut.touch
      sessionExpired := counters.sessionExpired.touch })

end Counters

/-! ## Exposition -/

/-- A counter with its name and help text. -/
structure CounterFamily where
  name : Text
  help : Text
  counter : Counter
deriving DecidableEq, Repr

namespace CounterFamily

/-- In a label value, backslashes, quotes and line ends follow a backslash. -/
def escapeLabel (value : Text) : Text :=
  value.flatMap fun letter =>
    if letter = '\\' then ['\\', '\\']
    else if letter = '"' then ['\\', '"']
    else if letter = '\n' then ['\\', 'n']
    else [letter]

/-- Help, type and sample line; nothing for a counter that was never used. -/
def expose (connectString : Text) (family : CounterFamily) : Text :=
  match family.counter with
  | none => []
  | some value =>
    "# HELP ".toList ++ family.name ++ [' '] ++ family.help ++ "\n# TYPE ".toList ++ family.name ++
      " counter\n".toList ++ family.name ++ "\x7bconnect_string=\"".toList ++
      escapeLabel connectString ++ "\"\x7d ".toList ++ Text.ofNat value ++ ['\n']

end CounterFamily

namespace Counters

/-- The families in the order of their names. -/
def families (counters : Counters) : List CounterFamily :=
  [{ name := "background_exceptions".toList
     help := "Background failures surfaced by acquire_handle".toList
     counter := counters.backgroundExceptions },
   { name := "connections_timed_out".toList
     help := "acquire_handle calls failed by the connection timeout".toList
     counter := counters.connectionsTimedOut },
   { name := "session_expired".toList
     help := "Session expirations reported by the service".toList
     counter := counters.sessionExpired }]

def expose (counters : Counters) (connectString : Text) : Text :=
  counters.families.flatMap (CounterFamily.expose connectString)

/-- Adds the names to those taken already; stops at the first that is taken. -/
def registerNames : List Text → List Text → Bool × List Text
  | [], taken => (true, taken)
  | name :: names, taken =>
    if name ∈ taken then (false, taken) else registerNames names (taken ++ [name])

/-- Registers the families where these names are taken. -/
def register (counters : Counters) (taken : List Text) : Bool × List Text :=
  registerNames (counters.families.map (·.name)) taken

end Counters

end WatchedTree
