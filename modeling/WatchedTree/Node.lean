import WatchedTree.Path
import WatchedTree.Stat

/-!
A remote node as last fetched, and the rules by which two fetches of it compare.
-/
namespace WatchedTree

/-- A snapshot of a remote node; which parts are there depends on what was fetched. -/
structure Node where
  path : Path
  stat : Option Stat := none
  data : Option Payload := none
  children : Option (List Text) := none
deriving DecidableEq, Repr

namespace Node

def version (node : Node) : Option Int := node.stat.map (·.version)

def isEphemeral (node : Node) : Bool :=
  match node.stat with
  | none => false
  | some stat => stat.isEphemeral

/-- The node with its payload released. -/
def withoutData (node : Node) : Node := { node with data := none }

/-- Holds if the first node was read from an older remote state; a node without a stat never was. -/
def isOlderThan (mine theirs : Node) : Bool :=
  match mine.stat, theirs.stat with
  | some older, some newer => older.isOlderThan newer
  | _, _ => false

end Node

/-! ## Comparators -/

/-- A rule by which a fresh node counts as unchanged. -/
inductive Comparator where
  | dataAndType
  | versionOnly
  | statAndData
  | alwaysSame
  | neverSame
deriving DecidableEq, Repr

namespace Comparator

def label : Comparator → String
  | dataAndType => "data_and_type"
  | versionOnly => "version_only"
  | statAndData => "stat_and_data"
  | alwaysSame => "always_same"
  | neverSame => "never_same"

def all : List Comparator := [dataAndType, versionOnly, statAndData, alwaysSame, neverSame]

def ofLabel? (label : String) : Option Comparator :=
  all.find? fun comparator => comparator.label == label

def isSame : Comparator → Node → Node → Bool
  | dataAndType, old, new => old.data == new.data && old.isEphemeral == new.isEphemeral
  | versionOnly, old, new => old.version == new.version
  | statAndData, old, new => old.stat == new.stat && old.data == new.data
  | alwaysSame, _, _ => true
  | neverSame, _, _ => false

end Comparator

end WatchedTree
