import WatchedTree.Path
import WatchedTree.Text.Quoted

/-!
What a cache fetches and keeps for a path, and whether it looks below it.
-/
namespace WatchedTree

/-- What to fetch, and keep, for one path. -/
inductive Action where
  | notStored
  | statOnly
  | statAndData
  | statDataAndChildren
  | childrenOnly
deriving DecidableEq, Repr

namespace Action

def isStored : Action → Bool
  | notStored => false
  | _ => true

def wantsStat : Action → Bool
  | statOnly | statAndData | statDataAndChildren => true
  | notStored | childrenOnly => false

def wantsData : Action → Bool
  | statAndData | statDataAndChildren => true
  | notStored | statOnly | childrenOnly => false

def wantsChildren : Action → Bool
  | statDataAndChildren | childrenOnly => true
  | notStored | statOnly | statAndData => false

def label : Action → String
  | notStored => "NotStored"
  | statOnly => "StatOnly"
  | statAndData => "StatAndData"
  | statDataAndChildren => "StatDataAndChildren"
  | childrenOnly => "ChildrenOnly"

def all : List Action := [notStored, statOnly, statAndData, statDataAndChildren, childrenOnly]

def ofLabel? (label : String) : Option Action := all.find? fun action => action.label == label

end Action

/-- A rule of a selector by rules: what holds for exactly this path. -/
structure SelectorRule where
  path : Path
  action : Action
  traverse : Bool
deriving DecidableEq, Repr

namespace SelectorRule

def describe (rule : SelectorRule) : Text :=
  Text.tuple [Text.quoted rule.path, rule.action.label.toList, Text.ofBool rule.traverse]

end SelectorRule

/-- The shape of a cached subtree. -/
inductive Selector where
  /-- The whole subtree, with one action everywhere. -/
  | uniform (action : Action)
  /-- Down to a depth below the base; nothing deeper is listed. -/
  | maxDepth (depth : Nat) (action : Action)
  /-- Of the user's making: how it is printed, and what it says of a base and a path. -/
  | custom (label : Text) (choose : Path → Path → Action × Bool)

namespace Selector

/-- The stock selectors by name. -/
def stock? : String → Option Selector
  | "stat_and_data" => some (uniform .statAndData)
  | "stat_only" => some (uniform .statOnly)
  | "children_only" => some (uniform .childrenOnly)
  | _ => none

/-- The first rule of a path counts, else the fallback. -/
def byRule (rules : List SelectorRule) (fallback : Action × Bool) : Selector :=
  custom
    (Text.record "RuleSelector"
      [Text.field "rules" (Text.bracketed (rules.map SelectorRule.describe)),
        Text.field "default" (Text.tuple [fallback.1.label.toList, Text.ofBool fallback.2])])
    fun _ path => match rules.find? fun rule => rule.path = path with
      | none => fallback
      | some rule => (rule.action, rule.traverse)

/-- Whether the children of a path are listed, watched and cached. -/
def traverses (selector : Selector) (base path : Path) : Bool :=
  match selector with
  | uniform _ => true
  | maxDepth depth _ =>
    match Path.depthBelow base path with
    | none => false
    | some level => level < depth
  | custom _ choose => (choose base path).2

/-- What is kept of a path. -/
def actionAt (selector : Selector) (base path : Path) : Action :=
  match selector with
  | uniform action => action
  | maxDepth depth action =>
    match Path.depthBelow base path with
    | none => .notStored
    | some level => if level ≤ depth then action else .notStored
  | custom _ choose => (choose base path).1

def describe : Selector → Text
  | uniform action => Text.applied "UniformSelector" action.label.toList
  | maxDepth depth action =>
    Text.record "MaxDepthSelector"
      [Text.field "depth" (Text.ofNat depth), Text.field "action" action.label.toList]
  | custom label _ => label

end Selector

/-- What a cache holds: one node, or the nodes below the base as the selector shapes them. -/
inductive CacheMode where
  | singleNode (action : Action)
  | subtree (selector : Selector)

namespace CacheMode

/-- The action for a path and whether its children are fetched; `none` outside the cache. In a
subtree the base itself is never kept. -/
def scope (mode : CacheMode) (base path : Path) : Option (Action × Bool) :=
  match mode with
  | singleNode action => if path = base then some (action, false) else none
  | subtree selector =>
    if path = base then some (.notStored, selector.traverses base path)
    else if Path.isBelow base path then
      some (selector.actionAt base path, selector.traverses base path)
    else none

def describe : CacheMode → Text
  | singleNode action => Text.applied "SingleNode" action.label.toList
  | subtree selector => Text.applied "Subtree" selector.describe

end CacheMode

end WatchedTree
