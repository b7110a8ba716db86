import WatchedTree.Selector
import WatchedTree.Settings.Config
import WatchedTree.Store.Basic

/-!
The options of a cache, and the calls by which they are collected. `CacheBuilder.build` checks the
path, the defaults, the mode and the bounds, in this order.
-/
namespace WatchedTree

/-- Bounds taken from the defaults when the options are complete. -/
inductive Retention where
  | unbounded
  | weak
  | soft
deriving DecidableEq, Repr

/-- The options of a cache. -/
structure CacheOptions where
  basePath : Path
  mode : CacheMode
  comparator : Comparator
  eviction : EvictionPolicy
  sendRefreshEvents : Bool
  refreshOnStart : Bool
  sortChildren : Bool

/-- Options under collection. -/
structure CacheBuilder where
  path : Path
  config : CacheConfig := {}
  retention : Retention := .unbounded
  eviction : EvictionPolicy := {}
  sendRefreshEvents : Bool := true
  refreshOnStart : Bool := true
  sortChildren : Bool := true
  comparator : Comparator := .dataAndType
  selector : Option Selector := none
  singleNode : Option Action := none

/-- One call on a builder. -/
inductive BuilderCall where
  | config (config : CacheConfig)
  | weakValues
  | softValues
  | boundedBy (maxEntries : Nat)
  | expireAfterWrite (span : Span)
  | expireAfterAccess (span : Span)
  | sendingRefreshEvents (enabled : Bool)
  | refreshingOnStart (enabled : Bool)
  | sortingChildren (enabled : Bool)
  | comparator (comparator : Comparator)
  | selector (selector : Selector)
  | singleNode (action : Action)

namespace CacheBuilder

/-- Applies one call. The defaults overwrite the three flags; single-node mode forgets a selector
given before. -/
def apply (builder : CacheBuilder) : BuilderCall → CacheBuilder
  | .config config =>
    { builder with
      config
      sendRefreshEvents := config.sendRefreshEvents
      refreshOnStart := config.refreshOnStart
      sortChildren := config.sortChildren }
  | .weakValues => { builder with retention := .weak }
  | .softValues => { builder with retention := .soft }
  | .boundedBy maxEntries =>
    { builder with eviction := { builder.eviction with maxEntries := some maxEntries } }
  | .expireAfterWrite span =>
    { builder with eviction := { builder.eviction with expireAfterWrite := some span } }
  | .expireAfterAccess span =>
    { builder with eviction := { builder.eviction with expireAfterAccess := some span } }
  | .sendingRefreshEvents enabled => { builder with sendRefreshEvents := enabled }
  | .refreshingOnStart enabled => { builder with refreshOnStart := enabled }
  | .sortingChildren enabled => { builder with sortChildren := enabled }
  | .comparator comparator => { builder with comparator }
  | .selector selector => { builder with selector := some selector }
  | .singleNode action => { builder with selector := none, singleNode := some action }

def applyAll (path : Path) (calls : List BuilderCall) : CacheBuilder :=
  calls.foldl apply { path }

/-- A cache holds one node or follows a selector, and not both. -/
def mode (builder : CacheBuilder) : Except Misconfiguration CacheMode :=
  match builder.selector, builder.singleNode with
  | some _, some _ => .error .singleNodeAndSelector
  | none, some action => .ok (.singleNode action)
  | some selector, none => .ok (.subtree selector)
  | none, none => .ok (.subtree (.uniform .statAndData))

/-- The bound that the retention takes from the defaults. -/
def retained (builder : CacheBuilder) : Option Nat :=
  match builder.retention with
  | .unbounded => none
  | .weak => some builder.config.weakValuesCapacity
  | .soft => some builder.config.softValuesCapacity

/-- The smaller of the bounds that are given. -/
def smallerBound : Option Nat → Option Nat → Option Nat
  | some left, some right => some (min left right)
  | some bound, none => some bound
  | none, bound => bound

def policy (builder : CacheBuilder) : EvictionPolicy :=
  { builder.eviction with maxEntries := smallerBound builder.eviction.maxEntries builder.retained }

/-- Every bound that is given has to leave something. -/
def checkPolicy (policy : EvictionPolicy) : Except Misconfiguration Unit :=
  if policy.maxEntries = some 0 then .error .zeroEntries
  else if policy.expireAfterWrite = some 0 ∨ policy.expireAfterAccess = some 0 then
    .error .zeroExpiry
  else .ok ()

def build (builder : CacheBuilder) : Except Misconfiguration CacheOptions := do
  match Path.check builder.path with
  | .error fault => .error (.badPath fault)
  | .ok () =>
    builder.config.check
    let mode ← builder.mode
    checkPolicy builder.policy
    return {
      basePath := builder.path
      mode
      comparator := builder.comparator
      eviction := builder.policy
      sendRefreshEvents := builder.sendRefreshEvents
      refreshOnStart := builder.refreshOnStart
      sortChildren := builder.sortChildren }

end CacheBuilder

end WatchedTree
