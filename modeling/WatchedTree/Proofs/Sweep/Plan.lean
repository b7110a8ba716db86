import WatchedTree.Proofs.Ensemble.Children
import WatchedTree.Proofs.World.Visit

/-!
# The refresh of a whole cache, and its order

A sweep goes down a tree from its base, by the lists of children. It keeps apart what it has yet to
look at, which is as it was before, and what it has passed, which is as it should be. What it has
yet to look at lies at or below the paths that are pending, and no pending path lies below another.
-/
namespace WatchedTree

open WatchedTree.Path

/-- A tree that stands still, a cache of it by its options, and what is cached before. -/
structure Sweep where
  options : CacheOptions
  remote : Ensemble
  before : Path → Option Node

/-- The modes by the selectors that come with the cache. -/
def CacheMode.IsStock : CacheMode → Prop
  | .subtree (.custom _ _) => False
  | _ => True

instance (mode : CacheMode) : Decidable mode.IsStock :=
  match mode with
  | .singleNode _ | .subtree (.uniform _) | .subtree (.maxDepth _ _) => .isTrue trivial
  | .subtree (.custom _ _) => .isFalse id

namespace Sweep

def base (sweep : Sweep) : Path := sweep.options.basePath

def scope (sweep : Sweep) (path : Path) : Option (Action × Bool) :=
  sweep.options.mode.scope sweep.options.basePath path

/-- The names of the children as they are read. -/
def listing (sweep : Sweep) (path : Path) : List Text :=
  if sweep.options.sortChildren then Text.sort (sweep.remote.childNames path)
  else sweep.remote.childNames path

/-- What is to be cached of a path. -/
def target (sweep : Sweep) (path : Path) : Option Node :=
  match sweep.scope path with
  | none => none
  | some (action, _) =>
    if action.isStored then
      (sweep.remote.nodes.get? path).map fun node =>
        World.nodeOf path action node (sweep.listing path)
    else none

/-- What is to be told of a path. -/
def news (sweep : Sweep) (path : Path) : List CacheEvent :=
  CacheEvent.between sweep.options.comparator.isSame (sweep.before path) (sweep.target path)

def Follows (sweep : Sweep) (path : Path) : Prop :=
  ∃ action, sweep.scope path = some (action, true)

def Keeps (sweep : Sweep) (path : Path) : Prop :=
  ∃ action traverse, sweep.scope path = some (action, traverse) ∧ action.isStored = true

/-- Holds if all nodes from the base down to the path, but for the path itself, are there and
followed. -/
structure Reaches (sweep : Sweep) (path : Path) : Prop where
  covers : Covers sweep.base path
  above : ∀ key, key.IsValid → Covers sweep.base key → isBelow key path = true →
    key ∈ sweep.remote.nodes.keys ∧ sweep.Follows key

/-- The paths that have to be fetched: the base, and what is found below it and has a use. -/
def IsDue (sweep : Sweep) (path : Path) : Prop :=
  path = sweep.base ∨
    path ∈ sweep.remote.nodes.keys ∧ sweep.Reaches path ∧ (sweep.Keeps path ∨ sweep.Follows path)

structure Sound (sweep : Sweep) : Prop where
  base : sweep.base.IsValid
  stock : sweep.options.mode.IsStock
  remote : sweep.remote.Sound
  rooted : sweep.remote.IsRooted
  before : ∀ path node, sweep.before path = some node →
    path.IsValid ∧ node.path = path ∧ sweep.Keeps path

variable {sweep : Sweep} {path key : Path}

theorem mem_listing (valid : path.IsValid) {name : Text} :
    name ∈ sweep.listing path ↔ IsSegment name ∧ path.child name ∈ sweep.remote.nodes.keys := by
  rw [listing, Text.mem_ite_sort, Ensemble.mem_childNames valid]

theorem Sound.distinct (sound : sweep.Sound) (path : Path) (valid : path.IsValid) :
    (sweep.listing path).Nodup := by
  have distinct := Ensemble.nodup_childNames sound.remote.distinct valid
  rw [listing]
  split
  · exact (Text.sort_perm _).nodup_iff.mpr distinct
  · exact distinct

theorem covers_of_scope (inScope : sweep.scope path ≠ none) : Covers sweep.base path := by
  unfold scope CacheMode.scope at inScope
  by_cases isBase : path = sweep.options.basePath
  · exact Or.inl isBase
  · by_cases below : isBelow sweep.options.basePath path = true
    · exact Or.inr below
    · cases isMode : sweep.options.mode with
      | singleNode action => simp [isMode, isBase] at inScope
      | subtree selector => simp [isMode, isBase, below] at inScope

theorem Keeps.covers (keeps : sweep.Keeps path) : Covers sweep.base path := by
  obtain ⟨action, traverse, isScope, _⟩ := keeps
  apply covers_of_scope
  rw [isScope]
  exact Option.some_ne_none _

theorem scope_subtree {selector : Selector} (isMode : sweep.options.mode = .subtree selector)
    (covers : Covers sweep.base path) :
    sweep.scope path =
      some (if path = sweep.base then .notStored else selector.actionAt sweep.base path,
        selector.traverses sweep.base path) := by
  have isScope : sweep.scope path =
      if path = sweep.base then some (.notStored, selector.traverses sweep.base path)
      else if isBelow sweep.base path then
        some (selector.actionAt sweep.base path, selector.traverses sweep.base path)
      else none := by
    rw [scope, isMode]
    rfl
  rw [isScope]
  by_cases isBase : path = sweep.base
  · rw [if_pos isBase, if_pos isBase]
  · rw [if_neg isBase, if_neg isBase, if_pos (covers.resolve_left isBase)]

/-- What is kept is found on the way down from the base. -/
theorem Sound.kept (sound : sweep.Sound) (path key : Path) (valid : path.IsValid)
    (keyValid : key.IsValid) (covers : Covers sweep.base key) (below : isBelow key path = true)
    (keeps : sweep.Keeps path) : sweep.Follows key := by
  have baseBelow := isBelow_of_covers_of_isBelow sound.base keyValid valid covers below
  have notBase : path ≠ sweep.base := Ne.symm (ne_of_isBelow baseBelow)
  obtain ⟨action, traverse, isScope, isStored⟩ := keeps
  cases isMode : sweep.options.mode with
  | singleNode single =>
      have outside : sweep.scope path = none := by
        rw [scope, isMode]
        exact if_neg notBase
      rw [outside] at isScope
      cases isScope
  | subtree selector =>
      rw [scope_subtree isMode (covers_of_isBelow baseBelow), if_neg notBase] at isScope
      cases isScope
      have traverses : selector.traverses sweep.base key = true := by
        cases selector with
        | uniform uniform => rfl
        | maxDepth bound kept =>
            obtain ⟨level, depth, keyDepth, pathDepth, less⟩ :=
              depthBelow_lt sound.base keyValid valid covers below
            simp only [Selector.actionAt, pathDepth] at isStored
            simp only [Selector.traverses, keyDepth, decide_eq_true_eq]
            split at isStored
            next within => omega
            next => cases isStored
        | custom label choose =>
            have stock := sound.stock
            rw [isMode] at stock
            cases stock
      refine ⟨if key = sweep.base then .notStored else selector.actionAt sweep.base key, ?_⟩
      rw [scope_subtree isMode covers, traverses]

theorem target_of_not_kept (notKept : ¬ sweep.Keeps path) : sweep.target path = none := by
  unfold target
  cases isScope : sweep.scope path with
  | none => rfl
  | some scope =>
      obtain ⟨action, traverse⟩ := scope
      have notStored : ¬ action.isStored = true :=
        fun isStored => notKept ⟨action, traverse, isScope, isStored⟩
      exact if_neg notStored

theorem target_of_absent (absent : path ∉ sweep.remote.nodes.keys) : sweep.target path = none := by
  have missing : sweep.remote.nodes.get? path = none := by
    cases found : sweep.remote.nodes.get? path with
    | none => rfl
    | some node => exact absurd (Table.mem_keys_iff.mpr ⟨node, found⟩) absent
  unfold target
  rw [missing]
  cases sweep.scope path with
  | none => rfl
  | some scope => exact ite_self none

theorem Sound.before_of_not_kept (sound : sweep.Sound) (notKept : ¬ sweep.Keeps path) :
    sweep.before path = none := by
  cases cached : sweep.before path with
  | none => rfl
  | some node => exact absurd (sound.before path node cached).2.2 notKept

theorem news_of_not_cached (nothing : sweep.before path = none) (missing : sweep.target path = none) :
    sweep.news path = [] := by
  rw [news, nothing, missing]
  rfl

theorem Sound.valid_of_mem (sound : sweep.Sound) (present : path ∈ sweep.remote.nodes.keys) :
    path.IsValid := by
  obtain ⟨node, found⟩ := Table.mem_keys_iff.mp present
  exact sound.remote.valid path node found

theorem Sound.nothing_of_invalid (sound : sweep.Sound) (invalid : ¬ path.IsValid) :
    sweep.before path = none ∧ sweep.target path = none := by
  constructor
  · cases cached : sweep.before path with
    | none => rfl
    | some node => exact absurd (sound.before path node cached).1 invalid
  · exact target_of_absent fun present => invalid (sound.valid_of_mem present)

theorem Sound.valid_of_isDue (sound : sweep.Sound) (due : sweep.IsDue path) : path.IsValid := by
  rcases due with rfl | due
  · exact sound.base
  · exact sound.valid_of_mem due.1

theorem IsDue.covers (due : sweep.IsDue path) : Covers sweep.base path := by
  rcases due with rfl | due
  · exact covers_refl _
  · exact due.2.1.covers

theorem scope_base_ne_none : sweep.scope sweep.base ≠ none := by
  unfold scope CacheMode.scope base
  cases sweep.options.mode with
  | singleNode action => simp
  | subtree selector => simp

theorem IsDue.inScope (due : sweep.IsDue path) : sweep.scope path ≠ none := by
  rcases due with rfl | ⟨_, _, ⟨action, traverse, isScope, _⟩ | ⟨action, isScope⟩⟩
  · exact scope_base_ne_none
  · rw [isScope]
    exact Option.some_ne_none _
  · rw [isScope]
    exact Option.some_ne_none _

/-- A path below another that is due is a node, and so are all between. -/
theorem Sound.mem_of_isDue_below (sound : sweep.Sound) (due : sweep.IsDue key)
    (covers : Covers sweep.base path) (valid : path.IsValid) (below : isBelow path key = true) :
    path ∈ sweep.remote.nodes.keys ∧ sweep.Follows path := by
  rcases due with rfl | due
  · have same := covers_antisymm sound.base valid covers (covers_of_isBelow below)
    rw [same, isBelow_irrefl] at below
    cases below
  · exact due.2.1.above path valid covers below

theorem Reaches.child (reaches : sweep.Reaches path) (sound : sweep.Sound) (valid : path.IsValid)
    (present : path ∈ sweep.remote.nodes.keys) (follows : sweep.Follows path) {segment : Text}
    (isSegment : IsSegment segment) : sweep.Reaches (path.child segment) where
  covers := covers_child sound.base valid isSegment reaches.covers
  above := by
    intro key keyValid covers below
    rcases (isBelow_child_iff_covers keyValid valid isSegment).mp below with rfl | above
    · exact ⟨present, follows⟩
    · exact reaches.above key keyValid covers above

theorem reaches_base (sound : sweep.Sound) : sweep.Reaches sweep.base where
  covers := covers_refl _
  above := by
    intro key keyValid covers below
    have same := covers_antisymm sound.base keyValid covers (covers_of_isBelow below)
    rw [same, isBelow_irrefl] at below
    cases below

theorem IsDue.reaches (due : sweep.IsDue path) (sound : sweep.Sound) : sweep.Reaches path := by
  rcases due with rfl | due
  · exact reaches_base sound
  · exact due.2.1

/-- Where nothing is followed, nothing below is kept. -/
theorem Sound.not_kept_below (sound : sweep.Sound) (valid : path.IsValid)
    (keyValid : key.IsValid) (covers : Covers sweep.base path) (notFollowed : ¬ sweep.Follows path)
    (below : isBelow path key = true) : ¬ sweep.Keeps key :=
  fun kept => notFollowed (sound.kept key path keyValid valid covers below kept)

end Sweep

end WatchedTree
