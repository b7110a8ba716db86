import WatchedTree.Proofs.World.Sound
import WatchedTree.Proofs.World.Visit

/-!
# What a fetch leaves in its cache

A cache without bounds holds, after a fetch that found its node, the node as it was read and nothing
below it that the list of children leaves out. Everything else is as it was.
-/
namespace WatchedTree

namespace Cache

variable {cache : Cache} {ensemble : Ensemble} {now later : Moment} {action : Action} {node : Node}
  {key : Path} {names : List Text}

theorem peek_begun (cache : Cache) (now : Moment) (key : Path) :
    cache.begun.store.peek now key = cache.store.peek now key :=
  Store.peek_congr rfl rfl

theorem peek_ended (cache : Cache) (epoch : Epoch) (now : Moment) (key : Path) :
    (cache.ended epoch).store.peek now key = cache.store.peek now key :=
  Store.peek_congr rfl rfl

/-- A node that is not older than what is cached takes its place. -/
theorem peek_received (unbounded : cache.store.IsUnbounded) (remembers : cache.store.Remembers)
    (isStarted : cache.phase = .started)
    (notOlder : ∀ old, cache.store.peek now node.path = some old → node.isOlderThan old = false)
    (action : Action) (later : Moment) (key : Path) :
    (cache.begun.received now action node cache.store.epoch).store.peek later key =
      if action.isStored = true ∧ key = node.path then some node
      else cache.store.peek later key := by
  unfold received
  by_cases isStored : action.isStored = true
  · have free : cache.begun.store.deletedSince node.path cache.store.epoch = false :=
      remembers.beginFetch.deletedSince node.path
    have notOlderBegun : ∀ old, cache.begun.store.peek now node.path = some old →
        node.isOlderThan old = false := by
      intro old
      rw [peek_begun]
      exact notOlder old
    have unboundedBegun : cache.begun.store.IsUnbounded := unbounded
    have stored := (unboundedBegun.upsert now free notOlderBegun).2 later key
    have notClosed : cache.begun.isClosed = false := by
      have phase : cache.begun.phase = .started := isStarted
      rw [isClosed, phase]
      rfl
    rw [if_pos isStored, commit, if_neg (by simp [notClosed])]
    simp only [isStored, true_and]
    rw [← peek_begun]
    exact stored
  · rw [if_neg isStored, if_neg fun both => isStored both.1]
    exact peek_begun cache later key

/-- What the commit of a visit tells. -/
def said (cache : Cache) (now : Moment) (action : Action) (node : Node) (epoch : Epoch) :
    List CacheEvent :=
  if action.isStored then (cache.commit now node epoch).1.toList else []

theorem said_begun (unbounded : cache.store.IsUnbounded) (remembers : cache.store.Remembers)
    (isStarted : cache.phase = .started)
    (notOlder : ∀ old, cache.store.peek now node.path = some old → node.isOlderThan old = false)
    (action : Action) :
    cache.begun.said now action node cache.store.epoch =
      if action.isStored = true then
        CacheEvent.between cache.options.comparator.isSame (cache.store.peek now node.path)
          (some node)
      else [] := by
  have free : cache.begun.store.deletedSince node.path cache.store.epoch = false :=
    remembers.beginFetch.deletedSince node.path
  have notOlderBegun : ∀ old, cache.begun.store.peek now node.path = some old →
      node.isOlderThan old = false := by
    intro old
    rw [peek_begun]
    exact notOlder old
  have unboundedBegun : cache.begun.store.IsUnbounded := unbounded
  have outcome := (unboundedBegun.upsert now free notOlderBegun).1
  have notClosed : ¬ cache.begun.isClosed = true := by
    have phase : cache.begun.phase = .started := isStarted
    rw [isClosed, phase]
    decide
  rw [peek_begun] at outcome
  unfold said commit
  rw [if_neg notClosed]
  simp only [outcome]
  cases cache.store.peek now node.path with
  | none => rfl
  | some old =>
      simp only [Upsert.notice, Upsert.isStored, if_true, Option.bind_some, eventOf,
        CacheEvent.between]
      have options : cache.begun.options = cache.options := rfl
      rw [options]
      by_cases isSame : cache.options.comparator.isSame old node = true
      · simp [isSame]
      · simp [isSame]

theorem isUnbounded_received (unbounded : cache.store.IsUnbounded) (epoch : Epoch) :
    (cache.begun.received now action node epoch).store.IsUnbounded := by
  have fence := fence_received cache.begun now action node epoch
  have policy := congrArg Fence.policy fence
  have unboundedBegun : cache.begun.store.IsUnbounded := unbounded
  exact unboundedBegun.of_fence policy

theorem isUnbounded_reconciled (unbounded : cache.store.IsUnbounded) (parent : Path)
    (names : List Text) : (cache.reconciled now parent names).store.IsUnbounded := by
  apply removeSubtrees_induction (motive := Store.IsUnbounded)
  · intro store path kept
    have fence := Store.fence_removeSubtree store now path
    have policy := congrArg Fence.policy fence
    exact kept.of_fence policy
  · exact unbounded

theorem IsPlaced.received (placed : cache.IsPlaced) (valid : node.path.IsValid) (epoch : Epoch) :
    (cache.begun.received now action node epoch).IsPlaced := by
  have placedBegun : cache.begun.IsPlaced := ⟨placed.distinct, placed.nodes⟩
  unfold Cache.received commit
  split
  · split
    · exact placedBegun
    · exact Store.Keeps.upsert placedBegun ⟨valid, rfl⟩ now epoch
  · exact placedBegun

end Cache

namespace World

variable {cache : Cache} {now : Moment} {action : Action} {traverse : Bool} {node : Node}
  {key : Path} {names : List Text}

/-- What is read of a node now is no older than what is cached of it. -/
theorem notOlder_of_sound {ensemble : Ensemble} (sound : cache.Sound ensemble) {path : Path}
    {remote : RemoteNode} (present : ensemble.nodes.get? path = some remote) {old : Node}
    (cached : cache.store.peek now path = some old) :
    (nodeOf path action remote names).isOlderThan old = false := by
  have passed := (sound.entries.of_peek cached).passed
  unfold Node.isOlderThan nodeOf
  by_cases wantsStat : action.wantsStat = true
  · simp only [wantsStat, if_true]
    cases oldStat : old.stat with
    | none => rfl
    | some stat => exact (passed stat oldStat).notAhead remote present
  · simp [wantsStat]

@[simp] theorem options_visited :
    (visited cache now action traverse node names).options = cache.options := by
  unfold visited
  cases traverse <;> simp [Cache.begun]

@[simp] theorem phase_visited :
    (visited cache now action traverse node names).phase = cache.phase := by
  unfold visited
  cases traverse <;> simp [Cache.begun]

theorem isUnbounded_visited (unbounded : cache.store.IsUnbounded) :
    (visited cache now action traverse node names).store.IsUnbounded := by
  unfold visited
  cases traverse with
  | true => exact Cache.isUnbounded_reconciled (Cache.isUnbounded_received unbounded _) _ _
  | false => exact Cache.isUnbounded_received unbounded _

theorem peek_visited (unbounded : cache.store.IsUnbounded) (remembers : cache.store.Remembers)
    (placed : cache.IsPlaced) (isStarted : cache.phase = .started) (valid : node.path.IsValid)
    (notOlder : ∀ old, cache.store.peek now node.path = some old → node.isOlderThan old = false)
    (key : Path) :
    (visited cache now action traverse node names).store.peek now key =
      if key = node.path then
        if action.isStored = true then some node else cache.store.peek now key
      else if traverse = true ∧ Path.isBelow node.path key = true ∧
          Path.firstBelow node.path key ∉ names then none
      else cache.store.peek now key := by
  have kept := Cache.peek_received unbounded remembers isStarted notOlder action now key
  unfold visited
  cases traverse with
  | true =>
      simp only [if_true, true_and]
      rw [Cache.reconciled, Cache.peek_vanish (placed.received valid _) valid]
      by_cases isPath : key = node.path
      · subst isPath
        simp only [Path.isBelow_irrefl]
        rw [kept]
        simp
      · rw [kept]
        simp [isPath]
  | false =>
      simp only [Bool.false_eq_true, if_false, false_and]
      rw [kept]
      by_cases isPath : key = node.path
      · simp [isPath]
      · simp [isPath]

/-- What a fetch tells that found its node. -/
def visitEvents (cache : Cache) (now : Moment) (action : Action) (traverse : Bool) (node : Node)
    (names : List Text) : List CacheEvent :=
  let kept := cache.begun.received now action node cache.store.epoch
  cache.begun.said now action node cache.store.epoch ++
    if traverse then
      (Cache.removeSubtrees now (kept.vanished now node.path names) kept).1
    else []

/-- A fetch tells of its own node by what was cached before, and of what the list leaves out. -/
theorem about_visitEvents (unbounded : cache.store.IsUnbounded)
    (remembers : cache.store.Remembers) (placed : cache.IsPlaced) (isStarted : cache.phase = .started)
    (valid : node.path.IsValid)
    (notOlder : ∀ old, cache.store.peek now node.path = some old → node.isOlderThan old = false)
    (key : Path) :
    CacheEvent.about (visitEvents cache now action traverse node names) key =
      if key = node.path then
        if action.isStored = true then
          CacheEvent.between cache.options.comparator.isSame (cache.store.peek now node.path)
            (some node)
        else []
      else if traverse = true ∧ Path.isBelow node.path key = true ∧
          Path.firstBelow node.path key ∉ names then cache.deletions now key
      else [] := by
  have own : CacheEvent.about (cache.begun.said now action node cache.store.epoch) key =
      if key = node.path then
        if action.isStored = true then
          CacheEvent.between cache.options.comparator.isSame (cache.store.peek now node.path)
            (some node)
        else []
      else [] := by
    rw [Cache.said_begun unbounded remembers isStarted notOlder]
    by_cases isStored : action.isStored = true
    · simp only [isStored, if_true]
      exact CacheEvent.about_between _ _ _ _
    · simp only [isStored, Bool.false_eq_true, if_false, CacheEvent.about_nil, ite_self]
  have dropped : CacheEvent.about (if traverse then
        (Cache.removeSubtrees now ((cache.begun.received now action node cache.store.epoch).vanished
          now node.path names) (cache.begun.received now action node cache.store.epoch)).1
      else []) key =
        if key = node.path then []
        else if traverse = true ∧ Path.isBelow node.path key = true ∧
          Path.firstBelow node.path key ∉ names then cache.deletions now key
        else [] := by
    cases traverse with
    | false => simp
    | true =>
        simp only [if_true, true_and]
        rw [Cache.events_vanish (placed.received valid _) valid, Cache.deletions, Cache.deletions,
          Cache.peek_received unbounded remembers isStarted notOlder]
        by_cases isPath : key = node.path
        · subst isPath
          simp [Path.isBelow_irrefl]
        · simp [isPath]
  rw [visitEvents, CacheEvent.about_append, own, dropped]
  by_cases isPath : key = node.path
  · simp only [isPath, if_true, List.append_nil]
  · simp only [isPath, if_false, List.nil_append]

theorem valid_of_mem_visitEvents (unbounded : cache.store.IsUnbounded)
    (remembers : cache.store.Remembers) (placed : cache.IsPlaced) (isStarted : cache.phase = .started)
    (valid : node.path.IsValid)
    (notOlder : ∀ old, cache.store.peek now node.path = some old → node.isOlderThan old = false)
    {event : CacheEvent}
    (member : event ∈ visitEvents cache now action traverse node names) : event.path.IsValid := by
  have about := CacheEvent.mem_about member
  rw [about_visitEvents unbounded remembers placed isStarted valid notOlder] at about
  split at about
  next isPath => exact isPath ▸ valid
  next =>
    split at about
    next => exact Cache.valid_of_mem_deletions placed about
    next => cases about

end World

end WatchedTree
