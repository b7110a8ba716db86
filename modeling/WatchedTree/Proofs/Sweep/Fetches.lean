import WatchedTree.Proofs.Sweep.Stage

/-!
# The fetches of a sweep

A fetch that finds its node settles the node, and all below it that the list of children leaves out
or has no use for. One that finds no node, or has nothing to read, settles all that it covers.
-/
namespace WatchedTree

open WatchedTree.Path

namespace Sweep

variable {sweep : Sweep} {before : Stage} {path : Path} {rest : List Path}
  {events : List CacheEvent} {cached : Path → Option Node}

/-- What is pending is cached as it was before the sweep. -/
theorem Admits.cached_of_covers (admits : sweep.Admits before)
    (queued : before.pending = path :: rest) {key : Path} (valid : key.IsValid)
    (covers : Covers path key) :
    before.cached key = sweep.before key := by
  refine (admits.unseen key valid ⟨path, ?_, covers⟩).1
  rw [queued]
  exact List.mem_cons_self

theorem Admits.isDue_of_queued (admits : sweep.Admits before)
    (queued : before.pending = path :: rest) : sweep.IsDue path := by
  apply admits.due path
  rw [queued]
  exact List.mem_cons_self

/-- A fetch that finds no node. -/
theorem Sound.passes_of_absent (sound : sweep.Sound) (admits : sweep.Admits before)
    (queued : before.pending = path :: rest) (absent : path ∉ sweep.remote.nodes.keys)
    (isCached : ∀ key, cached key = if Covers path key then none else before.cached key)
    (said : ∀ key, CacheEvent.about events key =
      if Covers path key then
        CacheEvent.between sweep.options.comparator.isSame (before.cached key) none
      else [])
    (valid : ∀ event ∈ events, event.path.IsValid) :
    sweep.Passes (before.passed path rest [] events cached) before path rest [] events := by
  have isDue := admits.isDue_of_queued queued
  have pathValid := sound.valid_of_isDue isDue
  have gone : ∀ key, key.IsValid → Covers path key → sweep.target key = none := by
    intro key keyValid covers
    apply target_of_absent
    intro present
    exact absent (sound.rooted.mem_of_covers pathValid keyValid covers present)
  refine
    { queued := queued
      pending := rfl
      visited := rfl
      told := rfl
      valid := valid
      elsewhere := ?_
      left := ?_
      settled := ?_
      distinct := List.nodup_nil
      below := ?_
      due := ?_
      complete := ?_ }
  · intro key _ notCovered
    exact ⟨(isCached key).trans (if_neg notCovered), (said key).trans (if_neg notCovered)⟩
  · intro key _ child member
    cases member
  · intro key keyValid covers _
    have missing := gone key keyValid covers
    refine ⟨?_, ?_⟩
    · exact ((isCached key).trans (if_pos covers)).trans missing.symm
    · rw [said, if_pos covers, admits.cached_of_covers queued keyValid covers, news, missing]
  · intro child member
    cases member
  · intro child member
    cases member
  · intro key due below
    exact absurd (sound.mem_of_isDue_below due isDue.covers pathValid below).1 absent

/-- A fetch of a path that is neither kept nor followed. -/
theorem Sound.passes_of_no_reads (sound : sweep.Sound) (admits : sweep.Admits before)
    (queued : before.pending = path :: rest) (notKept : ¬ sweep.Keeps path)
    (notFollowed : ¬ sweep.Follows path) (isCached : ∀ key, cached key = before.cached key) :
    sweep.Passes (before.passed path rest [] [] cached) before path rest [] [] := by
  have due := admits.isDue_of_queued queued
  have pathValid := sound.valid_of_isDue due
  have unkept : ∀ key, key.IsValid → Covers path key → ¬ sweep.Keeps key := by
    intro key keyValid covers
    rcases covers with rfl | below
    · exact notKept
    · exact sound.not_kept_below pathValid keyValid due.covers notFollowed below
  refine
    { queued := queued
      pending := rfl
      visited := rfl
      told := rfl
      valid := ?_
      elsewhere := fun key _ _ => ⟨isCached key, rfl⟩
      left := ?_
      settled := ?_
      distinct := List.nodup_nil
      below := ?_
      due := ?_
      complete := ?_ }
  · intro event member
    cases member
  · intro key _ child member
    cases member
  · intro key keyValid covers _
    have nothing := sound.before_of_not_kept (unkept key keyValid covers)
    have missing := target_of_not_kept (unkept key keyValid covers)
    refine ⟨(isCached key).trans ?_, (news_of_not_cached nothing missing).symm⟩
    rw [admits.cached_of_covers queued keyValid covers, nothing, missing]
  · intro child member
    cases member
  · intro child member
    cases member
  · intro key keyDue below
    exact absurd (sound.mem_of_isDue_below keyDue due.covers pathValid below).2 notFollowed

/-- The children that a fetch leaves pending. -/
structure Continues (sweep : Sweep) (path : Path) (traverse : Bool) (children : List Path) :
    Prop where
  distinct : children.Nodup
  mem : ∀ child, child ∈ children ↔ traverse = true ∧
    ∃ name ∈ sweep.listing path, child = path.child name ∧
      (sweep.Keeps child ∨ sweep.Follows child)

/-- What a path covers and what is left out by the list of its children. -/
def Omits (sweep : Sweep) (path : Path) (traverse : Bool) (key : Path) : Prop :=
  traverse = true ∧ isBelow path key = true ∧ firstBelow path key ∉ sweep.listing path

instance (sweep : Sweep) (path : Path) (traverse : Bool) (key : Path) :
    Decidable (sweep.Omits path traverse key) :=
  inferInstanceAs (Decidable (_ ∧ _ ∧ _))

section Present

variable {action : Action} {traverse : Bool} {node : RemoteNode} {children : List Path}

theorem Continues.child_due (continues : sweep.Continues path traverse children)
    (sound : sweep.Sound) (due : sweep.IsDue path)
    (isScope : sweep.scope path = some (action, traverse))
    (present : path ∈ sweep.remote.nodes.keys) {child : Path} (member : child ∈ children) :
    (∃ segment, IsSegment segment ∧ child = path.child segment) ∧ sweep.IsDue child := by
  have valid := sound.valid_of_isDue due
  obtain ⟨follows, name, listed, rfl, used⟩ := (continues.mem child).mp member
  obtain ⟨isSegment, there⟩ := (mem_listing valid).mp listed
  subst follows
  have reaches := (due.reaches sound).child sound valid present ⟨action, isScope⟩ isSegment
  exact ⟨⟨name, isSegment, rfl⟩, Or.inr ⟨there, reaches, used⟩⟩

/-- What lies below a node that was found is settled, unless the next fetches cover it. -/
theorem Continues.target_of_left (continues : sweep.Continues path traverse children)
    (sound : sweep.Sound) (due : sweep.IsDue path)
    (isScope : sweep.scope path = some (action, traverse)) {key : Path} (valid : key.IsValid)
    (below : isBelow path key = true) (notPending : ∀ child ∈ children, ¬ Covers child key) :
    sweep.target key = none ∧ (¬ sweep.Omits path traverse key → sweep.before key = none) := by
  have pathValid := sound.valid_of_isDue due
  cases traverse with
  | false =>
      have notFollowed : ¬ sweep.Follows path := by
        rintro ⟨other, followed⟩
        rw [isScope] at followed
        cases followed
      have notKept := sound.not_kept_below pathValid valid due.covers notFollowed below
      exact ⟨target_of_not_kept notKept, fun _ => sound.before_of_not_kept notKept⟩
  | true =>
      obtain ⟨isSegment, _⟩ := firstBelow_spec pathValid valid below
      have onTheWay := covers_firstBelow pathValid valid below
      have childValid := pathValid.child isSegment
      by_cases listed : firstBelow path key ∈ sweep.listing path
      · have unused : ¬ (sweep.Keeps (path.child (firstBelow path key)) ∨
            sweep.Follows (path.child (firstBelow path key))) := by
          intro used
          apply notPending (path.child (firstBelow path key)) _ onTheWay
          exact (continues.mem _).mpr ⟨rfl, _, listed, rfl, used⟩
        rw [not_or] at unused
        have notKept : ¬ sweep.Keeps key := by
          rcases onTheWay with same | lower
          · rw [same]
            exact unused.1
          · have covers := covers_child sound.base pathValid isSegment due.covers
            exact sound.not_kept_below childValid valid covers unused.2 lower
        exact ⟨target_of_not_kept notKept, fun _ => sound.before_of_not_kept notKept⟩
      · refine ⟨?_, fun notOmitted => absurd ⟨rfl, below, listed⟩ notOmitted⟩
        apply target_of_absent
        intro present
        have there := sound.rooted.mem_of_covers childValid valid onTheWay present
        exact listed ((mem_listing pathValid).mpr ⟨isSegment, there⟩)

theorem Continues.complete (continues : sweep.Continues path traverse children)
    (sound : sweep.Sound) (due : sweep.IsDue path)
    (isScope : sweep.scope path = some (action, traverse)) {key : Path} (keyDue : sweep.IsDue key)
    (below : isBelow path key = true) : ∃ child ∈ children, Covers child key := by
  have pathValid := sound.valid_of_isDue due
  have valid := sound.valid_of_isDue keyDue
  obtain ⟨other, followed⟩ := (sound.mem_of_isDue_below keyDue due.covers pathValid below).2
  rw [isScope] at followed
  cases followed
  obtain ⟨isSegment, _⟩ := firstBelow_spec pathValid valid below
  have onTheWay := covers_firstBelow pathValid valid below
  have childValid := pathValid.child isSegment
  have covered := covers_child sound.base pathValid isSegment due.covers
  have used : path.child (firstBelow path key) ∈ sweep.remote.nodes.keys ∧
      (sweep.Keeps (path.child (firstBelow path key)) ∨
        sweep.Follows (path.child (firstBelow path key))) := by
    rcases onTheWay with same | lower
    · rcases keyDue with isBase | keyDue
      · rw [isBase] at below
        have same := covers_antisymm sound.base pathValid due.covers (covers_of_isBelow below)
        rw [same, isBelow_irrefl] at below
        cases below
      · rw [← same]
        exact ⟨keyDue.1, keyDue.2.2⟩
    · have above := sound.mem_of_isDue_below keyDue covered childValid lower
      exact ⟨above.1, Or.inr above.2⟩
  have listed := (mem_listing pathValid).mpr ⟨isSegment, used.1⟩
  exact ⟨_, (continues.mem _).mpr ⟨rfl, _, listed, rfl, used.2⟩, onTheWay⟩

/-- A fetch that finds its node. -/
theorem Sound.passes_of_present (sound : sweep.Sound) (admits : sweep.Admits before)
    (queued : before.pending = path :: rest)
    (isScope : sweep.scope path = some (action, traverse))
    (present : sweep.remote.nodes.get? path = some node)
    (continues : sweep.Continues path traverse children)
    (own : cached path =
      if action.isStored = true then
        some (World.nodeOf path action node (sweep.listing path))
      else before.cached path)
    (ownSaid : CacheEvent.about events path =
      if action.isStored = true then
        CacheEvent.between sweep.options.comparator.isSame (before.cached path) (cached path)
      else [])
    (dropped : ∀ key, key ≠ path → sweep.Omits path traverse key → cached key = none ∧
      CacheEvent.about events key =
        CacheEvent.between sweep.options.comparator.isSame (before.cached key) none)
    (spared : ∀ key, key ≠ path → ¬ sweep.Omits path traverse key →
      cached key = before.cached key ∧ CacheEvent.about events key = [])
    (valid : ∀ event ∈ events, event.path.IsValid) :
    sweep.Passes (before.passed path rest children events cached) before path rest children
      events := by
  have due := admits.isDue_of_queued queued
  have pathValid := sound.valid_of_isDue due
  have there : path ∈ sweep.remote.nodes.keys := Table.mem_keys_iff.mpr ⟨node, present⟩
  refine
    { queued := queued
      pending := rfl
      visited := rfl
      told := rfl
      valid := valid
      elsewhere := ?_
      left := ?_
      settled := ?_
      distinct := continues.distinct
      below := fun child member => (continues.child_due sound due isScope there member).1
      due := fun child member => (continues.child_due sound due isScope there member).2
      complete := fun key keyDue below => continues.complete sound due isScope keyDue below }
  · intro key _ notCovered
    refine spared key (fun same => notCovered (Or.inl same)) ?_
    exact fun omitted => notCovered (covers_of_isBelow omitted.2.1)
  · intro key keyValid child member covers
    obtain ⟨_, name, listed, rfl, _⟩ := (continues.mem child).mp member
    obtain ⟨isSegment, _⟩ := (mem_listing pathValid).mp listed
    have first := firstBelow_of_covers pathValid keyValid isSegment covers
    have below := isBelow_of_covers_child pathValid keyValid isSegment covers
    refine spared key (Ne.symm (ne_of_isBelow below)) ?_
    exact fun omitted => omitted.2.2 (first ▸ listed)
  · intro key keyValid covers notPending
    have unseen := admits.cached_of_covers queued keyValid covers
    rcases covers with rfl | below
    · by_cases isStored : action.isStored = true
      · have isTarget : sweep.target key = cached key := by
          rw [own, if_pos isStored, target, isScope]
          simp only [isStored, if_true, present, Option.map_some]
        refine ⟨isTarget.symm, ?_⟩
        rw [ownSaid, if_pos isStored, news, isTarget, unseen]
      · have notKept : ¬ sweep.Keeps key := by
          rintro ⟨other, follows, otherScope, otherStored⟩
          rw [isScope] at otherScope
          cases otherScope
          exact isStored otherStored
        have nothing := sound.before_of_not_kept notKept
        have missing := target_of_not_kept notKept
        refine ⟨?_, ?_⟩
        · refine own.trans ?_
          rw [if_neg isStored, unseen, nothing, missing]
        · rw [ownSaid, if_neg isStored, news_of_not_cached nothing missing]
    · have notPath : key ≠ path := Ne.symm (ne_of_isBelow below)
      obtain ⟨missing, unkept⟩ :=
        continues.target_of_left sound due isScope keyValid below notPending
      by_cases omitted : sweep.Omits path traverse key
      · obtain ⟨gone, said⟩ := dropped key notPath omitted
        refine ⟨gone.trans missing.symm, ?_⟩
        rw [said, unseen, news, missing]
      · obtain ⟨same, silent⟩ := spared key notPath omitted
        have nothing := unkept omitted
        refine ⟨?_, ?_⟩
        · refine same.trans ?_
          rw [unseen, nothing, missing]
        · rw [silent, news_of_not_cached nothing missing]

end Present

end Sweep

end WatchedTree
