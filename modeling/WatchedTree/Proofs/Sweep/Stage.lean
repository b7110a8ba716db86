import Mathlib.Data.List.Perm.Subperm
import WatchedTree.Proofs.Sweep.Plan

/-!
# The stages of a sweep

One stage follows another by the fetch of a pending path. The fetch settles all that the path
covers, but for what is covered by the children that it leaves pending in its turn.
-/
namespace WatchedTree

open WatchedTree.Path

namespace Sweep

/-- How far a sweep has come. -/
structure Stage where
  cached : Path → Option Node
  pending : List Path
  visited : List Path
  told : List CacheEvent

/-- The stage after the fetch of a path. -/
def Stage.passed (stage : Stage) (path : Path) (rest children : List Path)
    (events : List CacheEvent) (cached : Path → Option Node) : Stage where
  cached := cached
  pending := rest ++ children
  visited := stage.visited ++ [path]
  told := stage.told ++ events

/-- Holds of what the sweep has yet to look at. -/
def Stage.IsOpen (stage : Stage) (key : Path) : Prop := ∃ path ∈ stage.pending, Covers path key

/-- What the invariant says of a stage. -/
structure Admits (sweep : Sweep) (stage : Stage) : Prop where
  distinct : stage.pending.Nodup
  apart : ∀ path ∈ stage.pending, ∀ other ∈ stage.pending, Covers path other → path = other
  due : ∀ path ∈ stage.pending, sweep.IsDue path
  unseen : ∀ key, key.IsValid → stage.IsOpen key →
    stage.cached key = sweep.before key ∧ CacheEvent.about stage.told key = []
  settled : ∀ key, key.IsValid → ¬ stage.IsOpen key →
    stage.cached key = sweep.target key ∧ CacheEvent.about stage.told key = sweep.news key
  visited : ∀ path, path ∈ stage.visited ↔ sweep.IsDue path ∧ ¬ stage.IsOpen path
  once : stage.visited.Nodup
  valid : ∀ event ∈ stage.told, event.path.IsValid

/-- What the fetch of the first pending path comes to. -/
structure Passes (sweep : Sweep) (after before : Stage) (path : Path) (rest children : List Path)
    (events : List CacheEvent) : Prop where
  queued : before.pending = path :: rest
  pending : after.pending = rest ++ children
  visited : after.visited = before.visited ++ [path]
  told : after.told = before.told ++ events
  valid : ∀ event ∈ events, event.path.IsValid
  elsewhere : ∀ key, key.IsValid → ¬ Covers path key →
    after.cached key = before.cached key ∧ CacheEvent.about events key = []
  left : ∀ key, key.IsValid → ∀ child ∈ children, Covers child key →
    after.cached key = before.cached key ∧ CacheEvent.about events key = []
  settled : ∀ key, key.IsValid → Covers path key → (∀ child ∈ children, ¬ Covers child key) →
    after.cached key = sweep.target key ∧ CacheEvent.about events key = sweep.news key
  distinct : children.Nodup
  below : ∀ child ∈ children, ∃ segment, IsSegment segment ∧ child = path.child segment
  due : ∀ child ∈ children, sweep.IsDue child
  complete : ∀ key, sweep.IsDue key → isBelow path key = true → ∃ child ∈ children, Covers child key

variable {sweep : Sweep} {after before : Stage} {path key : Path} {rest children : List Path}
  {events : List CacheEvent}

namespace Passes

variable (passes : sweep.Passes after before path rest children events)
  (admits : sweep.Admits before) (sound : sweep.Sound)

include passes

theorem mem_pending : path ∈ before.pending := by
  rw [passes.queued]
  exact List.mem_cons_self

theorem mem_of_mem_rest {other : Path} (member : other ∈ rest) : other ∈ before.pending := by
  rw [passes.queued]
  exact List.mem_cons_of_mem _ member

include admits

theorem isDue : sweep.IsDue path := admits.due path passes.mem_pending

theorem not_mem_rest : path ∉ rest := by
  have distinct := admits.distinct
  rw [passes.queued] at distinct
  exact (List.nodup_cons.mp distinct).1

include sound

theorem pathValid : path.IsValid := sound.valid_of_isDue (passes.isDue admits)

theorem restValid {other : Path} (member : other ∈ rest) : other.IsValid :=
  sound.valid_of_isDue (admits.due other (passes.mem_of_mem_rest member))

theorem covers_of_covers_child {child : Path} (member : child ∈ children) (valid : key.IsValid)
    (covers : Covers child key) : isBelow path key = true := by
  obtain ⟨segment, isSegment, rfl⟩ := passes.below child member
  exact isBelow_of_covers_child (passes.pathValid admits sound) valid isSegment covers

/-- What the path covers is covered by no other path that is pending. -/
theorem not_covers_of_mem_rest {other : Path} (member : other ∈ rest) (valid : key.IsValid)
    (covers : Covers path key) : ¬ Covers other key := by
  intro otherCovers
  have pathValid := passes.pathValid admits sound
  have otherValid := passes.restValid admits sound member
  have held := passes.mem_of_mem_rest member
  have same : path = other := by
    rcases covers_or_covers pathValid otherValid valid covers otherCovers with first | second
    · exact admits.apart path passes.mem_pending other held first
    · exact (admits.apart other held path passes.mem_pending second).symm
  exact passes.not_mem_rest admits (same ▸ member)

theorem isOpen_iff (valid : key.IsValid) :
    after.IsOpen key ↔
      (¬ Covers path key ∧ before.IsOpen key) ∨ ∃ child ∈ children, Covers child key := by
  unfold Stage.IsOpen
  rw [passes.pending, passes.queued]
  constructor
  · rintro ⟨other, member, covers⟩
    rcases List.mem_append.mp member with inRest | isChild
    · refine Or.inl ⟨?_, other, List.mem_cons_of_mem _ inRest, covers⟩
      exact fun pathCovers =>
        passes.not_covers_of_mem_rest admits sound inRest valid pathCovers covers
    · exact Or.inr ⟨other, isChild, covers⟩
  · rintro (⟨notCovered, other, member, covers⟩ | ⟨child, member, covers⟩)
    · rcases List.mem_cons.mp member with rfl | inRest
      · exact absurd covers notCovered
      · exact ⟨other, List.mem_append_left _ inRest, covers⟩
    · exact ⟨child, List.mem_append_right _ member, covers⟩

theorem distinct_pending : after.pending.Nodup := by
  have distinct := admits.distinct
  rw [passes.queued] at distinct
  rw [passes.pending]
  refine List.Nodup.append (List.nodup_cons.mp distinct).2 passes.distinct ?_
  intro other inRest isChild
  have valid := sound.valid_of_isDue (passes.due other isChild)
  have below := passes.covers_of_covers_child admits sound isChild valid (covers_refl other)
  exact passes.not_covers_of_mem_rest admits sound inRest valid (covers_of_isBelow below)
    (covers_refl other)

theorem apart : ∀ first ∈ after.pending, ∀ second ∈ after.pending, Covers first second →
    first = second := by
  intro first isFirst second isSecond covers
  rw [passes.pending, List.mem_append] at isFirst isSecond
  rcases isFirst with isFirst | isFirst
  · rcases isSecond with isSecond | isSecond
    · exact admits.apart first (passes.mem_of_mem_rest isFirst) second
        (passes.mem_of_mem_rest isSecond) covers
    · have valid := sound.valid_of_isDue (passes.due second isSecond)
      have below := passes.covers_of_covers_child admits sound isSecond valid (covers_refl second)
      exact absurd covers
        (passes.not_covers_of_mem_rest admits sound isFirst valid (covers_of_isBelow below))
  · rcases isSecond with isSecond | isSecond
    · have valid := passes.restValid admits sound isSecond
      have below := passes.covers_of_covers_child admits sound isFirst valid covers
      exact absurd (covers_refl second)
        (passes.not_covers_of_mem_rest admits sound isSecond valid (covers_of_isBelow below))
    · have valid := sound.valid_of_isDue (passes.due second isSecond)
      have pathValid := passes.pathValid admits sound
      obtain ⟨one, isOne, rfl⟩ := passes.below first isFirst
      obtain ⟨two, isTwo, rfl⟩ := passes.below second isSecond
      have fromOne := firstBelow_of_covers pathValid valid isOne covers
      have fromTwo := firstBelow_of_covers pathValid valid isTwo (covers_refl _)
      rw [← fromOne, fromTwo]

/-- The path itself is settled. -/
theorem not_isOpen : ¬ after.IsOpen path := by
  have valid := passes.pathValid admits sound
  rw [passes.isOpen_iff admits sound valid]
  rintro (⟨notCovered, _⟩ | ⟨child, member, covers⟩)
  · exact notCovered (covers_refl path)
  · have below := passes.covers_of_covers_child admits sound member valid covers
    rw [isBelow_irrefl] at below
    cases below

theorem mem_visited_iff (other : Path) :
    other ∈ after.visited ↔ sweep.IsDue other ∧ ¬ after.IsOpen other := by
  rw [passes.visited, List.mem_append, List.mem_singleton, admits.visited]
  constructor
  · rintro (⟨due, notOpen⟩ | rfl)
    · refine ⟨due, ?_⟩
      have valid := sound.valid_of_isDue due
      rw [passes.isOpen_iff admits sound valid]
      rintro (⟨_, stillOpen⟩ | ⟨child, member, covers⟩)
      · exact notOpen stillOpen
      · have below := passes.covers_of_covers_child admits sound member valid covers
        exact notOpen ⟨path, passes.mem_pending, covers_of_isBelow below⟩
    · exact ⟨passes.isDue admits, passes.not_isOpen admits sound⟩
  · rintro ⟨due, notOpen⟩
    rw [passes.isOpen_iff admits sound (sound.valid_of_isDue due), not_or] at notOpen
    by_cases covered : Covers path other
    · rcases covered with same | below
      · exact Or.inr same
      · exact absurd (passes.complete other due below) notOpen.2
    · exact Or.inl ⟨due, fun wasOpen => notOpen.1 ⟨covered, wasOpen⟩⟩

end Passes

/-- The invariant of a sweep is kept by every fetch. -/
theorem Admits.pass (admits : sweep.Admits before) (sound : sweep.Sound)
    (passes : sweep.Passes after before path rest children events) : sweep.Admits after := by
  have wasOpen : ∀ key, Covers path key → before.IsOpen key :=
    fun key covers => ⟨path, passes.mem_pending, covers⟩
  refine
    { distinct := passes.distinct_pending admits sound
      apart := passes.apart admits sound
      due := ?_
      unseen := ?_
      settled := ?_
      visited := passes.mem_visited_iff admits sound
      once := ?_
      valid := ?_ }
  · intro other member
    rw [passes.pending, List.mem_append] at member
    rcases member with inRest | isChild
    · exact admits.due other (passes.mem_of_mem_rest inRest)
    · exact passes.due other isChild
  · intro key valid isOpen
    rw [passes.told, CacheEvent.about_append]
    rcases (passes.isOpen_iff admits sound valid).mp isOpen with ⟨notCovered, wasPending⟩ | isChild
    · obtain ⟨same, silent⟩ := passes.elsewhere key valid notCovered
      obtain ⟨unseen, nothing⟩ := admits.unseen key valid wasPending
      rw [same, silent, unseen, nothing]
      exact ⟨rfl, rfl⟩
    · obtain ⟨child, member, covers⟩ := isChild
      have below := passes.covers_of_covers_child admits sound member valid covers
      obtain ⟨same, silent⟩ := passes.left key valid child member covers
      obtain ⟨unseen, nothing⟩ := admits.unseen key valid (wasOpen key (covers_of_isBelow below))
      rw [same, silent, unseen, nothing]
      exact ⟨rfl, rfl⟩
  · intro key valid notOpen
    rw [passes.isOpen_iff admits sound valid, not_or] at notOpen
    rw [passes.told, CacheEvent.about_append]
    by_cases covered : Covers path key
    · have apart : ∀ child ∈ children, ¬ Covers child key :=
        fun child member covers => notOpen.2 ⟨child, member, covers⟩
      obtain ⟨same, said⟩ := passes.settled key valid covered apart
      rw [same, said, (admits.unseen key valid (wasOpen key covered)).2]
      exact ⟨rfl, rfl⟩
    · obtain ⟨same, silent⟩ := passes.elsewhere key valid covered
      have wasSettled : ¬ before.IsOpen key := fun isOpen => notOpen.1 ⟨covered, isOpen⟩
      obtain ⟨settled, said⟩ := admits.settled key valid wasSettled
      rw [same, silent, settled, said, List.append_nil]
      exact ⟨rfl, rfl⟩
  · have fresh : path ∉ before.visited := by
      rw [admits.visited]
      exact fun settled => settled.2 (wasOpen path (covers_refl path))
    rw [passes.visited]
    refine List.Nodup.append admits.once (List.nodup_singleton path) ?_
    intro other visited isPath
    rw [List.mem_singleton.mp isPath] at visited
    exact fresh visited
  · intro event member
    rw [passes.told, List.mem_append] at member
    rcases member with old | new
    · exact admits.valid event old
    · exact passes.valid event new

/-- The first stage of a sweep, when its base is pending. -/
def opening (sweep : Sweep) : Stage :=
  { cached := sweep.before, pending := [sweep.base], visited := [], told := [] }

theorem admits_opening (sound : sweep.Sound) : sweep.Admits sweep.opening where
  distinct := List.nodup_singleton _
  apart := by
    intro first isFirst second isSecond _
    rw [List.mem_singleton.mp isFirst, List.mem_singleton.mp isSecond]
  due := by
    intro path member
    exact Or.inl (List.mem_singleton.mp member)
  unseen := fun _ _ _ => ⟨rfl, rfl⟩
  settled := by
    intro key valid notOpen
    have outside : ¬ Covers sweep.base key :=
      fun covers => notOpen ⟨sweep.base, List.mem_singleton.mpr rfl, covers⟩
    have notKept : ¬ sweep.Keeps key := fun kept => outside (kept.covers)
    have nothing := sound.before_of_not_kept notKept
    have missing := target_of_not_kept notKept
    refine ⟨nothing.trans missing.symm, ?_⟩
    exact (news_of_not_cached nothing missing).symm
  visited := by
    intro path
    constructor
    · intro member
      cases member
    · rintro ⟨due, notOpen⟩
      exact absurd ⟨sweep.base, List.mem_singleton.mpr rfl, due.covers⟩ notOpen
  once := List.nodup_nil
  valid := by
    intro event member
    cases member

/-- At the last stage every path is as it should be. -/
theorem Admits.settled_of_done (admits : sweep.Admits after) (done : after.pending = [])
    (valid : key.IsValid) :
    after.cached key = sweep.target key ∧ CacheEvent.about after.told key = sweep.news key := by
  apply admits.settled key valid
  rintro ⟨path, member, _⟩
  rw [done] at member
  cases member

/-- A sweep visits each path that is due, and once. -/
theorem Admits.mem_visited_of_done (admits : sweep.Admits after) (done : after.pending = []) :
    path ∈ after.visited ↔ sweep.IsDue path := by
  rw [admits.visited]
  constructor
  · exact And.left
  · intro due
    refine ⟨due, ?_⟩
    rintro ⟨other, member, _⟩
    rw [done] at member
    cases member

/-- There are no more fetches than nodes and the base. -/
theorem Admits.length_visited_le (admits : sweep.Admits after) :
    after.visited.length ≤ sweep.remote.nodes.keys.length + 1 := by
  have within : after.visited ⊆ sweep.base :: sweep.remote.nodes.keys := by
    intro path member
    rcases ((admits.visited path).mp member).1 with rfl | due
    · exact List.mem_cons_self
    · exact List.mem_cons_of_mem _ due.1
  exact (admits.once.subperm within).length_le

end Sweep

end WatchedTree
