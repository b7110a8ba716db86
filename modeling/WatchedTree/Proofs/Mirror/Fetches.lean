import WatchedTree.Proofs.Mirror.Tracking

/-!
# A mirror under fetches

A fetch that finds its node makes the mirror current there and fetches what the list of children
has and the mirror does not show. A fetch that finds no node drops what its path covers.
-/
namespace WatchedTree

open WatchedTree.Path

namespace Mirror

variable {mirror after : Mirror} {path : Path}

/-- The reads of a fetch of a path: the tree stays, and watches are added at the path alone. -/
structure Reads (after before : Mirror) (path : Path) : Prop where
  base : after.base = before.base
  session : after.session = before.session
  tree : after.remote.SameTree before.remote
  armed : ∀ kind key, before.remote.isArmed before.session kind key = true →
    after.remote.isArmed after.session kind key = true
  others : ∀ kind key, key ≠ path → after.remote.isArmed after.session kind key = true →
    before.remote.isArmed before.session kind key = true
  pending : ∀ key, key ≠ path → before.pending key → after.pending key

theorem Reads.sound (reads : after.Reads mirror path) (sound : mirror.remote.Sound) :
    after.remote.Sound :=
  sound.of_eq reads.tree.1 reads.tree.2

theorem Reads.rooted (reads : after.Reads mirror path) (rooted : mirror.remote.IsRooted) :
    after.remote.IsRooted := by
  intro other member
  rw [reads.tree.1] at member ⊢
  exact rooted other member

/-- Away from the path of the fetch, what is shown as before is current if and only if it was. -/
theorem Reads.isCurrent_iff (reads : after.Reads mirror path) {key : Path} (other : key ≠ path)
    (shown : after.shown key = mirror.shown key) :
    after.IsCurrent key ↔ mirror.IsCurrent key := by
  have node : after.remote.nodes.get? key = mirror.remote.nodes.get? key := by
    rw [reads.tree.1]
  constructor
  · intro current
    refine current.of_same reads.base.symm reads.session.symm node.symm ?_ shown.symm
    intro watch armed
    rw [reads.session]
    exact reads.others watch key other armed
  · intro current
    refine current.of_same reads.base reads.session node ?_ shown
    intro watch armed
    rw [← reads.session]
    exact reads.armed watch key armed

/-- A fetch that found its node. -/
structure Finds (after before : Mirror) (path : Path) : Prop extends after.Reads before path where
  covered : Covers before.base path
  present : path ∈ before.remote.nodes.keys
  listed : after.remote.isArmed after.session .child path = true
  image : path ≠ before.base →
    after.remote.isArmed after.session .data path = true ∧
      after.shown path = (before.remote.nodes.get? path).map (imageOf path)
  kept : ∀ key ∈ before.remote.nodes.keys, key ≠ path → after.shown key = before.shown key
  unseen : ∀ key, key ≠ path → before.shown key = none → after.shown key = none
  wanted : ∀ key ∈ before.remote.nodes.keys, isBelow before.base key = true → key.parent = path →
    after.shown key = none → after.pending key

/-- The fetch itself was queued before, and is not any more. -/
theorem Finds.of_queued {pending : Path → Prop}
    (finds : after.Finds { mirror with pending } path)
    (left : ∀ key, key ≠ path → mirror.pending key → pending key) : after.Finds mirror path :=
  { finds with
    pending := fun key other queued => finds.pending key other (left key other queued) }

theorem Finds.isCurrent (finds : after.Finds mirror path) : after.IsCurrent path where
  covered := finds.base ▸ finds.covered
  present := finds.tree.1 ▸ finds.present
  listed := finds.listed
  image := by
    intro notBase
    rw [finds.tree.1]
    exact finds.image (finds.base ▸ notBase)

theorem Tracks.found (tracks : mirror.Tracks) (finds : after.Finds mirror path) :
    after.Tracks := by
  have keys : after.remote.nodes.keys = mirror.remote.nodes.keys := by rw [finds.tree.1]
  have elsewhere : ∀ key ∈ mirror.remote.nodes.keys, key ≠ path →
      (after.IsCurrent key ↔ mirror.IsCurrent key) :=
    fun key held other => finds.isCurrent_iff other (finds.kept key held other)
  apply tracks.advance (finds.sound tracks.remote) (finds.rooted tracks.rooted)
  refine
    { base := finds.base
      attended := ?_
      shown := ?_
      fresh := fun key _ held isNew => absurd (keys ▸ held) isNew
      listed := ?_
      awaited := ?_
      watched := ?_ }
  · intro key attended
    by_cases isPath : key = path
    · exact Or.inl (isPath ▸ finds.isCurrent)
    · rcases attended with current | pending
      · exact Or.inl ((elsewhere key current.present isPath).mpr current)
      · exact Or.inr (Or.inl (finds.pending key isPath pending))
  · intro key unseen
    by_cases isPath : key = path
    · exact Or.inr (isPath ▸ finds.isCurrent)
    · exact Or.inl (finds.unseen key isPath unseen)
  · intro key held below unseen current notCurrent
    rw [keys] at held
    rw [finds.base] at below
    by_cases isPath : key.parent = path
    · exact finds.wanted key held below isPath unseen
    · exact absurd ((elsewhere _ (keys ▸ current.present) isPath).mp current) notCurrent
  · intro absentBase
    rw [keys, finds.base] at absentBase
    have valid := Table.mem_keys_iff.mp finds.present
    obtain ⟨node, found⟩ := valid
    exact absurd (tracks.rooted.mem_of_covers tracks.base
      (tracks.remote.valid path node found) finds.covered finds.present) absentBase
  · intro key armed
    rw [keys]
    by_cases isPath : key = path
    · exact isPath ▸ finds.present
    · exact tracks.watched key (finds.others .child key isPath armed)

/-- A fetch that found no node. -/
structure Misses (after before : Mirror) (path : Path) : Prop extends
    after.Reads before path where
  absent : path ∉ before.remote.nodes.keys
  unlisted : after.remote.isArmed after.session .child path = true →
    before.remote.isArmed before.session .child path = true
  awaited : path = before.base → after.remote.isArmed after.session .data path = true
  gone : ∀ key, Covers path key → after.shown key = none
  kept : ∀ key, ¬ Covers path key → after.shown key = before.shown key

theorem Misses.of_queued {pending : Path → Prop}
    (misses : after.Misses { mirror with pending } path)
    (left : ∀ key, key ≠ path → mirror.pending key → pending key) : after.Misses mirror path :=
  { misses with
    pending := fun key other queued => misses.pending key other (left key other queued) }

theorem Tracks.missed (tracks : mirror.Tracks) (valid : path.IsValid)
    (misses : after.Misses mirror path) : after.Tracks := by
  have keys : after.remote.nodes.keys = mirror.remote.nodes.keys := by rw [misses.tree.1]
  have uncovered : ∀ key ∈ mirror.remote.nodes.keys, ¬ Covers path key := by
    intro key held covers
    obtain ⟨node, found⟩ := Table.mem_keys_iff.mp held
    exact misses.absent (tracks.rooted.mem_of_covers valid
      (tracks.remote.valid key node found) covers held)
  have elsewhere : ∀ key ∈ mirror.remote.nodes.keys,
      (after.IsCurrent key ↔ mirror.IsCurrent key) := by
    intro key held
    have other : key ≠ path := fun same => misses.absent (same ▸ held)
    exact misses.isCurrent_iff other (misses.kept key (uncovered key held))
  have unseen : ∀ key, mirror.shown key = none → after.shown key = none := by
    intro key unseen
    by_cases covers : Covers path key
    · exact misses.gone key covers
    · exact (misses.kept key covers).trans unseen
  apply tracks.advance (misses.sound tracks.remote) (misses.rooted tracks.rooted)
  refine
    { base := misses.base
      attended := ?_
      shown := fun key none => Or.inl (unseen key none)
      fresh := fun key _ held isNew => absurd (keys ▸ held) isNew
      listed := ?_
      awaited := ?_
      watched := ?_ }
  · intro key attended
    by_cases isPath : key = path
    · subst isPath
      exact Or.inr (Or.inr ⟨fun _ held => misses.absent (keys ▸ held),
        misses.gone key (covers_refl key)⟩)
    · rcases attended with current | pending
      · exact Or.inl ((elsewhere key current.present).mpr current)
      · exact Or.inr (Or.inl (misses.pending key isPath pending))
  · intro key _ _ _ current notCurrent
    exact absurd ((elsewhere _ (keys ▸ current.present)).mp current) notCurrent
  · intro absentBase
    rw [keys, misses.base] at absentBase
    rw [misses.base]
    by_cases isPath : mirror.base = path
    · exact Or.inr (isPath ▸ misses.awaited isPath.symm)
    · rcases tracks.awaited absentBase with pending | armed
      · exact Or.inl (misses.pending _ isPath pending)
      · exact Or.inr (misses.armed .data _ armed)
  · intro key armed
    rw [keys]
    by_cases isPath : key = path
    · subst isPath
      exact tracks.watched key (misses.unlisted armed)
    · exact tracks.watched key (misses.others .child key isPath armed)

/-- A mirror over the same nodes that shows and is told the same, and will fetch all that it has a
use for. -/
structure Waits (after before : Mirror) : Prop where
  base : after.base = before.base
  session : after.session = before.session
  nodes : after.remote.nodes = before.remote.nodes
  sessions : after.remote.sessions = before.remote.sessions
  shown : ∀ path, after.shown path = before.shown path
  pending : ∀ path, Covers before.base path → before.pending path → after.pending path
  within : ∀ path, before.shown path ≠ none → Covers before.base path

theorem Waits.isArmed (waits : after.Waits mirror) (kind : WatchKind) (path : Path) :
    after.remote.isArmed after.session kind path =
      mirror.remote.isArmed mirror.session kind path := by
  unfold Ensemble.isArmed Ensemble.session?
  rw [waits.sessions, waits.session]

theorem Waits.isCurrent_iff (waits : after.Waits mirror) :
    after.IsCurrent path ↔ mirror.IsCurrent path := by
  have node : after.remote.nodes.get? path = mirror.remote.nodes.get? path := by rw [waits.nodes]
  constructor
  · intro current
    refine current.of_same waits.base.symm waits.session.symm node.symm ?_ (waits.shown path).symm
    intro watch armed
    rw [waits.session, ← waits.isArmed]
    exact armed
  · intro current
    refine current.of_same waits.base waits.session node ?_ (waits.shown path)
    intro watch armed
    rw [← waits.session, waits.isArmed]
    exact armed

theorem Tracks.waited (tracks : mirror.Tracks) (waits : after.Waits mirror)
    (sound : after.remote.Sound) : after.Tracks := by
  have keys : after.remote.nodes.keys = mirror.remote.nodes.keys := by rw [waits.nodes]
  have rooted : after.remote.IsRooted := by
    intro other member
    rw [keys] at member ⊢
    exact tracks.rooted other member
  apply tracks.advance sound rooted
  refine
    { base := waits.base
      attended := ?_
      shown := fun key unseen => Or.inl ((waits.shown key).trans unseen)
      fresh := fun key _ held isNew => absurd (keys ▸ held) isNew
      listed := fun key _ _ _ current notCurrent => absurd (waits.isCurrent_iff.mp current) notCurrent
      awaited := ?_
      watched := ?_ }
  · intro key attended
    rcases attended with current | pending
    · exact Or.inl (waits.isCurrent_iff.mpr current)
    · by_cases covers : Covers mirror.base key
      · exact Or.inr (Or.inl (waits.pending key covers pending))
      · have unseen : mirror.shown key = none := by
          by_contra isShown
          exact covers (waits.within key isShown)
        refine Or.inr (Or.inr ⟨?_, (waits.shown key).trans unseen⟩)
        intro covered
        exact absurd (waits.base ▸ covered) covers
  · intro absentBase
    rw [keys, waits.base] at absentBase
    have sameArmed := waits.isArmed .data mirror.base
    rw [waits.base, sameArmed]
    rcases tracks.awaited absentBase with pending | armed
    · exact Or.inl (waits.pending _ (covers_refl _) pending)
    · exact Or.inr armed
  · intro key armed
    rw [waits.isArmed] at armed
    rw [keys]
    exact tracks.watched key armed

end Mirror

end WatchedTree
