import WatchedTree.Node
import WatchedTree.Proofs.Ensemble.Children
import WatchedTree.Proofs.Ensemble.Watches

/-!
# A mirror that keeps track of its tree

A mirror is current at a path if it shows what stands there and will be told of the next change. It
attends to a path if it is current there, or is about to fetch it, or if there is nothing to show.
A node it does not attend to is one that it does not show, below a path that has yet to be listed.
-/
namespace WatchedTree

/-- What is shown of the payloads and stats below a base, and what is about to be fetched. -/
structure Mirror where
  base : Path
  session : SessionId
  remote : Ensemble
  shown : Path → Option Node
  pending : Path → Prop

namespace Mirror

open WatchedTree.Path

/-- A remote node as a mirror shows it. -/
def imageOf (path : Path) (node : RemoteNode) : Node :=
  { path, stat := some node.stat, data := some node.data }

/-- The node is listed and, unless it is the base, shown as it is; a change of it will be told. -/
structure IsCurrent (mirror : Mirror) (path : Path) : Prop where
  covered : Covers mirror.base path
  present : path ∈ mirror.remote.nodes.keys
  listed : mirror.remote.isArmed mirror.session .child path = true
  image : path ≠ mirror.base →
    mirror.remote.isArmed mirror.session .data path = true ∧
      mirror.shown path = (mirror.remote.nodes.get? path).map (imageOf path)

def IsAttended (mirror : Mirror) (path : Path) : Prop :=
  mirror.IsCurrent path ∨ mirror.pending path ∨
    (Covers mirror.base path → path ∉ mirror.remote.nodes.keys) ∧ mirror.shown path = none

/-- Nothing is shown, and the next list of the parent's children will find the path. -/
structure IsDeferred (mirror : Mirror) (path : Path) : Prop where
  notBase : path ≠ mirror.base
  unseen : mirror.shown path = none
  unlisted : ¬ mirror.IsCurrent path.parent

structure Tracks (mirror : Mirror) : Prop where
  base : mirror.base.IsValid
  remote : mirror.remote.Sound
  rooted : mirror.remote.IsRooted
  attended : ∀ path, mirror.IsAttended path ∨ mirror.IsDeferred path
  /-- A base that is missing will be told of. -/
  awaited : mirror.base ∉ mirror.remote.nodes.keys →
    mirror.pending mirror.base ∨ mirror.remote.isArmed mirror.session .data mirror.base = true
  watched : ∀ path, mirror.remote.isArmed mirror.session .child path = true →
    path ∈ mirror.remote.nodes.keys

variable {mirror after : Mirror} {path : Path}

/-! ## Mirrors at rest -/

/-- With nothing to fetch, every node at the base and below is current. -/
theorem Tracks.isCurrent_of_idle (tracks : mirror.Tracks) (idle : ∀ path, ¬ mirror.pending path)
    (valid : path.IsValid) (covers : Covers mirror.base path)
    (present : path ∈ mirror.remote.nodes.keys) : mirror.IsCurrent path := by
  revert present
  apply covers_induction (motive := fun path =>
    path ∈ mirror.remote.nodes.keys → mirror.IsCurrent path) tracks.base
  · intro present
    rcases tracks.attended mirror.base with (current | pending | nothing) | deferred
    · exact current
    · exact absurd pending (idle _)
    · exact absurd present (nothing.1 (covers_refl _))
    · exact absurd rfl deferred.notBase
  · intro upper segment upperValid isSegment upperCovered inductionHypothesis present
    have above := tracks.rooted _ present (child_ne_root upperValid isSegment)
    rw [parent_child upperValid isSegment] at above
    rcases tracks.attended (upper.child segment) with (current | pending | nothing) | deferred
    · exact current
    · exact absurd pending (idle _)
    · have covered := covers_child tracks.base upperValid isSegment upperCovered
      exact absurd present (nothing.1 covered)
    · have unlisted := deferred.unlisted
      rw [parent_child upperValid isSegment] at unlisted
      exact absurd (inductionHypothesis above) unlisted
  · exact valid
  · exact covers

/-- With nothing to fetch, exactly the nodes below the base are shown, each as it is. -/
theorem Tracks.shown_of_idle (tracks : mirror.Tracks) (idle : ∀ path, ¬ mirror.pending path)
    (within : ∀ path, mirror.shown path ≠ none → isBelow mirror.base path = true)
    (path : Path) :
    mirror.shown path =
      if isBelow mirror.base path = true then
        (mirror.remote.nodes.get? path).map (imageOf path)
      else none := by
  by_cases below : isBelow mirror.base path = true
  · rw [if_pos below]
    cases found : mirror.remote.nodes.get? path with
    | some node =>
        have present := Table.mem_keys_iff.mpr ⟨node, found⟩
        have valid := tracks.remote.valid path node found
        have current := tracks.isCurrent_of_idle idle valid (covers_of_isBelow below) present
        have image := (current.image (Ne.symm (ne_of_isBelow below))).2
        rw [image, found]
    | none =>
        by_contra isShown
        rcases tracks.attended path with (current | pending | nothing) | deferred
        · obtain ⟨node, present⟩ := Table.mem_keys_iff.mp current.present
          rw [found] at present
          cases present
        · exact idle path pending
        · exact isShown nothing.2
        · exact isShown deferred.unseen
  · rw [if_neg below]
    by_contra isShown
    exact below (within path isShown)

/-! ## Steps of a mirror -/

/-- Where nothing has changed a path stays current. -/
theorem IsCurrent.of_same (current : mirror.IsCurrent path) (base : after.base = mirror.base)
    (session : after.session = mirror.session)
    (node : after.remote.nodes.get? path = mirror.remote.nodes.get? path)
    (armed : ∀ kind, mirror.remote.isArmed mirror.session kind path = true →
      after.remote.isArmed mirror.session kind path = true)
    (shown : after.shown path = mirror.shown path) : after.IsCurrent path where
  covered := base ▸ current.covered
  present := by
    obtain ⟨found, present⟩ := Table.mem_keys_iff.mp current.present
    exact Table.mem_keys_iff.mpr ⟨found, node.trans present⟩
  listed := by
    rw [session]
    exact armed .child current.listed
  image := by
    intro notBase
    obtain ⟨watched, image⟩ := current.image (base ▸ notBase)
    rw [session, node, shown]
    exact ⟨armed .data watched, image⟩

/-- A step after which a mirror still keeps track: it goes on attending to what it attended to,
shows nothing new but what is current, and fetches what a path that becomes current lists. -/
structure Advances (after before : Mirror) : Prop where
  base : after.base = before.base
  attended : ∀ path, before.IsCurrent path ∨ before.pending path → after.IsAttended path
  shown : ∀ path, before.shown path = none → after.shown path = none ∨ after.IsCurrent path
  fresh : ∀ path, Covers after.base path → path ∈ after.remote.nodes.keys →
    path ∉ before.remote.nodes.keys → after.pending path ∨ after.IsDeferred path
  listed : ∀ path, path ∈ after.remote.nodes.keys → isBelow after.base path = true →
    after.shown path = none → after.IsCurrent path.parent → ¬ before.IsCurrent path.parent →
      after.pending path
  awaited : after.base ∉ after.remote.nodes.keys →
    after.pending after.base ∨ after.remote.isArmed after.session .data after.base = true
  watched : ∀ path, after.remote.isArmed after.session .child path = true →
    path ∈ after.remote.nodes.keys

theorem Tracks.advance (tracks : mirror.Tracks) (remote : after.remote.Sound)
    (rooted : after.remote.IsRooted) (advances : after.Advances mirror) : after.Tracks where
  base := advances.base ▸ tracks.base
  remote := remote
  rooted := rooted
  awaited := advances.awaited
  watched := advances.watched
  attended := by
    intro path
    rcases tracks.attended path with (current | pending | nothing) | deferred
    · exact Or.inl (advances.attended path (Or.inl current))
    · exact Or.inl (advances.attended path (Or.inr pending))
    · rcases advances.shown path nothing.2 with unseen | current
      · by_cases present : Covers after.base path ∧ path ∈ after.remote.nodes.keys
        · have missing := nothing.1 (advances.base ▸ present.1)
          rcases advances.fresh path present.1 present.2 missing with pending | deferred
          · exact Or.inl (Or.inr (Or.inl pending))
          · exact Or.inr deferred
        · exact Or.inl (Or.inr (Or.inr ⟨fun covers held => present ⟨covers, held⟩, unseen⟩))
      · exact Or.inl (Or.inl current)
    · rcases advances.shown path deferred.unseen with unseen | current
      · have notBase : path ≠ after.base := advances.base ▸ deferred.notBase
        by_cases parent : after.IsCurrent path.parent
        · by_cases present : Covers after.base path ∧ path ∈ after.remote.nodes.keys
          · have below : isBelow after.base path = true :=
              present.1.resolve_left notBase
            exact Or.inl (Or.inr (Or.inl
              (advances.listed path present.2 below unseen parent deferred.unlisted)))
          · exact Or.inl (Or.inr (Or.inr ⟨fun covers held => present ⟨covers, held⟩, unseen⟩))
        · exact Or.inr ⟨notBase, unseen, parent⟩
      · exact Or.inl (Or.inl current)

end Mirror

end WatchedTree
