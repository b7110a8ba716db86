import WatchedTree.Proofs.Mirror.Tracking

/-!
# A mirror under changes of its tree

A change consumes the watches that it fires, and each of them is heard: what was deleted is no
longer shown, and whatever else has changed is about to be fetched. A new node that no watch tells
of lies below a path that is no longer listed, or that never was.
-/
namespace WatchedTree

open WatchedTree.Path

/-- What the session is told when the watches are fired. -/
def Ensemble.told (ensemble : Ensemble) (id : SessionId)
    (fires : List (WatchKind × EventKind × Path)) : List (EventKind × Path) :=
  (fires.filter fun fire => ensemble.isArmed id fire.1 fire.2.2).map fun fire => fire.2

theorem Ensemble.mem_told {ensemble : Ensemble} {id : SessionId}
    {fires : List (WatchKind × EventKind × Path)} {kind : EventKind} {path : Path} :
    (kind, path) ∈ ensemble.told id fires ↔
      ∃ watch, (watch, kind, path) ∈ fires ∧ ensemble.isArmed id watch path = true := by
  rw [told, List.mem_map]
  constructor
  · rintro ⟨⟨watch, rest⟩, member, rfl⟩
    obtain ⟨fired, armed⟩ := List.mem_filter.mp member
    exact ⟨watch, fired, armed⟩
  · rintro ⟨watch, fired, armed⟩
    exact ⟨(watch, kind, path), List.mem_filter.mpr ⟨fired, armed⟩, rfl⟩

namespace Mirror

/-- The mirror over another tree. -/
def facing (mirror : Mirror) (remote : Ensemble) : Mirror := { mirror with remote }

/-- What a mirror makes of events: what was deleted is no longer shown, and everything else is about
to be fetched, the base in any case. -/
structure Hears (after before : Mirror) (told : List (EventKind × Path)) : Prop where
  base : after.base = before.base
  session : after.session = before.session
  remote : after.remote = before.remote
  pending : ∀ path, before.pending path → after.pending path
  fetched : ∀ kind path, (kind, path) ∈ told → Covers before.base path →
    (kind = .deleted → path = before.base) → after.pending path
  gone : ∀ gone path, (.deleted, gone) ∈ told → Covers before.base gone → Covers gone path →
    after.shown path = none
  kept : ∀ path, (∀ gone, (.deleted, gone) ∈ told → Covers before.base gone → ¬ Covers gone path) →
    after.shown path = before.shown path

variable {mirror after : Mirror} {path key : Path} {changed : Ensemble}
  {fires : List (WatchKind × EventKind × Path)} {watch : WatchKind} {kind : EventKind}

theorem Hears.unseen {told : List (EventKind × Path)} (hears : after.Hears mirror told)
    (unseen : mirror.shown key = none) : after.shown key = none := by
  by_cases isGone : ∃ gone, (EventKind.deleted, gone) ∈ told ∧ Covers mirror.base gone ∧
      Covers gone key
  · obtain ⟨gone, member, inScope, covers⟩ := isGone
    exact hears.gone gone key member inScope covers
  · have kept := hears.kept key fun gone member inScope covers =>
      isGone ⟨gone, member, inScope, covers⟩
    exact kept.trans unseen

/-- Events are heard one after the other. -/
theorem Hears.append {middle : Mirror} {first second : List (EventKind × Path)}
    (later : after.Hears middle second) (earlier : middle.Hears mirror first) :
    after.Hears mirror (first ++ second) where
  base := later.base.trans earlier.base
  session := later.session.trans earlier.session
  remote := later.remote.trans earlier.remote
  pending := fun key pending => later.pending key (earlier.pending key pending)
  fetched := by
    intro kind key member covers isBase
    rcases List.mem_append.mp member with inFirst | inSecond
    · exact later.pending key (earlier.fetched kind key inFirst covers isBase)
    · exact later.fetched kind key inSecond (earlier.base.symm ▸ covers)
        (fun isDeletion => (isBase isDeletion).trans earlier.base.symm)
  gone := by
    intro gone key member inScope covers
    rcases List.mem_append.mp member with inFirst | inSecond
    · exact later.unseen (earlier.gone gone key inFirst inScope covers)
    · exact later.gone gone key inSecond (earlier.base.symm ▸ inScope) covers
  kept := by
    intro key uncovered
    have afterFirst := earlier.kept key fun gone member inScope =>
      uncovered gone (List.mem_append_left _ member) inScope
    have afterSecond := later.kept key fun gone member inScope =>
      uncovered gone (List.mem_append_right _ member) (earlier.base ▸ inScope)
    exact afterSecond.trans afterFirst

/-! ## What a change leaves, and what it tells -/

section Fired

variable
  (sessions : changed.sessions = mirror.remote.sessions)
  (hears : after.Hears (mirror.facing (Ensemble.fireEach fires changed).2)
    (mirror.remote.told mirror.session fires))

include sessions hears in
theorem Hears.isArmed_iff :
    after.remote.isArmed after.session watch key = true ↔
      (∀ fire ∈ fires, ¬ (watch = fire.1 ∧ key = fire.2.2)) ∧
        mirror.remote.isArmed mirror.session watch key = true := by
  have same : changed.isArmed mirror.session watch key =
      mirror.remote.isArmed mirror.session watch key := by
    unfold Ensemble.isArmed Ensemble.session?
    rw [sessions]
  rw [hears.remote, hears.session, ← same]
  exact Ensemble.isArmed_fireEach fires

include hears in
theorem Hears.nodes : after.remote.nodes = changed.nodes := by
  rw [hears.remote]
  exact Ensemble.nodes_fireEach fires changed

include hears in
theorem Hears.keys : after.remote.nodes.keys = changed.nodes.keys := by
  rw [hears.nodes]

include hears in
theorem Hears.sound (sound : changed.Sound) : after.remote.Sound := by
  rw [hears.remote]
  exact sound.of_eq (Ensemble.nodes_fireEach _ _) (Ensemble.zxid_fireEach _ _)

include hears in
theorem Hears.rooted (rooted : changed.IsRooted) : after.remote.IsRooted := by
  intro other member
  rw [hears.keys] at member ⊢
  exact rooted other member

include hears in
/-- What no deletion covers is shown as before. -/
theorem Hears.shown_of_not_gone
    (kept : ∀ watch gone, (watch, EventKind.deleted, gone) ∈ fires → ¬ Covers gone key) :
    after.shown key = mirror.shown key := by
  apply hears.kept key
  intro gone told _ covers
  obtain ⟨watch, fired, _⟩ := Ensemble.mem_told.mp told
  exact kept watch gone fired covers

include sessions hears in
/-- A path that the change did not touch is current if and only if it was. -/
theorem Hears.isCurrent_iff
    (node : changed.nodes.get? key = mirror.remote.nodes.get? key)
    (untouched : ∀ fire ∈ fires, key ≠ fire.2.2)
    (shown : after.shown key = mirror.shown key) :
    after.IsCurrent key ↔ mirror.IsCurrent key := by
  have sameNode : after.remote.nodes.get? key = mirror.remote.nodes.get? key := by
    rw [hears.nodes, node]
  have armed : ∀ watch, after.remote.isArmed after.session watch key = true ↔
      mirror.remote.isArmed mirror.session watch key = true := by
    intro watch
    rw [hears.isArmed_iff sessions]
    exact and_iff_right fun fire member touched => untouched fire member touched.2
  have session : after.session = mirror.session := hears.session
  constructor
  · intro current
    refine current.of_same hears.base.symm session.symm sameNode.symm ?_ shown.symm
    intro watch afterArmed
    rw [session]
    exact (armed watch).mp afterArmed
  · intro current
    refine current.of_same hears.base session sameNode ?_ shown
    intro watch wasArmed
    rw [← session]
    exact (armed watch).mpr wasArmed

include hears in
/-- A watch that fires brings on a fetch, unless it tells of a deletion. -/
theorem Hears.pending_of_armed (fired : (watch, kind, key) ∈ fires)
    (armed : mirror.remote.isArmed mirror.session watch key = true)
    (covers : Covers mirror.base key) (isBase : kind = .deleted → key = mirror.base) :
    after.pending key :=
  hears.fetched kind key (Ensemble.mem_told.mpr ⟨watch, fired, armed⟩) covers isBase

include sessions hears in
/-- A watch that was fired is gone. -/
theorem Hears.not_isArmed (fired : (watch, kind, key) ∈ fires) :
    ¬ after.remote.isArmed after.session watch key = true := by
  rw [hears.isArmed_iff sessions]
  rintro ⟨untouched, _⟩
  exact untouched _ fired ⟨rfl, rfl⟩

include sessions hears in
theorem Hears.not_isCurrent_of_child (fired : (.child, kind, key) ∈ fires) :
    ¬ after.IsCurrent key :=
  fun current => hears.not_isArmed sessions fired current.listed

include sessions hears in
theorem Hears.not_isCurrent_of_data (fired : (.data, kind, key) ∈ fires)
    (notBase : key ≠ mirror.base) : ¬ after.IsCurrent key := by
  intro current
  have notAfterBase : key ≠ after.base := hears.base ▸ notBase
  exact hears.not_isArmed sessions fired (current.image notAfterBase).1

include sessions hears in
/-- A base that is missing, and whose watch was not fired, is still waited for. -/
theorem Hears.awaited (tracks : mirror.Tracks) (missing : mirror.base ∉ mirror.remote.nodes.keys)
    (untouched : ∀ fire ∈ fires, ¬ (WatchKind.data = fire.1 ∧ mirror.base = fire.2.2)) :
    after.pending after.base ∨ after.remote.isArmed after.session .data after.base = true := by
  rw [hears.base]
  rcases tracks.awaited missing with pending | armed
  · exact Or.inl (hears.pending _ pending)
  · exact Or.inr ((hears.isArmed_iff sessions).mpr ⟨untouched, armed⟩)

end Fired

/-! ## Creations -/

section Creation

variable {data : Payload} {owner : Int}
  (hears : after.Hears
    (mirror.facing (Ensemble.fireEach (Ensemble.creationFires path)
      (mirror.remote.grown path data owner)).2)
    (mirror.remote.told mirror.session (Ensemble.creationFires path)))

theorem eq_of_mem_creationFires {fire : WatchKind × EventKind × Path}
    (member : fire ∈ Ensemble.creationFires path) :
    fire = (.data, .created, path) ∨ fire = (.child, .childrenChanged, path.parent) := by
  simpa [Ensemble.creationFires] using member

theorem mem_creationFires :
    (.data, .created, path) ∈ Ensemble.creationFires path ∧
      (.child, .childrenChanged, path.parent) ∈ Ensemble.creationFires path := by
  simp [Ensemble.creationFires]

include hears

theorem Hears.mem_keys_of_created :
    key ∈ after.remote.nodes.keys ↔ key = path ∨ key ∈ mirror.remote.nodes.keys := by
  rw [hears.keys]
  exact Ensemble.mem_keys_grown

theorem Hears.shown_of_created (key : Path) : after.shown key = mirror.shown key := by
  apply hears.shown_of_not_gone
  intro watch gone fired
  rcases eq_of_mem_creationFires fired with same | same
  · cases same
  · cases same

theorem Hears.isCurrent_iff_of_created (notPath : key ≠ path) (notParent : key ≠ path.parent) :
    after.IsCurrent key ↔ mirror.IsCurrent key := by
  have sessions : (mirror.remote.grown path data owner).sessions = mirror.remote.sessions := rfl
  apply hears.isCurrent_iff sessions
  · rw [Ensemble.get?_grown, if_neg notPath, if_neg notParent]
  · intro fire member
    rcases eq_of_mem_creationFires member with rfl | rfl
    · exact notPath
    · exact notParent
  · exact hears.shown_of_created key

theorem Hears.not_isCurrent_of_created : ¬ after.IsCurrent path.parent := by
  have sessions : (mirror.remote.grown path data owner).sessions = mirror.remote.sessions := rfl
  exact hears.not_isCurrent_of_child sessions mem_creationFires.2

/-- The new node is fetched, if a watch told of it, and otherwise its parent is listed anew. -/
theorem Hears.fresh_of_created (tracks : mirror.Tracks)
    (missing : path ∉ mirror.remote.nodes.keys) (covers : Covers mirror.base path) :
    after.pending path ∨ after.IsDeferred path := by
  have fetched : mirror.remote.isArmed mirror.session .data path = true → after.pending path :=
    fun armed => hears.pending_of_armed mem_creationFires.1 armed covers
      (fun isDeletion => by cases isDeletion)
  have unlisted := hears.not_isCurrent_of_created
  by_cases isBase : path = mirror.base
  · rcases tracks.awaited (isBase ▸ missing) with pending | armed
    · exact Or.inl (hears.pending path (isBase ▸ pending))
    · exact Or.inl (fetched (isBase ▸ armed))
  · have notBase : path ≠ after.base := fun same => isBase (same.trans hears.base)
    have shown := hears.shown_of_created path
    rcases tracks.attended path with (current | pending | nothing) | deferred
    · exact absurd current.present missing
    · exact Or.inl (hears.pending path pending)
    · exact Or.inr ⟨notBase, shown.trans nothing.2, unlisted⟩
    · exact Or.inr ⟨notBase, shown.trans deferred.unseen, unlisted⟩

end Creation

theorem Tracks.created (tracks : mirror.Tracks) (valid : path.IsValid) {data : Payload}
    {owner : Int} (absent : mirror.remote.nodes.get? path = none)
    (parent : path.parent ∈ mirror.remote.nodes.keys)
    (hears : after.Hears
      (mirror.facing (Ensemble.fireEach (Ensemble.creationFires path)
        (mirror.remote.grown path data owner)).2)
      (mirror.remote.told mirror.session (Ensemble.creationFires path))) :
    after.Tracks := by
  have sessions : (mirror.remote.grown path data owner).sessions = mirror.remote.sessions := rfl
  have missing : path ∉ mirror.remote.nodes.keys := Table.get?_eq_none_iff.mp absent
  have grown : (mirror.remote.grown path data owner).Follows mirror.remote :=
    tracks.remote.grown valid data owner
  apply tracks.advance (hears.sound grown.sound)
    (hears.rooted (tracks.rooted.grown parent data owner))
  refine
    { base := hears.base
      attended := ?_
      shown := fun key unseen => Or.inl ((hears.shown_of_created key).trans unseen)
      fresh := ?_
      listed := ?_
      awaited := ?_
      watched := ?_ }
  · intro key attended
    rcases attended with current | pending
    · have notPath : key ≠ path := fun same => missing (same ▸ current.present)
      by_cases isParent : key = path.parent
      · subst isParent
        exact Or.inr (Or.inl (hears.pending_of_armed mem_creationFires.2 current.listed
          current.covered (fun isDeletion => by cases isDeletion)))
      · exact Or.inl ((hears.isCurrent_iff_of_created notPath isParent).mpr current)
    · exact Or.inr (Or.inl (hears.pending key pending))
  · intro key covers held isNew
    have isPath : key = path := (hears.mem_keys_of_created.mp held).resolve_right isNew
    subst isPath
    exact hears.fresh_of_created tracks missing (hears.base ▸ covers)
  · -- No list but that of the parent was read before, and it is not read yet.
    intro key held below _ current notCurrent
    exfalso
    by_cases isParent : key.parent = path.parent
    · exact hears.not_isCurrent_of_created (isParent ▸ current)
    · have keyNotRoot := ne_root_of_isBelow (hears.base ▸ tracks.base) below
      rcases hears.mem_keys_of_created.mp held with rfl | old
      · exact isParent rfl
      · have notPath : key.parent ≠ path :=
          fun same => missing (same ▸ tracks.rooted key old keyNotRoot)
        exact notCurrent ((hears.isCurrent_iff_of_created notPath isParent).mp current)
  · intro absentBase
    rw [hears.mem_keys_of_created, hears.base] at absentBase
    apply hears.awaited sessions tracks (fun held => absentBase (Or.inr held))
    intro fire member
    rcases eq_of_mem_creationFires member with rfl | rfl
    · exact fun touched => absentBase (Or.inl touched.2)
    · exact fun touched => by cases touched.1
  · intro key armed
    exact hears.mem_keys_of_created.mpr
      (Or.inr (tracks.watched key ((hears.isArmed_iff sessions).mp armed).2))

/-! ## New payloads -/

section Rewriting

variable {data : Payload}
  (hears : after.Hears
    (mirror.facing (Ensemble.fireEach [(.data, .dataChanged, path)]
      (mirror.remote.rewritten path data)).2)
    (mirror.remote.told mirror.session [(.data, .dataChanged, path)]))

include hears

theorem Hears.keys_of_rewritten : after.remote.nodes.keys = mirror.remote.nodes.keys := by
  rw [hears.keys]
  exact Ensemble.keys_rewritten

theorem Hears.shown_of_rewritten (key : Path) : after.shown key = mirror.shown key := by
  apply hears.shown_of_not_gone
  intro watch gone fired
  cases List.mem_singleton.mp fired

theorem Hears.isCurrent_iff_of_rewritten (notPath : key ≠ path) :
    after.IsCurrent key ↔ mirror.IsCurrent key := by
  have sessions : (mirror.remote.rewritten path data).sessions = mirror.remote.sessions := rfl
  apply hears.isCurrent_iff sessions
  · rw [Ensemble.get?_rewritten, if_neg notPath]
  · intro fire member
    rw [List.mem_singleton.mp member]
    exact notPath
  · exact hears.shown_of_rewritten key

theorem Hears.isListed_iff_of_rewritten :
    after.remote.isArmed after.session .child key = true ↔
      mirror.remote.isArmed mirror.session .child key = true := by
  have sessions : (mirror.remote.rewritten path data).sessions = mirror.remote.sessions := rfl
  rw [hears.isArmed_iff sessions]
  apply and_iff_right
  intro fire member touched
  rw [List.mem_singleton.mp member] at touched
  cases touched.1

/-- The base is not shown: a list of its children is all there is to keep up to date. -/
theorem Hears.isCurrent_base_iff_of_rewritten :
    after.IsCurrent mirror.base ↔ mirror.IsCurrent mirror.base := by
  constructor
  · intro current
    refine ⟨hears.base ▸ current.covered, hears.keys_of_rewritten ▸ current.present,
      hears.isListed_iff_of_rewritten.mp current.listed, ?_⟩
    intro notBase
    exact absurd rfl notBase
  · intro current
    refine ⟨hears.base.symm ▸ current.covered, hears.keys_of_rewritten.symm ▸ current.present,
      hears.isListed_iff_of_rewritten.mpr current.listed, ?_⟩
    intro notBase
    exact absurd hears.base.symm notBase

end Rewriting

theorem Tracks.rewritten (tracks : mirror.Tracks) {data : Payload}
    (present : path ∈ mirror.remote.nodes.keys)
    (hears : after.Hears
      (mirror.facing (Ensemble.fireEach [(.data, .dataChanged, path)]
        (mirror.remote.rewritten path data)).2)
      (mirror.remote.told mirror.session [(.data, .dataChanged, path)])) :
    after.Tracks := by
  have sessions : (mirror.remote.rewritten path data).sessions = mirror.remote.sessions := rfl
  have keys := hears.keys_of_rewritten
  have fired : (WatchKind.data, EventKind.dataChanged, path) ∈
      [(WatchKind.data, EventKind.dataChanged, path)] := List.mem_singleton.mpr rfl
  apply tracks.advance (hears.sound (tracks.remote.rewritten path data).sound)
    (hears.rooted (tracks.rooted.rewritten data))
  refine
    { base := hears.base
      attended := ?_
      shown := fun key unseen => Or.inl ((hears.shown_of_rewritten key).trans unseen)
      fresh := fun key _ held isNew => absurd (keys ▸ held) isNew
      listed := ?_
      awaited := ?_
      watched := ?_ }
  · intro key attended
    rcases attended with current | pending
    · by_cases isPath : key = path
      · by_cases isBase : key = mirror.base
        · subst isBase
          exact Or.inl (hears.isCurrent_base_iff_of_rewritten.mpr current)
        · subst isPath
          exact Or.inr (Or.inl (hears.pending_of_armed fired (current.image isBase).1
            current.covered (fun isDeletion => by cases isDeletion)))
      · exact Or.inl ((hears.isCurrent_iff_of_rewritten isPath).mpr current)
    · exact Or.inr (Or.inl (hears.pending key pending))
  · intro key _ _ _ current notCurrent
    exfalso
    by_cases isPath : key.parent = path
    · by_cases isBase : path = mirror.base
      · rw [isPath, isBase] at current notCurrent
        exact notCurrent (hears.isCurrent_base_iff_of_rewritten.mp current)
      · exact hears.not_isCurrent_of_data sessions fired isBase (isPath ▸ current)
    · exact notCurrent ((hears.isCurrent_iff_of_rewritten isPath).mp current)
  · intro absentBase
    rw [keys, hears.base] at absentBase
    apply hears.awaited sessions tracks absentBase
    intro fire member touched
    rw [List.mem_singleton.mp member] at touched
    exact absentBase (touched.2 ▸ present)
  · intro key armed
    rw [keys]
    exact tracks.watched key (hears.isListed_iff_of_rewritten.mp armed)

/-! ## Deletions -/

section Deletion

variable
  (hears : after.Hears
    (mirror.facing (Ensemble.fireEach (Ensemble.deletionFires path)
      (mirror.remote.pruned path)).2)
    (mirror.remote.told mirror.session (Ensemble.deletionFires path)))
  (bare : ∀ key ∈ mirror.remote.nodes.keys, isBelow path key = false)

theorem eq_of_mem_deletionFires {fire : WatchKind × EventKind × Path}
    (member : fire ∈ Ensemble.deletionFires path) :
    fire = (.data, .deleted, path) ∨ fire = (.child, .deleted, path) ∨
      fire = (.child, .childrenChanged, path.parent) := by
  simpa [Ensemble.deletionFires] using member

theorem mem_deletionFires :
    (.child, .deleted, path) ∈ Ensemble.deletionFires path ∧
      (.child, .childrenChanged, path.parent) ∈ Ensemble.deletionFires path := by
  simp [Ensemble.deletionFires]

include hears

theorem Hears.mem_keys_of_deleted :
    key ∈ after.remote.nodes.keys ↔ key ≠ path ∧ key ∈ mirror.remote.nodes.keys := by
  rw [hears.keys]
  exact Ensemble.mem_keys_pruned

theorem Hears.not_isCurrent_of_deleted : ¬ after.IsCurrent path.parent := by
  have sessions : (mirror.remote.pruned path).sessions = mirror.remote.sessions := rfl
  exact hears.not_isCurrent_of_child sessions mem_deletionFires.2

include bare

theorem Hears.shown_of_deleted (held : key ∈ mirror.remote.nodes.keys) (notPath : key ≠ path) :
    after.shown key = mirror.shown key := by
  apply hears.shown_of_not_gone
  intro watch gone fired covers
  have isPath : gone = path := by
    rcases eq_of_mem_deletionFires fired with same | same | same
    · exact congrArg (fun fire => fire.2.2) same
    · exact congrArg (fun fire => fire.2.2) same
    · cases same
  rw [isPath] at covers
  rcases covers with same | below
  · exact notPath same
  · rw [bare key held] at below
    cases below

theorem Hears.isCurrent_iff_of_deleted (held : key ∈ mirror.remote.nodes.keys)
    (notPath : key ≠ path) (notParent : key ≠ path.parent) :
    after.IsCurrent key ↔ mirror.IsCurrent key := by
  have sessions : (mirror.remote.pruned path).sessions = mirror.remote.sessions := rfl
  apply hears.isCurrent_iff sessions
  · rw [Ensemble.get?_pruned, if_neg notPath, if_neg notParent]
  · intro fire member
    rcases eq_of_mem_deletionFires member with rfl | rfl | rfl
    · exact notPath
    · exact notPath
    · exact notParent
  · exact hears.shown_of_deleted bare held notPath

omit bare in
/-- A base that is deleted, or is missing already, is fetched or waited for. -/
theorem Hears.awaited_of_deleted (tracks : mirror.Tracks)
    (present : path ∈ mirror.remote.nodes.keys) (absentBase : after.base ∉ after.remote.nodes.keys) :
    after.pending after.base ∨ after.remote.isArmed after.session .data after.base = true := by
  have sessions : (mirror.remote.pruned path).sessions = mirror.remote.sessions := rfl
  rw [hears.base, hears.mem_keys_of_deleted] at absentBase
  by_cases isBase : mirror.base = path
  · have baseFired : (WatchKind.child, EventKind.deleted, mirror.base) ∈
        Ensemble.deletionFires path := by
      rw [isBase]
      exact mem_deletionFires.1
    rw [hears.base]
    rcases tracks.attended mirror.base with (current | pending | nothing) | deferred
    · exact Or.inl (hears.pending_of_armed baseFired current.listed current.covered
        (fun _ => rfl))
    · exact Or.inl (hears.pending _ pending)
    · exact absurd (isBase ▸ present) (nothing.1 (covers_refl _))
    · exact absurd rfl deferred.notBase
  · apply hears.awaited sessions tracks (fun held => absentBase ⟨isBase, held⟩)
    intro fire member
    rcases eq_of_mem_deletionFires member with rfl | rfl | rfl
    · exact fun touched => isBase touched.2
    · exact fun touched => isBase touched.2
    · exact fun touched => by cases touched.1

end Deletion

theorem Tracks.deleted (tracks : mirror.Tracks) (valid : path.IsValid)
    (present : path ∈ mirror.remote.nodes.keys)
    (bare : ∀ key ∈ mirror.remote.nodes.keys, isBelow path key = false)
    (hears : after.Hears
      (mirror.facing (Ensemble.fireEach (Ensemble.deletionFires path)
        (mirror.remote.pruned path)).2)
      (mirror.remote.told mirror.session (Ensemble.deletionFires path))) :
    after.Tracks := by
  have sessions : (mirror.remote.pruned path).sessions = mirror.remote.sessions := rfl
  apply tracks.advance (hears.sound (tracks.remote.pruned path).sound)
    (hears.rooted (tracks.rooted.pruned tracks.remote valid bare))
  refine
    { base := hears.base
      attended := ?_
      shown := fun key unseen => Or.inl (hears.unseen unseen)
      fresh := fun key _ held isNew => absurd (hears.mem_keys_of_deleted.mp held).2 isNew
      listed := ?_
      awaited := hears.awaited_of_deleted tracks present
      watched := ?_ }
  · intro key attended
    rcases attended with current | pending
    · by_cases isPath : key = path
      · subst isPath
        have told : (EventKind.deleted, key) ∈
            mirror.remote.told mirror.session (Ensemble.deletionFires key) :=
          Ensemble.mem_told.mpr ⟨.child, mem_deletionFires.1, current.listed⟩
        exact Or.inr (Or.inr ⟨fun _ held => (hears.mem_keys_of_deleted.mp held).1 rfl,
          hears.gone key key told current.covered (covers_refl key)⟩)
      · by_cases isParent : key = path.parent
        · subst isParent
          exact Or.inr (Or.inl (hears.pending_of_armed mem_deletionFires.2 current.listed
            current.covered (fun isDeletion => by cases isDeletion)))
        · exact Or.inl
            ((hears.isCurrent_iff_of_deleted bare current.present isPath isParent).mpr current)
    · exact Or.inr (Or.inl (hears.pending key pending))
  · intro key _ _ _ current notCurrent
    exfalso
    obtain ⟨notPath, held⟩ := hears.mem_keys_of_deleted.mp current.present
    by_cases isParent : key.parent = path.parent
    · exact hears.not_isCurrent_of_deleted (isParent ▸ current)
    · exact notCurrent ((hears.isCurrent_iff_of_deleted bare held notPath isParent).mp current)
  · intro key armed
    obtain ⟨untouched, wasArmed⟩ := (hears.isArmed_iff sessions).mp armed
    have notPath : key ≠ path := fun same => untouched _ mem_deletionFires.1 ⟨rfl, same⟩
    exact hears.mem_keys_of_deleted.mpr ⟨notPath, tracks.watched key wasArmed⟩

end Mirror

end WatchedTree
