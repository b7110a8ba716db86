import WatchedTree.Ensemble
import WatchedTree.Proofs.Path.Descent
import WatchedTree.Proofs.Table.Keys

/-!
# The tree of the ensemble

What the changes make of the tree, and why a stat that was read once stays in the past: no change
leaves a node at the same path with an older stat.
-/
namespace WatchedTree

namespace Stat

theorem isOlderThan_eq_false_iff {mine theirs : Stat} :
    mine.isOlderThan theirs = false ↔
      theirs.mzxid < mine.mzxid ∨ theirs.mzxid = mine.mzxid ∧ theirs.pzxid ≤ mine.pzxid := by
  simp only [isOlderThan, Bool.or_eq_false_iff, decide_eq_false_iff_not, Bool.and_eq_false_iff,
    beq_eq_false_iff_ne]
  omega

theorem not_isOlderThan_self (stat : Stat) : stat.isOlderThan stat = false :=
  isOlderThan_eq_false_iff.mpr (Or.inr ⟨rfl, Int.le_refl _⟩)

theorem not_isOlderThan_trans {first second third : Stat}
    (left : first.isOlderThan second = false) (right : second.isOlderThan third = false) :
    first.isOlderThan third = false := by
  rw [isOlderThan_eq_false_iff] at left right ⊢
  omega

/-- No change that the stat tells of came after a transaction. -/
structure IsUpTo (zxid : Int) (stat : Stat) : Prop where
  data : stat.mzxid ≤ zxid
  children : stat.pzxid ≤ zxid

theorem IsUpTo.mono {zxid later : Int} {stat : Stat} (upTo : stat.IsUpTo zxid)
    (le : zxid ≤ later) : stat.IsUpTo later :=
  ⟨Int.le_trans upTo.data le, Int.le_trans upTo.children le⟩

end Stat

namespace Ensemble

/-! ## Trees in good order -/

/-- Every path of the tree is valid and stands once, and no stat is ahead of its time. -/
structure Sound (ensemble : Ensemble) : Prop where
  distinct : ensemble.nodes.Distinct
  valid : ∀ path node, ensemble.nodes.get? path = some node → path.IsValid
  dated : ∀ path node, ensemble.nodes.get? path = some node → node.stat.IsUpTo ensemble.zxid

/-- The stat was read at a path at some time before. -/
structure Passed (ensemble : Ensemble) (path : Path) (stat : Stat) : Prop where
  upTo : stat.IsUpTo ensemble.zxid
  notAhead : ∀ node, ensemble.nodes.get? path = some node → node.stat.isOlderThan stat = false

theorem Sound.passed {ensemble : Ensemble} (sound : ensemble.Sound) {path : Path}
    {node : RemoteNode} (found : ensemble.nodes.get? path = some node) :
    ensemble.Passed path node.stat := by
  refine ⟨sound.dated path node found, ?_⟩
  intro other same
  rw [found] at same
  cases same
  exact node.stat.not_isOlderThan_self

theorem Sound.of_eq {ensemble after : Ensemble} (sound : ensemble.Sound)
    (nodes : after.nodes = ensemble.nodes) (zxid : after.zxid = ensemble.zxid) :
    after.Sound := by
  constructor
  · rw [nodes]
    exact sound.distinct
  · rw [nodes]
    exact sound.valid
  · rw [nodes, zxid]
    exact sound.dated

/-- The later tree: time went on, and what stands at a path is no older than what stood there. -/
structure Follows (after before : Ensemble) : Prop where
  sound : after.Sound
  zxid : before.zxid ≤ after.zxid
  nodes : ∀ path node, after.nodes.get? path = some node →
    before.zxid < node.stat.mzxid ∨
      ∃ old, before.nodes.get? path = some old ∧ node.stat.isOlderThan old.stat = false

theorem Sound.follows_of_eq {before after : Ensemble} (sound : before.Sound)
    (nodes : after.nodes = before.nodes) (zxid : after.zxid = before.zxid) :
    after.Follows before where
  sound := sound.of_eq nodes zxid
  zxid := Int.le_of_eq zxid.symm
  nodes := by
    intro path node found
    rw [nodes] at found
    exact Or.inr ⟨node, found, node.stat.not_isOlderThan_self⟩

theorem Follows.trans {first second third : Ensemble} (left : first.Follows second)
    (right : second.Follows third) : first.Follows third where
  sound := left.sound
  zxid := Int.le_trans right.zxid left.zxid
  nodes := by
    intro path node found
    rcases left.nodes path node found with later | ⟨middle, inMiddle, notOlder⟩
    · exact Or.inl (Int.lt_of_le_of_lt right.zxid later)
    · rcases right.nodes path middle inMiddle with later | ⟨old, present, middleNotOlder⟩
      · have dated := Stat.isOlderThan_eq_false_iff.mp notOlder
        exact Or.inl (by omega)
      · exact Or.inr ⟨old, present, Stat.not_isOlderThan_trans notOlder middleNotOlder⟩

theorem Passed.follows {before after : Ensemble} {path : Path} {stat : Stat}
    (passed : before.Passed path stat) (follows : after.Follows before) :
    after.Passed path stat := by
  refine ⟨passed.upTo.mono follows.zxid, ?_⟩
  intro node found
  rcases follows.nodes path node found with later | ⟨old, present, notOlder⟩
  · exact Stat.isOlderThan_eq_false_iff.mpr
      (Or.inl (Int.lt_of_le_of_lt passed.upTo.data later))
  · exact Stat.not_isOlderThan_trans notOlder (passed.notAhead old present)

/-! ## Firing watches -/

theorem fireEach_eq (fires : List (WatchKind × EventKind × Path)) (ensemble : Ensemble) :
    (fireEach fires ensemble).2 =
      { ensemble with sessions := (fireEach fires ensemble).2.sessions } := by
  induction fires generalizing ensemble with
  | nil => rfl
  | cons fire others inductionHypothesis =>
      obtain ⟨watch, kind, path⟩ := fire
      rw [fireEach]
      exact inductionHypothesis _

/-- Whatever is told belongs to one of the watches that were fired. -/
theorem exists_of_mem_fireEach {fires : List (WatchKind × EventKind × Path)}
    {ensemble : Ensemble} {delivery : Delivery} (member : delivery ∈ (fireEach fires ensemble).1) :
    ∃ fire ∈ fires, delivery.event = .ofNode fire.2.1 fire.2.2 := by
  induction fires generalizing ensemble with
  | nil => exact absurd member List.not_mem_nil
  | cons fire others inductionHypothesis =>
      obtain ⟨watch, kind, path⟩ := fire
      rw [fireEach] at member
      rcases List.mem_append.mp member with now | later
      · obtain ⟨session, _, rfl⟩ := List.mem_map.mp now
        exact ⟨_, List.mem_cons_self, rfl⟩
      · obtain ⟨other, isOther, same⟩ := inductionHypothesis later
        exact ⟨other, List.mem_cons_of_mem _ isOther, same⟩

@[simp] theorem nodes_fireEach (fires : List (WatchKind × EventKind × Path))
    (ensemble : Ensemble) : (fireEach fires ensemble).2.nodes = ensemble.nodes := by
  rw [fireEach_eq]

@[simp] theorem zxid_fireEach (fires : List (WatchKind × EventKind × Path))
    (ensemble : Ensemble) : (fireEach fires ensemble).2.zxid = ensemble.zxid := by
  rw [fireEach_eq]

/-! ## Changes -/

@[simp] theorem nodes_nextTransaction (ensemble : Ensemble) :
    ensemble.nextTransaction.nodes = ensemble.nodes := rfl

@[simp] theorem zxid_nextTransaction (ensemble : Ensemble) :
    ensemble.nextTransaction.zxid = ensemble.zxid + 1 := rfl

/-- The tree with a new node. -/
def grown (ensemble : Ensemble) (path : Path) (data : Payload) (owner : Int) : Ensemble :=
  { ensemble.nextTransaction with
    nodes := (ensemble.nodes.adjust path.parent (childListChanged (ensemble.zxid + 1) 1)).put path
      (freshNode (ensemble.zxid + 1) data owner) }

/-- The tree with another payload at a path. -/
def rewritten (ensemble : Ensemble) (path : Path) (data : Payload) : Ensemble :=
  { ensemble.nextTransaction with
    nodes := ensemble.nodes.adjust path (dataChanged (ensemble.zxid + 1) data) }

/-- The tree without a node. -/
def pruned (ensemble : Ensemble) (path : Path) : Ensemble :=
  { ensemble.nextTransaction with
    nodes := (ensemble.nodes.erase path).adjust path.parent
      (childListChanged (ensemble.zxid + 1) (-1)) }

/-- What creating a node fires. -/
def creationFires (path : Path) : List (WatchKind × EventKind × Path) :=
  [(.data, .created, path), (.child, .childrenChanged, path.parent)]

/-- What deleting a node fires. -/
def deletionFires (path : Path) : List (WatchKind × EventKind × Path) :=
  [(.data, .deleted, path), (.child, .deleted, path), (.child, .childrenChanged, path.parent)]

theorem create_cases (ensemble : Ensemble) (path : Path) (data : Payload) (owner : Int) :
    (∃ fault, ensemble.create path data owner = (.error fault, ensemble.nextTransaction)) ∨
      ensemble.nodes.get? path = none ∧ ensemble.nodes.contains path.parent = true ∧
        ensemble.create path data owner =
          (.ok (fireEach (creationFires path) (ensemble.grown path data owner)).1,
            (fireEach (creationFires path) (ensemble.grown path data owner)).2) := by
  unfold create
  simp only
  by_cases present : ensemble.nextTransaction.nodes.contains path = true
  · rw [if_pos present]
    exact Or.inl ⟨_, rfl⟩
  · rw [if_neg present]
    by_cases orphan : (!ensemble.nextTransaction.nodes.contains path.parent) = true
    · rw [if_pos orphan]
      exact Or.inl ⟨_, rfl⟩
    · rw [if_neg orphan]
      refine Or.inr ⟨?_, by simpa using orphan, rfl⟩
      exact Table.contains_eq_false_iff.mp (eq_false_of_ne_true present)

theorem setData_cases (ensemble : Ensemble) (path : Path) (data : Payload) :
    (∃ fault, ensemble.setData path data = (.error fault, ensemble.nextTransaction)) ∨
      ensemble.nodes.contains path = true ∧
        ensemble.setData path data =
          (.ok (fireEach [(.data, .dataChanged, path)] (ensemble.rewritten path data)).1,
            (fireEach [(.data, .dataChanged, path)] (ensemble.rewritten path data)).2) := by
  unfold setData
  simp only
  by_cases missing : (!ensemble.nextTransaction.nodes.contains path) = true
  · rw [if_pos missing]
    exact Or.inl ⟨_, rfl⟩
  · rw [if_neg missing]
    exact Or.inr ⟨by simpa using missing, rfl⟩

theorem delete_cases (ensemble : Ensemble) (path : Path) :
    (∃ fault, ensemble.delete path = (.error fault, ensemble.nextTransaction)) ∨
      (∀ key ∈ ensemble.nodes.keys, (path ++ ['/']).isPrefixOf key = false) ∧
        ensemble.nodes.contains path = true ∧
        ensemble.delete path =
          (.ok (fireEach (deletionFires path) (ensemble.pruned path)).1,
            (fireEach (deletionFires path) (ensemble.pruned path)).2) := by
  unfold delete
  simp only
  by_cases full : (ensemble.nextTransaction.nodes.keys.any
      fun key => (path ++ ['/']).isPrefixOf key) = true
  · rw [if_pos full]
    exact Or.inl ⟨_, rfl⟩
  · rw [if_neg full]
    by_cases missing : (!ensemble.nextTransaction.nodes.contains path) = true
    · rw [if_pos missing]
      exact Or.inl ⟨_, rfl⟩
    · rw [if_neg missing]
      refine Or.inr ⟨?_, by simpa using missing, rfl⟩
      intro key member
      by_contra isBelow
      exact full (List.any_eq_true.mpr ⟨key, member, eq_true_of_ne_false isBelow⟩)

theorem get?_grown (ensemble : Ensemble) (path other : Path) (data : Payload) (owner : Int) :
    (ensemble.grown path data owner).nodes.get? other =
      if other = path then some (freshNode (ensemble.zxid + 1) data owner)
      else if other = path.parent then
        (ensemble.nodes.get? other).map (childListChanged (ensemble.zxid + 1) 1)
      else ensemble.nodes.get? other := by
  rw [grown, Table.get?_put, Table.get?_adjust]
  by_cases isParent : other = path.parent <;> simp [isParent]

theorem get?_rewritten (ensemble : Ensemble) (path other : Path) (data : Payload) :
    (ensemble.rewritten path data).nodes.get? other =
      if other = path then
        (ensemble.nodes.get? other).map (dataChanged (ensemble.zxid + 1) data)
      else ensemble.nodes.get? other := by
  rw [rewritten, Table.get?_adjust]
  by_cases same : other = path <;> simp [same]

theorem get?_pruned (ensemble : Ensemble) (path other : Path) :
    (ensemble.pruned path).nodes.get? other =
      if other = path then none
      else if other = path.parent then
        (ensemble.nodes.get? other).map (childListChanged (ensemble.zxid + 1) (-1))
      else ensemble.nodes.get? other := by
  rw [pruned, Table.get?_adjust, Table.get?_erase, Table.get?_erase]
  by_cases isParent : other = path.parent
  · by_cases same : other = path
    · simp [← isParent, same]
    · simp [← isParent, same]
  · simp [isParent]

theorem mem_keys_grown {ensemble : Ensemble} {path other : Path} {data : Payload} {owner : Int} :
    other ∈ (ensemble.grown path data owner).nodes.keys ↔
      other = path ∨ other ∈ ensemble.nodes.keys := by
  rw [grown, Table.mem_keys_put, Table.keys_adjust]

theorem keys_rewritten {ensemble : Ensemble} {path : Path} {data : Payload} :
    (ensemble.rewritten path data).nodes.keys = ensemble.nodes.keys :=
  Table.keys_adjust _ _ _

theorem mem_keys_pruned {ensemble : Ensemble} {path other : Path} :
    other ∈ (ensemble.pruned path).nodes.keys ↔ other ≠ path ∧ other ∈ ensemble.nodes.keys := by
  rw [pruned, Table.keys_adjust, Table.mem_keys_erase]

/-! ## Transactions -/

/-- What a transaction may do to a stat: it leaves its number on the payload or on the child list, or
nothing changes. -/
inductive Ages (zxid : Int) (old new : Stat) : Prop where
  | rests (same : new = old)
  | rewritten (data : new.mzxid = zxid + 1) (children : new.pzxid = old.pzxid)
  | relisted (data : new.mzxid = old.mzxid) (children : new.pzxid = zxid + 1)

/-- The next transaction: every node there is was there before and has aged, or is new. -/
structure Advances (after before : Ensemble) : Prop where
  zxid : after.zxid = before.zxid + 1
  nodes : ∀ path node, after.nodes.get? path = some node →
    (∃ old, before.nodes.get? path = some old ∧ Ages before.zxid old.stat node.stat) ∨
      node.stat.mzxid = before.zxid + 1 ∧ node.stat.pzxid = before.zxid + 1

theorem advances_nextTransaction (ensemble : Ensemble) :
    ensemble.nextTransaction.Advances ensemble :=
  ⟨rfl, fun _ node found => Or.inl ⟨node, found, .rests rfl⟩⟩

theorem advances_grown (ensemble : Ensemble) (path : Path) (data : Payload) (owner : Int) :
    (ensemble.grown path data owner).Advances ensemble := by
  refine ⟨rfl, ?_⟩
  intro other node found
  rw [get?_grown] at found
  by_cases isNew : other = path
  · rw [if_pos isNew] at found
    cases found
    exact Or.inr ⟨rfl, rfl⟩
  · rw [if_neg isNew] at found
    by_cases isParent : other = path.parent
    · rw [if_pos isParent, Option.map_eq_some_iff] at found
      obtain ⟨old, present, rfl⟩ := found
      exact Or.inl ⟨old, present, .relisted rfl rfl⟩
    · rw [if_neg isParent] at found
      exact Or.inl ⟨node, found, .rests rfl⟩

theorem advances_rewritten (ensemble : Ensemble) (path : Path) (data : Payload) :
    (ensemble.rewritten path data).Advances ensemble := by
  refine ⟨rfl, ?_⟩
  intro other node found
  rw [get?_rewritten] at found
  by_cases same : other = path
  · rw [if_pos same, Option.map_eq_some_iff] at found
    obtain ⟨old, present, rfl⟩ := found
    exact Or.inl ⟨old, present, .rewritten rfl rfl⟩
  · rw [if_neg same] at found
    exact Or.inl ⟨node, found, .rests rfl⟩

theorem advances_pruned (ensemble : Ensemble) (path : Path) :
    (ensemble.pruned path).Advances ensemble := by
  refine ⟨rfl, ?_⟩
  intro other node found
  rw [get?_pruned] at found
  by_cases gone : other = path
  · rw [if_pos gone] at found
    cases found
  · rw [if_neg gone] at found
    by_cases isParent : other = path.parent
    · rw [if_pos isParent, Option.map_eq_some_iff] at found
      obtain ⟨old, present, rfl⟩ := found
      exact Or.inl ⟨old, present, .relisted rfl rfl⟩
    · rw [if_neg isParent] at found
      exact Or.inl ⟨node, found, .rests rfl⟩

theorem Advances.fireEach {before after : Ensemble} (advances : after.Advances before)
    (fires : List (WatchKind × EventKind × Path)) :
    (fireEach fires after).2.Advances before where
  zxid := (zxid_fireEach fires after).trans advances.zxid
  nodes := (nodes_fireEach fires after).symm ▸ advances.nodes

theorem advances_create (ensemble : Ensemble) (path : Path) (data : Payload) (owner : Int) :
    (ensemble.create path data owner).2.Advances ensemble := by
  rcases ensemble.create_cases path data owner with ⟨fault, refused⟩ | ⟨_, _, done⟩
  · rw [refused]
    exact advances_nextTransaction ensemble
  · rw [done]
    exact (advances_grown ensemble path data owner).fireEach _

theorem advances_setData (ensemble : Ensemble) (path : Path) (data : Payload) :
    (ensemble.setData path data).2.Advances ensemble := by
  rcases ensemble.setData_cases path data with ⟨fault, refused⟩ | ⟨_, done⟩
  · rw [refused]
    exact advances_nextTransaction ensemble
  · rw [done]
    exact (advances_rewritten ensemble path data).fireEach _

theorem advances_delete (ensemble : Ensemble) (path : Path) :
    (ensemble.delete path).2.Advances ensemble := by
  rcases ensemble.delete_cases path with ⟨fault, refused⟩ | ⟨_, _, done⟩
  · rw [refused]
    exact advances_nextTransaction ensemble
  · rw [done]
    exact (advances_pruned ensemble path).fireEach _

/-- A replaced payload leaves every stat as it is. -/
theorem get?_of_replaceSilently {ensemble : Ensemble} {path other : Path} {data : Payload}
    {node : RemoteNode} (found : (ensemble.replaceSilently path data).nodes.get? other = some node) :
    ∃ old, ensemble.nodes.get? other = some old ∧ node.stat = old.stat := by
  rw [replaceSilently, Table.get?_adjust] at found
  by_cases isPath : other = path
  · rw [if_pos isPath, Option.map_eq_some_iff] at found
    obtain ⟨old, present, rfl⟩ := found
    exact ⟨old, isPath ▸ present, rfl⟩
  · rw [if_neg isPath] at found
    exact ⟨node, found, rfl⟩

/-! ## Changes lead on in time -/

/-- The next transaction leads on in time. -/
theorem Sound.follows {before after : Ensemble} (sound : before.Sound)
    (advances : after.Advances before) (distinct : after.nodes.Distinct)
    (valid : ∀ path ∈ after.nodes.keys, path.IsValid) : after.Follows before := by
  have zxid := advances.zxid
  refine ⟨⟨distinct, ?_, ?_⟩, by omega, ?_⟩
  · intro path node found
    exact valid path (Table.mem_keys_iff.mpr ⟨node, found⟩)
  · intro path node found
    rcases advances.nodes path node found with ⟨old, present, ages⟩ | ⟨data, children⟩
    · have dated := sound.dated path old present
      have dataUpTo := dated.data
      have childrenUpTo := dated.children
      cases ages with
      | rests same => exact same ▸ dated.mono (by omega)
      | rewritten data children => exact ⟨by omega, by omega⟩
      | relisted data children => exact ⟨by omega, by omega⟩
    · exact ⟨by omega, by omega⟩
  · intro path node found
    rcases advances.nodes path node found with ⟨old, present, ages⟩ | ⟨data, _⟩
    · have childrenUpTo := (sound.dated path old present).children
      cases ages with
      | rests same => exact Or.inr ⟨old, present, same ▸ old.stat.not_isOlderThan_self⟩
      | rewritten data children => exact Or.inl (by omega)
      | relisted data children =>
          have notOlder : node.stat.isOlderThan old.stat = false :=
            Stat.isOlderThan_eq_false_iff.mpr (Or.inr ⟨data.symm, by omega⟩)
          exact Or.inr ⟨old, present, notOlder⟩
    · exact Or.inl (by omega)

theorem Sound.mem_valid {ensemble : Ensemble} (sound : ensemble.Sound) {path : Path}
    (member : path ∈ ensemble.nodes.keys) : path.IsValid := by
  obtain ⟨node, found⟩ := Table.mem_keys_iff.mp member
  exact sound.valid path node found

theorem Sound.nextTransaction {ensemble : Ensemble} (sound : ensemble.Sound) :
    ensemble.nextTransaction.Follows ensemble :=
  sound.follows (advances_nextTransaction ensemble) sound.distinct fun _ => sound.mem_valid

theorem Sound.grown {ensemble : Ensemble} (sound : ensemble.Sound) {path : Path}
    (valid : path.IsValid) (data : Payload) (owner : Int) :
    (ensemble.grown path data owner).Follows ensemble := by
  apply sound.follows (advances_grown ensemble path data owner)
    ((sound.distinct.adjust _ _).put _ _)
  intro other member
  rcases mem_keys_grown.mp member with rfl | old
  · exact valid
  · exact sound.mem_valid old

theorem Sound.rewritten {ensemble : Ensemble} (sound : ensemble.Sound) (path : Path)
    (data : Payload) : (ensemble.rewritten path data).Follows ensemble :=
  sound.follows (advances_rewritten ensemble path data) (sound.distinct.adjust _ _)
    fun _ member => sound.mem_valid (keys_rewritten ▸ member)

theorem Sound.pruned {ensemble : Ensemble} (sound : ensemble.Sound) (path : Path) :
    (ensemble.pruned path).Follows ensemble :=
  sound.follows (advances_pruned ensemble path) ((sound.distinct.erase _).adjust _ _)
    fun _ member => sound.mem_valid (mem_keys_pruned.mp member).2

theorem Follows.fireEach {before after : Ensemble} (follows : after.Follows before)
    (fires : List (WatchKind × EventKind × Path)) :
    (fireEach fires after).2.Follows before where
  sound := follows.sound.of_eq (nodes_fireEach _ _) (zxid_fireEach _ _)
  zxid := (zxid_fireEach fires after).symm ▸ follows.zxid
  nodes := (nodes_fireEach fires after).symm ▸ follows.nodes

theorem Sound.create {ensemble : Ensemble} (sound : ensemble.Sound) {path : Path}
    (valid : path.IsValid) (data : Payload) (owner : Int) :
    (ensemble.create path data owner).2.Follows ensemble := by
  rcases ensemble.create_cases path data owner with ⟨fault, refused⟩ | ⟨_, _, done⟩
  · rw [refused]
    exact sound.nextTransaction
  · rw [done]
    exact (sound.grown valid data owner).fireEach _

theorem Sound.setData {ensemble : Ensemble} (sound : ensemble.Sound) (path : Path)
    (data : Payload) : (ensemble.setData path data).2.Follows ensemble := by
  rcases ensemble.setData_cases path data with ⟨fault, refused⟩ | ⟨_, done⟩
  · rw [refused]
    exact sound.nextTransaction
  · rw [done]
    exact (sound.rewritten path data).fireEach _

theorem Sound.delete {ensemble : Ensemble} (sound : ensemble.Sound) (path : Path) :
    (ensemble.delete path).2.Follows ensemble := by
  rcases ensemble.delete_cases path with ⟨fault, refused⟩ | ⟨_, _, done⟩
  · rw [refused]
    exact sound.nextTransaction
  · rw [done]
    exact (sound.pruned path).fireEach _

theorem Sound.replaceSilently {ensemble : Ensemble} (sound : ensemble.Sound) (path : Path)
    (data : Payload) : (ensemble.replaceSilently path data).Follows ensemble := by
  refine ⟨⟨sound.distinct.adjust _ _, ?_, ?_⟩, Int.le_refl _, ?_⟩
  · intro other node found
    obtain ⟨old, present, _⟩ := get?_of_replaceSilently found
    exact sound.valid other old present
  · intro other node found
    obtain ⟨old, present, sameStat⟩ := get?_of_replaceSilently found
    exact sameStat ▸ sound.dated other old present
  · intro other node found
    obtain ⟨old, present, sameStat⟩ := get?_of_replaceSilently found
    exact Or.inr ⟨old, present, sameStat ▸ old.stat.not_isOlderThan_self⟩

end Ensemble

end WatchedTree
