import Mathlib.Data.Prod.Lex
import WatchedTree.Proofs.Ensemble.Tree
import WatchedTree.Proofs.Ensemble.Watches

/-!
# Remote time

A stat names the transactions of the last change of the payload and of the child list. At one path
these two numbers, compared in this order, are a clock: whatever befalls the tree, a stat that is
read later is the same or stands later. Paths need not be valid, and a node may go and come back.
-/
namespace WatchedTree

namespace Stat

variable {mine theirs first second third : Stat}

/-- Where a stat stands in remote time. -/
def instant (stat : Stat) : Int ×ₗ Int := toLex (stat.mzxid, stat.pzxid)

theorem isOlderThan_iff : mine.isOlderThan theirs = true ↔ mine.instant < theirs.instant := by
  simp [isOlderThan, instant, Prod.Lex.toLex_lt_toLex]

theorem not_isOlderThan_iff : mine.isOlderThan theirs = false ↔ theirs.instant ≤ mine.instant := by
  rw [← not_lt, ← isOlderThan_iff, Bool.not_eq_true]

/-- The second stat is the first one, or stands later. -/
def LeadsTo (first second : Stat) : Prop := first = second ∨ first.instant < second.instant

theorem LeadsTo.le (leads : first.LeadsTo second) : first.instant ≤ second.instant := by
  rcases leads with rfl | later
  · exact le_refl _
  · exact later.le

theorem LeadsTo.trans (left : first.LeadsTo second) (right : second.LeadsTo third) :
    first.LeadsTo third := by
  rcases left with rfl | later
  · exact right
  · exact Or.inr (later.trans_le right.le)

theorem leadsTo_of_lt (later : first.mzxid < second.mzxid) : first.LeadsTo second :=
  Or.inr (Prod.Lex.toLex_lt_toLex.mpr (Or.inl later))

end Stat

namespace Ensemble

variable {ensemble before after first second third : Ensemble} {path : Path}

/-- The stat at a path. -/
def stat? (ensemble : Ensemble) (path : Path) : Option Stat :=
  (ensemble.nodes.get? path).map (·.stat)

theorem stat?_eq_some_iff {stat : Stat} :
    ensemble.stat? path = some stat ↔
      ∃ node, ensemble.nodes.get? path = some node ∧ node.stat = stat := Option.map_eq_some_iff

theorem SameTree.stat? (same : after.SameTree before) (path : Path) :
    after.stat? path = before.stat? path := by
  rw [Ensemble.stat?, same.1]
  rfl

/-- No stat is ahead of its time. -/
def IsDated (ensemble : Ensemble) : Prop :=
  ∀ path stat, ensemble.stat? path = some stat → stat.IsUpTo ensemble.zxid

/-- The later tree: what stands at a path has come since, or was led to by what stood there. -/
structure Evolves (after before : Ensemble) : Prop where
  dated : after.IsDated
  zxid : before.zxid ≤ after.zxid
  stats : ∀ path new, after.stat? path = some new →
    before.zxid < new.mzxid ∨ ∃ old, before.stat? path = some old ∧ old.LeadsTo new

theorem Evolves.leadsTo (evolves : after.Evolves before) (dated : before.IsDated)
    {old new : Stat} (stood : before.stat? path = some old) (stands : after.stat? path = some new) :
    old.LeadsTo new := by
  rcases evolves.stats path new stands with since | ⟨known, wasThere, leads⟩
  · exact Stat.leadsTo_of_lt (Int.lt_of_le_of_lt (dated path old stood).data since)
  · rw [stood] at wasThere
    cases wasThere
    exact leads

theorem Evolves.trans (left : second.Evolves first) (right : third.Evolves second) :
    third.Evolves first where
  dated := right.dated
  zxid := left.zxid.trans right.zxid
  stats := by
    intro path new stands
    rcases right.stats path new stands with since | ⟨middle, stood, leads⟩
    · exact Or.inl (Int.lt_of_le_of_lt left.zxid since)
    · rcases left.stats path middle stood with since | ⟨old, wasThere, earlier⟩
      · have later : middle.mzxid ≤ new.mzxid := Prod.Lex.monotone_fst _ _ leads.le
        exact Or.inl (Int.lt_of_lt_of_le since later)
      · exact Or.inr ⟨old, wasThere, earlier.trans leads⟩

/-- A tree with the same stats, at the same time. -/
theorem IsDated.evolves_of_stats (dated : before.IsDated)
    (stats : ∀ path, after.stat? path = before.stat? path) (zxid : after.zxid = before.zxid) :
    after.Evolves before where
  dated := fun path stat stands => zxid ▸ dated path stat (stats path ▸ stands)
  zxid := Int.le_of_eq zxid.symm
  stats := fun path new stands => Or.inr ⟨new, stats path ▸ stands, Or.inl rfl⟩

theorem IsDated.evolves_of_sameTree (dated : before.IsDated) (same : after.SameTree before) :
    after.Evolves before := dated.evolves_of_stats same.stat? same.2

/-- Each transaction leaves a later mark on the stats that it changes. -/
theorem IsDated.evolves_of_advances (dated : before.IsDated) (advances : after.Advances before) :
    after.Evolves before := by
  have zxid := advances.zxid
  have outcome : ∀ path new, after.stat? path = some new →
      new.IsUpTo after.zxid ∧
        (before.zxid < new.mzxid ∨ ∃ old, before.stat? path = some old ∧ old.LeadsTo new) := by
    intro path new stands
    obtain ⟨node, found, rfl⟩ := stat?_eq_some_iff.mp stands
    rcases advances.nodes path node found with ⟨old, present, ages⟩ | ⟨data, children⟩
    · have stood : before.stat? path = some old.stat := stat?_eq_some_iff.mpr ⟨old, present, rfl⟩
      obtain ⟨dataUpTo, childrenUpTo⟩ := dated path old.stat stood
      cases ages with
      | rests same =>
          rw [same]
          exact ⟨⟨by omega, by omega⟩, Or.inr ⟨old.stat, stood, Or.inl rfl⟩⟩
      | rewritten data children => exact ⟨⟨by omega, by omega⟩, Or.inl (by omega)⟩
      | relisted data children =>
          refine ⟨⟨by omega, by omega⟩, Or.inr ⟨old.stat, stood, Or.inr ?_⟩⟩
          exact Prod.Lex.toLex_lt_toLex.mpr (Or.inr ⟨data.symm, by omega⟩)
    · exact ⟨⟨by omega, by omega⟩, Or.inl (by omega)⟩
  exact
    { dated := fun path stat stands => (outcome path stat stands).1
      zxid := by omega
      stats := fun path new stands => (outcome path new stands).2 }

theorem stat?_replaceSilently (ensemble : Ensemble) (path other : Path) (data : Payload) :
    (ensemble.replaceSilently path data).stat? other = ensemble.stat? other := by
  rw [stat?, replaceSilently, Table.get?_adjust, stat?]
  by_cases isPath : other = path
  · rw [if_pos isPath, isPath, Option.map_map]
    rfl
  · rw [if_neg isPath]

/-- In the beginning there is the root and nothing else. -/
theorem eq_of_get?_initial {path : Path} {node : RemoteNode}
    (found : ({} : Ensemble).nodes.get? path = some node) : path = Path.root ∧ node = {} := by
  by_cases isRoot : path = Path.root
  · subst isRoot
    exact ⟨rfl, by simpa [Table.get?, eq_comm] using found⟩
  · simp [Table.get?, Ne.symm isRoot] at found

theorem isDated_initial : ({} : Ensemble).IsDated := by
  intro path stat stands
  obtain ⟨node, found, rfl⟩ := stat?_eq_some_iff.mp stands
  obtain ⟨_, rfl⟩ := eq_of_get?_initial found
  exact ⟨Int.le_refl _, Int.le_refl _⟩

/-! ## Runs -/

/-- One thing that is asked of the ensemble. -/
inductive Request where
  | create (path : Path) (data : Payload) (owner : Int)
  | setData (path : Path) (data : Payload)
  | delete (path : Path)
  | replaceSilently (path : Path) (data : Payload)
  | failReads (path : Path)
  | healReads (path : Path)
  | refuseSessions (refusing : Bool)
  | openSession (handler : Generation)
  | closeSession (id : SessionId)
  | expireSession (id : SessionId)
  | readStat (id : SessionId) (path : Path)
  | readData (id : SessionId) (path : Path)
  | readChildren (id : SessionId) (path : Path)
  | hold (path : Path)
  | release (hold : HoldId)

/-- The ensemble after a request, granted or refused. -/
def serve (ensemble : Ensemble) : Request → Ensemble
  | .create path data owner => (ensemble.create path data owner).2
  | .setData path data => (ensemble.setData path data).2
  | .delete path => (ensemble.delete path).2
  | .replaceSilently path data => ensemble.replaceSilently path data
  | .failReads path => ensemble.failReads path
  | .healReads path => ensemble.healReads path
  | .refuseSessions refusing => { ensemble with refusing }
  | .openSession handler => (ensemble.openSession handler).2
  | .closeSession id => ensemble.closeSession id
  | .expireSession id => ensemble.expireSession id
  | .readStat id path => (ensemble.readStat id path).2
  | .readData id path => (ensemble.readData id path).2.2
  | .readChildren id path => (ensemble.readChildren id path).2
  | .hold path => (ensemble.hold path).2
  | .release hold => ensemble.release hold

/-- The ensemble after some requests, one after the other. -/
def serveAll (ensemble : Ensemble) (requests : List Request) : Ensemble :=
  requests.foldl serve ensemble

theorem serveAll_append (ensemble : Ensemble) (first second : List Request) :
    ensemble.serveAll (first ++ second) = (ensemble.serveAll first).serveAll second :=
  List.foldl_append

theorem IsDated.evolves_serve (dated : ensemble.IsDated) (request : Request) :
    (ensemble.serve request).Evolves ensemble := by
  cases request with
  | create path data owner => exact dated.evolves_of_advances (advances_create _ path data owner)
  | setData path data => exact dated.evolves_of_advances (advances_setData _ path data)
  | delete path => exact dated.evolves_of_advances (advances_delete _ path)
  | replaceSilently path data =>
      exact dated.evolves_of_stats (fun other => stat?_replaceSilently _ path other data) rfl
  | readStat id path => exact dated.evolves_of_sameTree (sameTree_readStat _ id path)
  | readData id path => exact dated.evolves_of_sameTree (sameTree_readData _ id path)
  | readChildren id path => exact dated.evolves_of_sameTree (sameTree_readChildren _ id path)
  | openSession handler =>
      apply dated.evolves_of_sameTree
      rw [serve, openSession]
      split <;> exact ⟨rfl, rfl⟩
  | failReads | healReads | refuseSessions | closeSession | expireSession | hold | release =>
      exact dated.evolves_of_sameTree ⟨rfl, rfl⟩

theorem IsDated.evolves_serveAll (dated : ensemble.IsDated) (requests : List Request) :
    (ensemble.serveAll requests).Evolves ensemble := by
  induction requests generalizing ensemble with
  | nil => exact dated.evolves_of_sameTree ⟨rfl, rfl⟩
  | cons request others inductionHypothesis =>
      have first := dated.evolves_serve request
      exact first.trans (inductionHypothesis first.dated)

/-! ## Reads -/

/-- Some session reads the stat at the path, with the payload or alone. -/
def IsReadAs (ensemble : Ensemble) (path : Path) (stat : Stat) : Prop :=
  ∃ id, (ensemble.readStat id path).1 = .ok (some stat) ∨
    ∃ data, (ensemble.readData id path).1 = .ok (data, stat)

theorem IsReadAs.stands {stat : Stat} (isRead : ensemble.IsReadAs path stat) :
    ensemble.stat? path = some stat := by
  obtain ⟨id, alone | ⟨data, withData⟩⟩ := isRead
  · exact stat?_eq_some_iff.mpr (get?_of_readStat alone)
  · exact stat?_eq_some_iff.mpr ⟨_, get?_of_readData withData, rfl⟩

/-- What is read later is the same or stands later. -/
theorem IsReadAs.leadsTo {old new : Stat} (dated : before.IsDated)
    (isRead : before.IsReadAs path old) {requests : List Request}
    (isReadLater : (before.serveAll requests).IsReadAs path new) : old.LeadsTo new :=
  (dated.evolves_serveAll requests).leadsTo dated isRead.stands isReadLater.stands

end Ensemble

end WatchedTree
