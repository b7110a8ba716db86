import WatchedTree.Proofs.Connection.Steady
import WatchedTree.Proofs.World.Script
import WatchedTree.Proofs.World.Visit

/-!
# The first read of a fetch

A fetch that has anything to read reads on the session that it is given. What it does after its
first read takes no watch away, and where the base is missing a watch is armed for its creation.
-/
namespace WatchedTree

namespace Ensemble

variable {ensemble first second third : Ensemble} {id other : SessionId} {kind watch : WatchKind}
  {path key : Path}

/-- Reads are made, and every watch that was armed still is. -/
structure ReadsOn (after before : Ensemble) : Prop where
  reads : before.reads ≤ after.reads
  armed : ∀ id kind path, before.isArmed id kind path = true → after.isArmed id kind path = true

theorem ReadsOn.refl (ensemble : Ensemble) : ensemble.ReadsOn ensemble :=
  ⟨Nat.le_refl _, fun _ _ _ armed => armed⟩

theorem ReadsOn.trans (left : second.ReadsOn first) (right : third.ReadsOn second) :
    third.ReadsOn first :=
  ⟨Nat.le_trans left.reads right.reads,
    fun id kind path armed => right.armed id kind path (left.armed id kind path armed)⟩

theorem isOpen_of_isArmed (armed : ensemble.isArmed id kind path = true) : ensemble.IsOpen id := by
  unfold isArmed at armed
  cases found : ensemble.session? id with
  | none =>
      rw [found] at armed
      cases armed
  | some session =>
      rw [found] at armed
      obtain ⟨notClosed, _⟩ := Bool.and_eq_true_iff.mp armed
      exact ⟨session, found, by simpa using notClosed⟩

theorem isOpen_of_healthy (healthy : ensemble.readFault? id path = none) : ensemble.IsOpen id := by
  unfold readFault? at healthy
  cases found : ensemble.session? id with
  | none =>
      rw [found] at healthy
      cases healthy
  | some session =>
      rw [found] at healthy
      simp only at healthy
      split at healthy
      · cases healthy
      next notClosed => exact ⟨session, found, eq_false_of_ne_true notClosed⟩

/-- Arming a watch disarms none. -/
theorem readsOn_arm (ensemble : Ensemble) (other : SessionId) (kind : WatchKind) (path : Path) :
    (ensemble.arm other kind path).ReadsOn ensemble := by
  refine ⟨Nat.le_refl _, fun id watch key armed => ?_⟩
  by_cases same : id = other
  · subst same
    exact (isArmed_arm (isOpen_of_isArmed armed)).mpr (Or.inr armed)
  · have sessions : (ensemble.arm other kind path).session? id =
        if id = other then (ensemble.session? id).map fun session => session.arm kind path
        else ensemble.session? id :=
      session?_updateSession fun session => RemoteSession.id_arm session kind path
    rw [if_neg same] at sessions
    rw [isArmed, sessions]
    exact armed

theorem readsOn_countRead (ensemble : Ensemble) : ensemble.countRead.ReadsOn ensemble :=
  ⟨Nat.le_succ _, fun _ _ _ armed => armed⟩

theorem readsOn_readStat (ensemble : Ensemble) (id : SessionId) (path : Path) :
    (ensemble.readStat id path).2.ReadsOn ensemble := by
  unfold readStat
  simp only
  split
  · exact ensemble.readsOn_countRead
  · exact ensemble.readsOn_countRead.trans (readsOn_arm _ id .data path)

theorem readsOn_readChildren (ensemble : Ensemble) (id : SessionId) (path : Path) :
    (ensemble.readChildren id path).2.ReadsOn ensemble := by
  unfold readChildren
  simp only
  split
  · exact ensemble.readsOn_countRead
  · split
    · exact ensemble.readsOn_countRead.trans (readsOn_arm _ id .child path)
    · exact ensemble.readsOn_countRead

/-! ## Reads on a session that answers -/

section Healthy

variable (healthy : ensemble.readFault? id path = none)

include healthy

/-- A payload read that finds a node leaves a watch on it, and one that does not leaves things as
they were. Either may be held back. -/
theorem readData_of_healthy :
    ∃ hold,
      (∃ node, ensemble.nodes.get? path = some node ∧
        ensemble.readData id path =
          (.ok (node.data, node.stat), hold, (ensemble.taken path).arm id .data path)) ∨
      ensemble.readData id path = (.error (.noNode path), hold, ensemble.taken path) := by
  have obstacle : ensemble.countRead.readFault? id path = none := healthy
  refine ⟨(ensemble.countRead.heldReads.get? path).filter fun hold =>
    hold ∈ ensemble.countRead.holds, ?_⟩
  unfold readData
  simp only [obstacle]
  cases present : ensemble.nodes.get? path with
  | none =>
      have nothing : ensemble.countRead.nodes.get? path = none := present
      right
      simp only [nothing]
      rfl
  | some node =>
      have something : ensemble.countRead.nodes.get? path = some node := present
      left
      refine ⟨node, rfl, ?_⟩
      simp only [something]
      rfl

theorem readChildren_of_healthy :
    ensemble.readChildren id path =
        (.ok (ensemble.childNames path), ensemble.countRead.arm id .child path) ∨
      ensemble.readChildren id path = (.error (.noNode path), ensemble.countRead) := by
  have obstacle : ensemble.countRead.readFault? id path = none := healthy
  unfold readChildren
  simp only [obstacle]
  split
  · exact Or.inl rfl
  · exact Or.inr rfl

theorem isArmed_arm_of_healthy (kind : WatchKind) :
    (ensemble.arm id kind path).isArmed id kind path = true :=
  (isArmed_arm (isOpen_of_healthy healthy)).mpr (Or.inl ⟨rfl, rfl⟩)

end Healthy

end Ensemble

namespace World

variable {world : World} {cache : Cache} {visit : Visit}

/-! ## The connection of a running fetch -/

theorem connection_removeSubtree (world : World) (id : CacheId) (path : Path) :
    (world.removeSubtree id path).connection = world.connection := by
  rw [← quiet_connection, quiet_removeSubtree]
  rfl

theorem connection_endVisit (world : World) (visit : Visit) (failure : Option Failure) :
    (world.endVisit visit failure).connection = world.connection := by
  rw [← quiet_connection, quiet_endVisit]
  rfl

theorem connection_commit (world : World) (visit : Visit) (node : Node) :
    (world.commit visit node).connection = world.connection := by
  rcases commits_commit world visit node with same | ⟨id, cache, found, epoch, _, same⟩
  · rw [same]
  · rw [same, connection_of_quiet (quiet_dispatchAll _ _ _)]
    rfl

theorem connection_spawnAll (world : World) (fetches : List Fetch) :
    (world.spawnAll fetches).connection = world.connection := by
  induction fetches generalizing world with
  | nil => rfl
  | cons fetch others inductionHypothesis =>
      exact (inductionHypothesis _).trans (connection_spawn world fetch)

theorem connection_reconcileChildren (world : World) (visit : Visit) (names : List Text) :
    (world.reconcileChildren visit names).connection = world.connection := by
  unfold reconcileChildren
  split
  · rfl
  · rw [connection_spawnAll, connection_of_quiet (quiet_dispatchAll _ _ _)]
    rfl

theorem connection_visitRead (world : World) (visit : Visit) (stat : Option Stat)
    (data : Option Payload) (children : Option (List Text)) :
    (world.visitRead visit stat data children).connection = world.connection := by
  unfold visitRead
  simp only
  split
  · split
    · rw [connection_endVisit, connection_reconcileChildren, connection_commit]
    · rw [connection_endVisit, connection_commit]
  · rw [connection_endVisit, connection_commit]

/-! ## What follows the first read -/

theorem readsOn_visitAbsent (world : World) (visit : Visit) :
    (world.visitAbsent visit).ensemble.ReadsOn world.ensemble := by
  have removed : (world.removeSubtree visit.cache visit.path).ensemble = world.ensemble :=
    congrArg Connection.remote (connection_removeSubtree world visit.cache visit.path)
  unfold visitAbsent
  simp only
  generalize world.removeSubtree visit.cache visit.path = dropped at removed ⊢
  have ended : ∀ (state : World) (failure : Option Failure),
      state.ensemble.ReadsOn world.ensemble →
        (state.endVisit visit failure).ensemble.ReadsOn world.ensemble := by
    intro state failure readsOn
    rw [ensemble, connection_endVisit]
    exact readsOn
  have unread : dropped.ensemble.ReadsOn world.ensemble := removed ▸ .refl _
  split
  · exact ended dropped none unread
  · split
    · exact ended dropped none unread
    · have readsOn := unread.trans (dropped.ensemble.readsOn_readStat visit.session visit.path)
      split
      next remote answered =>
        rw [answered] at readsOn
        exact ended (dropped.setEnsemble remote) _ readsOn
      next remote answered =>
        rw [answered] at readsOn
        exact ended (dropped.setEnsemble remote) none readsOn
      next remote answered =>
        rw [answered] at readsOn
        apply ended
        rw [ensemble, connection_spawn]
        exact readsOn

theorem readsOn_visitChildren (world : World) (visit : Visit) (stat : Option Stat)
    (data : Option Payload) :
    (world.visitChildren visit stat data).ensemble.ReadsOn world.ensemble := by
  unfold visitChildren
  split
  · rw [ensemble, connection_visitRead]
    exact .refl _
  · have readsOn := world.ensemble.readsOn_readChildren visit.session visit.path
    split
    next fault remote answered =>
      rw [answered] at readsOn
      unfold visitFault
      split
      · exact readsOn.trans (readsOn_visitAbsent (world.setEnsemble remote) visit)
      · rw [ensemble, failVisit, connection_endVisit]
        exact readsOn
    next names remote answered =>
      rw [answered] at readsOn
      rw [ensemble, connection_visitRead]
      exact readsOn

/-- A visit that finds the base missing arms the watch that tells of its creation. -/
theorem isArmed_visitAbsent (found : world.caches[visit.cache]? = some cache)
    (isBase : visit.path = cache.options.basePath)
    (healthy : world.ensemble.readFault? visit.session visit.path = none) :
    (world.visitAbsent visit).ensemble.isArmed visit.session .data visit.path = true := by
  have removal : world.Deeds none none (world.removeSubtree visit.cache visit.path) :=
    deeds_removeSubtree world visit.cache visit.path
  obtain ⟨later, laterFound, sameOptions⟩ := removal.retains visit.cache cache found
  have removed : (world.removeSubtree visit.cache visit.path).ensemble = world.ensemble :=
    congrArg Connection.remote (connection_removeSubtree world visit.cache visit.path)
  have countedHealthy : world.ensemble.countRead.readFault? visit.session visit.path = none :=
    healthy
  have armed := Ensemble.isArmed_arm_of_healthy countedHealthy .data
  have answers := Ensemble.readStat_of_healthy (removed.symm ▸ healthy)
  have stillBase : ¬ visit.path ≠ later.options.basePath := by
    rw [sameOptions, not_not]
    exact isBase
  unfold visitAbsent
  simp only [laterFound, answers, if_neg stillBase]
  rw [removed]
  cases (world.ensemble.nodes.get? visit.path).map (·.stat) with
  | none =>
      simp only
      rw [ensemble, connection_endVisit]
      exact armed
  | some stat =>
      simp only
      rw [ensemble, connection_endVisit, connection_spawn]
      exact armed

/-! ## The first read -/

/-- A fetch has read on a session: it left a watch there, or the answer is held back. -/
def HasRead (before : World) (fetch : Fetch) (session : SessionId) (after : World) : Prop :=
  before.ensemble.reads < after.ensemble.reads ∧
    ((∃ kind, after.ensemble.isArmed session kind fetch.path = true) ∨
      ∃ suspension ∈ after.suspended,
        suspension.visit.fetch = fetch ∧ suspension.visit.session = session)

theorem hasRead_of_armed {remote : Ensemble} {kind : WatchKind} {after : World}
    (readsOn : after.ensemble.ReadsOn remote) (counted : world.ensemble.reads < remote.reads)
    (armed : remote.isArmed visit.session kind visit.path = true) :
    world.HasRead visit.fetch visit.session after :=
  ⟨Nat.lt_of_lt_of_le counted readsOn.reads, Or.inl ⟨kind, readsOn.armed _ _ _ armed⟩⟩

/-- A visit of the base that has anything to read has read once it was begun. -/
theorem hasRead_beginVisit (found : world.caches[visit.cache]? = some cache)
    (isBase : visit.path = cache.options.basePath)
    (healthy : world.ensemble.readFault? visit.session visit.path = none)
    (reads : (visit.action.wantsStat || visit.action.wantsChildren || visit.traverse) = true) :
    world.HasRead visit.fetch visit.session (world.beginVisit visit) := by
  have countedHealthy : world.ensemble.countRead.readFault? visit.session visit.path = none :=
    healthy
  have takenHealthy : (world.ensemble.taken visit.path).readFault? visit.session visit.path =
      none := healthy
  have missing : ∀ remote : Ensemble, world.ensemble.reads < remote.reads →
      remote.readFault? visit.session visit.path = none →
        world.HasRead visit.fetch visit.session ((world.setEnsemble remote).visitAbsent visit) := by
    intro remote counted stillHealthy
    have foundThere : (world.setEnsemble remote).caches[visit.cache]? = some cache := found
    have armed := isArmed_visitAbsent foundThere isBase stillHealthy
    have readsOn := readsOn_visitAbsent (world.setEnsemble remote) visit
    exact ⟨Nat.lt_of_lt_of_le counted readsOn.reads, Or.inl ⟨.data, armed⟩⟩
  have countedReads : world.ensemble.reads < world.ensemble.countRead.reads := Nat.lt_succ_self _
  have takenReads : world.ensemble.reads < (world.ensemble.taken visit.path).reads :=
    Nat.lt_succ_self _
  unfold beginVisit
  by_cases wantsData : visit.action.wantsData = true
  · rw [if_pos wantsData]
    have armed := Ensemble.isArmed_arm_of_healthy takenHealthy .data
    obtain ⟨hold, ⟨node, _, answered⟩ | answered⟩ := Ensemble.readData_of_healthy healthy
    · rw [answered]
      cases hold with
      | none => exact hasRead_of_armed (readsOn_visitChildren _ visit _ _) takenReads armed
      | some hold => exact ⟨takenReads, Or.inl ⟨.data, armed⟩⟩
    · rw [answered]
      cases hold with
      | none => exact missing _ takenReads takenHealthy
      | some hold =>
          refine ⟨takenReads, Or.inr ⟨{ hold, visit, answer := .error (.noNode visit.path) }, ?_,
            rfl, rfl⟩⟩
          exact List.mem_append_right _ List.mem_cons_self
  · rw [if_neg wantsData]
    by_cases wantsStat : visit.action.wantsStat = true
    · rw [if_pos wantsStat, Ensemble.readStat_of_healthy healthy]
      have armed := Ensemble.isArmed_arm_of_healthy countedHealthy .data
      cases (world.ensemble.nodes.get? visit.path).map (·.stat) with
      | none => exact hasRead_of_armed (readsOn_visitAbsent _ visit) countedReads armed
      | some stat => exact hasRead_of_armed (readsOn_visitChildren _ visit _ _) countedReads armed
    · rw [if_neg wantsStat]
      have lists : (!visit.action.wantsChildren && !visit.traverse) = false := by
        simp only [wantsStat, Bool.false_or] at reads
        rw [← Bool.not_or, reads]
        rfl
      unfold visitChildren
      rw [if_neg (by simp [lists])]
      rcases Ensemble.readChildren_of_healthy healthy with answered | answered
      · have armed := Ensemble.isArmed_arm_of_healthy countedHealthy .child
        rw [answered]
        have counted : world.ensemble.reads <
            (world.ensemble.countRead.arm visit.session .child visit.path).reads := countedReads
        refine hasRead_of_armed ?_ counted armed
        simp only
        rw [ensemble, connection_visitRead]
        exact .refl _
      · rw [answered]
        exact missing _ countedReads countedHealthy

end World

end WatchedTree
