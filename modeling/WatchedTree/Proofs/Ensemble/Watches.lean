import WatchedTree.Ensemble
import WatchedTree.Proofs.Table.Keys
import WatchedTree.Selector

/-!
# Watches and reads

A read that meets no obstacle answers from the tree and arms a watch; a change consumes the watches
that it fires. With one open session this is all there is to know of the sessions.
-/
namespace WatchedTree

namespace RemoteSession

@[simp] theorem id_setWatches (session : RemoteSession) (kind : WatchKind) (paths : List Path) :
    (session.setWatches kind paths).id = session.id := by
  cases kind <;> rfl

@[simp] theorem handler_setWatches (session : RemoteSession) (kind : WatchKind)
    (paths : List Path) : (session.setWatches kind paths).handler = session.handler := by
  cases kind <;> rfl

@[simp] theorem closed_setWatches (session : RemoteSession) (kind : WatchKind)
    (paths : List Path) : (session.setWatches kind paths).closed = session.closed := by
  cases kind <;> rfl

theorem watches_setWatches (session : RemoteSession) (kind other : WatchKind)
    (paths : List Path) :
    (session.setWatches kind paths).watches other =
      if other = kind then paths else session.watches other := by
  cases kind <;> cases other <;> rfl

@[simp] theorem id_arm (session : RemoteSession) (kind : WatchKind) (path : Path) :
    (session.arm kind path).id = session.id := by
  unfold arm
  split <;> simp

@[simp] theorem handler_arm (session : RemoteSession) (kind : WatchKind) (path : Path) :
    (session.arm kind path).handler = session.handler := by
  unfold arm
  split <;> simp

@[simp] theorem closed_arm (session : RemoteSession) (kind : WatchKind) (path : Path) :
    (session.arm kind path).closed = session.closed := by
  unfold arm
  split <;> simp

theorem mem_watches_arm {session : RemoteSession} {kind other : WatchKind} {path key : Path} :
    key ∈ (session.arm kind path).watches other ↔
      other = kind ∧ key = path ∨ key ∈ session.watches other := by
  unfold arm
  by_cases armed : path ∈ session.watches kind
  · rw [if_pos armed]
    constructor
    · exact Or.inr
    · rintro (⟨rfl, rfl⟩ | member)
      · exact armed
      · exact member
  · rw [if_neg armed, watches_setWatches]
    by_cases same : other = kind
    · subst same
      simp
    · simp [same]

theorem isWatching_arm {session : RemoteSession} (isOpen : session.closed = false)
    {kind other : WatchKind} {path key : Path} :
    (session.arm kind path).isWatching other key = true ↔
      other = kind ∧ key = path ∨ session.isWatching other key = true := by
  simp [isWatching, isOpen, mem_watches_arm]

theorem mem_watches_disarm {session : RemoteSession} {kind other : WatchKind} {path key : Path} :
    key ∈ (session.disarm kind path).watches other ↔
      ¬ (other = kind ∧ key = path) ∧ key ∈ session.watches other := by
  rw [disarm, watches_setWatches]
  by_cases same : other = kind
  · subst same
    simp [and_comm]
  · simp [same]

/-- A session after a watch on a path was fired. -/
def fired (session : RemoteSession) (kind : WatchKind) (path : Path) : RemoteSession :=
  if session.isWatching kind path then session.disarm kind path else session

@[simp] theorem id_fired (session : RemoteSession) (kind : WatchKind) (path : Path) :
    (session.fired kind path).id = session.id := by
  unfold fired
  split <;> simp [disarm]

@[simp] theorem handler_fired (session : RemoteSession) (kind : WatchKind) (path : Path) :
    (session.fired kind path).handler = session.handler := by
  unfold fired
  split <;> simp [disarm]

@[simp] theorem closed_fired (session : RemoteSession) (kind : WatchKind) (path : Path) :
    (session.fired kind path).closed = session.closed := by
  unfold fired
  split <;> simp [disarm]

theorem isWatching_fired {session : RemoteSession} {kind other : WatchKind} {path key : Path} :
    (session.fired kind path).isWatching other key = true ↔
      ¬ (other = kind ∧ key = path) ∧ session.isWatching other key = true := by
  unfold fired
  by_cases watching : session.isWatching kind path = true
  · rw [if_pos watching]
    have sameClosed : (session.disarm kind path).closed = session.closed := by simp [disarm]
    simp only [isWatching, sameClosed, Bool.and_eq_true, Bool.not_eq_true', decide_eq_true_eq,
      mem_watches_disarm]
    tauto
  · rw [if_neg watching]
    constructor
    · intro other
      refine ⟨?_, other⟩
      rintro ⟨rfl, rfl⟩
      exact watching other
    · exact And.right

end RemoteSession

namespace Ensemble

variable {ensemble : Ensemble} {id other : SessionId} {kind watch : WatchKind} {path key : Path}

/-! ## Sessions by number -/

theorem find?_map_of_id {change : RemoteSession → RemoteSession}
    (sameId : ∀ session, (change session).id = session.id) (sessions : List RemoteSession)
    (id : SessionId) :
    (sessions.map change).find? (fun session => session.id == id) =
      (sessions.find? fun session => session.id == id).map change := by
  induction sessions with
  | nil => rfl
  | cons session others inductionHypothesis =>
      by_cases found : session.id = id
      · simp [sameId, found]
      · simp [sameId, found, inductionHypothesis]

theorem session?_updateSession {change : RemoteSession → RemoteSession}
    (sameId : ∀ session, (change session).id = session.id) :
    (ensemble.updateSession id change).session? other =
      if other = id then (ensemble.session? other).map change else ensemble.session? other := by
  have keeps : ∀ session : RemoteSession,
      (if session.id = id then change session else session).id = session.id := by
    intro session
    split
    · exact sameId session
    · rfl
  rw [session?, updateSession, find?_map_of_id keeps]
  cases found : ensemble.sessions.find? fun session => session.id == other with
  | none => simp [session?, found]
  | some session =>
      have isOther : session.id = other := by
        simpa using List.find?_some found
      rw [session?, found]
      by_cases same : other = id
      · simp [isOther, same]
      · simp [isOther, same]

/-- Holds while the session of this number answers. -/
def IsOpen (ensemble : Ensemble) (id : SessionId) : Prop :=
  ∃ session, ensemble.session? id = some session ∧ session.closed = false

/-- Holds if the next change of this kind at a path is told to the session. -/
def isArmed (ensemble : Ensemble) (id : SessionId) (kind : WatchKind) (path : Path) : Bool :=
  match ensemble.session? id with
  | none => false
  | some session => session.isWatching kind path

theorem isOpen_arm (isOpen : ensemble.IsOpen id) : (ensemble.arm other kind path).IsOpen id := by
  obtain ⟨session, found, notClosed⟩ := isOpen
  have sessions : (ensemble.arm other kind path).session? id =
      if id = other then (ensemble.session? id).map fun session => session.arm kind path
      else ensemble.session? id :=
    session?_updateSession fun session => RemoteSession.id_arm session kind path
  rw [found] at sessions
  by_cases same : id = other
  · rw [if_pos same] at sessions
    exact ⟨session.arm kind path, sessions, by simp [notClosed]⟩
  · rw [if_neg same] at sessions
    exact ⟨session, sessions, notClosed⟩

theorem isArmed_arm (isOpen : ensemble.IsOpen id) :
    (ensemble.arm id kind path).isArmed id watch key = true ↔
      watch = kind ∧ key = path ∨ ensemble.isArmed id watch key = true := by
  obtain ⟨session, found, notClosed⟩ := isOpen
  have sessions : (ensemble.arm id kind path).session? id =
      if id = id then (ensemble.session? id).map fun session => session.arm kind path
      else ensemble.session? id :=
    session?_updateSession fun session => RemoteSession.id_arm session kind path
  rw [if_pos rfl, found] at sessions
  rw [isArmed, isArmed, found, sessions]
  exact RemoteSession.isWatching_arm notClosed

/-! ## The tree under reads and sessions -/

/-- The tree and its time are the same. -/
def SameTree (after before : Ensemble) : Prop :=
  after.nodes = before.nodes ∧ after.zxid = before.zxid

theorem SameTree.trans {first second third : Ensemble} (left : first.SameTree second)
    (right : second.SameTree third) : first.SameTree third :=
  ⟨left.1.trans right.1, left.2.trans right.2⟩

theorem sameTree_readStat (ensemble : Ensemble) (id : SessionId) (path : Path) :
    (ensemble.readStat id path).2.SameTree ensemble := by
  unfold readStat
  simp only
  split <;> exact ⟨rfl, rfl⟩

theorem sameTree_readData (ensemble : Ensemble) (id : SessionId) (path : Path) :
    (ensemble.readData id path).2.2.SameTree ensemble := by
  unfold readData
  simp only
  split
  · exact ⟨rfl, rfl⟩
  · split <;> exact ⟨rfl, rfl⟩

theorem sameTree_readChildren (ensemble : Ensemble) (id : SessionId) (path : Path) :
    (ensemble.readChildren id path).2.SameTree ensemble := by
  unfold readChildren
  simp only
  split
  · exact ⟨rfl, rfl⟩
  · split <;> exact ⟨rfl, rfl⟩

/-- An answer with a payload is that of the node at the path. -/
theorem get?_of_readData {data : Payload} {stat : Stat}
    (answered : (ensemble.readData id path).1 = .ok (data, stat)) :
    ensemble.nodes.get? path = some { data, stat } := by
  unfold readData at answered
  simp only at answered
  split at answered
  · cases answered
  · split at answered
    · cases answered
    next node present =>
      cases answered
      exact present

theorem get?_of_readStat {stat : Stat}
    (answered : (ensemble.readStat id path).1 = .ok (some stat)) :
    ∃ node, ensemble.nodes.get? path = some node ∧ node.stat = stat := by
  unfold readStat at answered
  simp only at answered
  split at answered
  · cases answered
  · have found : (ensemble.nodes.get? path).map (·.stat) = some stat := by
      injection answered
    exact Option.map_eq_some_iff.mp found

theorem childNames_of_readChildren {names : List Text}
    (answered : (ensemble.readChildren id path).1 = .ok names) :
    names = ensemble.childNames path := by
  unfold readChildren at answered
  simp only at answered
  split at answered
  · cases answered
  · split at answered
    · cases answered
      rfl
    · cases answered

/-! ## Reads without obstacles -/

/-- No read of a path fails, and none is held back. -/
structure Answers (ensemble : Ensemble) (id : SessionId) (path : Path) : Prop where
  isOpen : ensemble.IsOpen id
  healthy : path ∉ ensemble.failing
  unheld : (ensemble.heldReads.get? path).filter (fun hold => hold ∈ ensemble.holds) = none

/-- Where nothing fails and nothing is held, every read of an open session is answered. -/
theorem answers_of_free (isOpen : (ensemble.session? id).map RemoteSession.closed = some false)
    (healthy : ensemble.failing = []) (unheld : ensemble.heldReads = []) (path : Path) :
    ensemble.Answers id path where
  isOpen := Option.map_eq_some_iff.mp isOpen
  healthy := by
    rw [healthy]
    exact List.not_mem_nil
  unheld := by
    rw [unheld]
    rfl

theorem Answers.readFault? (answers : ensemble.Answers id path) :
    ensemble.readFault? id path = none := by
  obtain ⟨session, found, notClosed⟩ := answers.isOpen
  simp [Ensemble.readFault?, found, notClosed, answers.healthy]

/-- The ensemble after a payload read was made and took the hold that waited for it. -/
def taken (ensemble : Ensemble) (path : Path) : Ensemble :=
  { ensemble.countRead with heldReads := ensemble.heldReads.erase path }

theorem readStat_of_healthy (healthy : ensemble.readFault? id path = none) :
    ensemble.readStat id path =
      (.ok ((ensemble.nodes.get? path).map (·.stat)), ensemble.countRead.arm id .data path) := by
  have obstacle : ensemble.countRead.readFault? id path = none := healthy
  unfold readStat
  simp only [obstacle]
  rfl

theorem readStat_of_answers (answers : ensemble.Answers id path) :
    ensemble.readStat id path =
      (.ok ((ensemble.nodes.get? path).map (·.stat)), ensemble.countRead.arm id .data path) :=
  readStat_of_healthy answers.readFault?

theorem readData_of_answers_none (answers : ensemble.Answers id path)
    (absent : ensemble.nodes.get? path = none) :
    ensemble.readData id path = (.error (.noNode path), none, ensemble.taken path) := by
  have obstacle : ensemble.countRead.readFault? id path = none := answers.readFault?
  have nothing : ensemble.countRead.nodes.get? path = none := absent
  have unheld : (ensemble.countRead.heldReads.get? path).filter
      (fun hold => hold ∈ ensemble.countRead.holds) = none := answers.unheld
  unfold readData
  simp only [obstacle, nothing, unheld]
  rfl

theorem readData_of_answers_some (answers : ensemble.Answers id path) {node : RemoteNode}
    (present : ensemble.nodes.get? path = some node) :
    ensemble.readData id path =
      (.ok (node.data, node.stat), none, (ensemble.taken path).arm id .data path) := by
  have obstacle : ensemble.countRead.readFault? id path = none := answers.readFault?
  have found : ensemble.countRead.nodes.get? path = some node := present
  have unheld : (ensemble.countRead.heldReads.get? path).filter
      (fun hold => hold ∈ ensemble.countRead.holds) = none := answers.unheld
  unfold readData
  simp only [obstacle, found, unheld]
  rfl

theorem readChildren_of_answers_none (answers : ensemble.Answers id path)
    (absent : ensemble.nodes.get? path = none) :
    ensemble.readChildren id path = (.error (.noNode path), ensemble.countRead) := by
  have obstacle : ensemble.countRead.readFault? id path = none := answers.readFault?
  have nothing : ensemble.countRead.nodes.contains path = false :=
    Table.contains_eq_false_iff.mpr absent
  unfold readChildren
  simp [obstacle, nothing]

theorem readChildren_of_answers_some (answers : ensemble.Answers id path) {node : RemoteNode}
    (present : ensemble.nodes.get? path = some node) :
    ensemble.readChildren id path =
      (.ok (ensemble.childNames path), ensemble.countRead.arm id .child path) := by
  have obstacle : ensemble.countRead.readFault? id path = none := answers.readFault?
  have found : ensemble.countRead.nodes.contains path = true :=
    Table.contains_iff.mpr (Table.mem_keys_iff.mpr ⟨node, present⟩)
  unfold readChildren
  simp only [obstacle, if_pos found]
  rfl

theorem Answers.countRead (answers : ensemble.Answers id path) :
    ensemble.countRead.Answers id path :=
  ⟨answers.isOpen, answers.healthy, answers.unheld⟩

theorem Answers.arm (answers : ensemble.Answers id path) :
    (ensemble.arm other kind key).Answers id path :=
  ⟨isOpen_arm answers.isOpen, answers.healthy, answers.unheld⟩

theorem Answers.taken (answers : ensemble.Answers id path) :
    (ensemble.taken key).Answers id path := by
  refine ⟨answers.isOpen, answers.healthy, ?_⟩
  have held : (ensemble.taken key).heldReads.get? path =
      if path = key then none else ensemble.heldReads.get? path := Table.get?_erase _ _ _
  rw [held]
  by_cases same : path = key
  · rw [if_pos same]
    rfl
  · rw [if_neg same]
    exact answers.unheld

/-! ## The reads of a fetch -/

/-- The ensemble after the list of children was read, if it was. -/
def listed (ensemble : Ensemble) (id : SessionId) (path : Path) (lists : Bool) : Ensemble :=
  if lists then ensemble.countRead.arm id .child path else ensemble

/-- The ensemble after the reads of a fetch that found its node. -/
def surveyed (ensemble : Ensemble) (id : SessionId) (path : Path) (action : Action)
    (traverse : Bool) : Ensemble :=
  let read := if action.wantsData then (ensemble.taken path).arm id .data path
    else if action.wantsStat then ensemble.countRead.arm id .data path
    else ensemble
  read.listed id path (action.wantsChildren || traverse)

/-- The ensemble after the first read of a fetch found no node. -/
def missed (ensemble : Ensemble) (id : SessionId) (path : Path) (action : Action) : Ensemble :=
  if action.wantsData then ensemble.taken path
  else if action.wantsStat then ensemble.countRead.arm id .data path
  else ensemble.countRead

theorem Answers.surveyed (answers : ensemble.Answers id path) (action : Action) (traverse : Bool) :
    (ensemble.surveyed id key action traverse).Answers id path := by
  unfold Ensemble.surveyed listed
  have counted := answers.countRead
  cases action.wantsData with
  | true =>
      cases action.wantsChildren || traverse with
      | true => exact answers.taken.arm.countRead.arm
      | false => exact answers.taken.arm
  | false =>
      cases action.wantsStat with
      | true =>
          cases action.wantsChildren || traverse with
          | true => exact counted.arm.countRead.arm
          | false => exact counted.arm
      | false =>
          cases action.wantsChildren || traverse with
          | true => exact counted.arm
          | false => exact answers

theorem Answers.missed (answers : ensemble.Answers id path) (action : Action) :
    (ensemble.missed id key action).Answers id path := by
  unfold Ensemble.missed
  split
  · exact answers.taken
  · split
    · exact answers.countRead.arm
    · exact answers.countRead

theorem sameTree_surveyed (ensemble : Ensemble) (id : SessionId) (path : Path) (action : Action)
    (traverse : Bool) : (ensemble.surveyed id path action traverse).SameTree ensemble := by
  unfold surveyed listed
  simp only
  constructor <;> split <;> (try split) <;> (try split) <;> rfl

theorem sameTree_missed (ensemble : Ensemble) (id : SessionId) (path : Path) (action : Action) :
    (ensemble.missed id path action).SameTree ensemble := by
  unfold missed
  split
  · exact ⟨rfl, rfl⟩
  · split <;> exact ⟨rfl, rfl⟩

/-- Holds of the kinds of watches that a fetch leaves on a node it found. -/
def watches (action : Action) (traverse : Bool) : WatchKind → Bool
  | .data => action.wantsData || action.wantsStat
  | .child => action.wantsChildren || traverse

theorem isArmed_surveyed (isOpen : ensemble.IsOpen id) {action : Action} {traverse : Bool} :
    (ensemble.surveyed id path action traverse).isArmed id kind key = true ↔
      key = path ∧ watches action traverse kind = true ∨ ensemble.isArmed id kind key = true := by
  have listedArms : ∀ {read : Ensemble}, read.IsOpen id → ∀ lists : Bool,
      (read.listed id path lists).isArmed id kind key = true ↔
        (lists = true ∧ kind = .child ∧ key = path) ∨ read.isArmed id kind key = true := by
    intro read readOpen lists
    cases lists with
    | true =>
        have countedOpen : read.countRead.IsOpen id := readOpen
        have armed : (read.countRead.arm id .child path).isArmed id kind key = true ↔
            kind = .child ∧ key = path ∨ read.countRead.isArmed id kind key = true :=
          isArmed_arm countedOpen
        simp only [listed, if_true, true_and]
        exact armed
    | false => simp [listed]
  have takenOpen : (ensemble.taken path).IsOpen id := isOpen
  have countedOpen : ensemble.countRead.IsOpen id := isOpen
  have takenArmed : ((ensemble.taken path).arm id .data path).isArmed id kind key = true ↔
      kind = .data ∧ key = path ∨ ensemble.isArmed id kind key = true := isArmed_arm takenOpen
  have countedArmed : (ensemble.countRead.arm id .data path).isArmed id kind key = true ↔
      kind = .data ∧ key = path ∨ ensemble.isArmed id kind key = true := isArmed_arm countedOpen
  unfold surveyed
  simp only
  by_cases wantsData : action.wantsData = true
  · rw [if_pos wantsData, listedArms (isOpen_arm takenOpen), takenArmed]
    cases kind <;> simp [watches, wantsData, and_comm]
  · by_cases wantsStat : action.wantsStat = true
    · rw [if_neg wantsData, if_pos wantsStat, listedArms (isOpen_arm countedOpen), countedArmed]
      cases kind <;> simp [watches, wantsStat, and_comm]
    · rw [if_neg wantsData, if_neg wantsStat, listedArms isOpen]
      cases kind <;> simp [watches, wantsData, wantsStat, and_comm]

/-- A fetch that found no node leaves a watch only if it asked for the stat alone. -/
theorem isArmed_missed (isOpen : ensemble.IsOpen id) {action : Action} :
    (ensemble.missed id path action).isArmed id kind key = true ↔
      kind = .data ∧ key = path ∧ action.wantsStat = true ∧ action.wantsData = false ∨
        ensemble.isArmed id kind key = true := by
  have countedOpen : ensemble.countRead.IsOpen id := isOpen
  have countedArmed : (ensemble.countRead.arm id .data path).isArmed id kind key = true ↔
      kind = .data ∧ key = path ∨ ensemble.isArmed id kind key = true := isArmed_arm countedOpen
  have takenArmed : (ensemble.taken path).isArmed id kind key = ensemble.isArmed id kind key := rfl
  unfold missed
  by_cases wantsData : action.wantsData = true
  · rw [if_pos wantsData, takenArmed]
    simp [wantsData]
  · by_cases wantsStat : action.wantsStat = true
    · rw [if_neg wantsData, if_pos wantsStat, countedArmed]
      simp [wantsData, wantsStat]
    · rw [if_neg wantsData, if_neg wantsStat]
      simp only [wantsStat, Bool.false_eq_true, false_and, and_false, false_or]
      rfl

/-! ## One open session -/

/-- There is one session, it is open, and this is its number and its handler. -/
def HasOnly (ensemble : Ensemble) (id : SessionId) (handler : Generation) : Prop :=
  ∃ session, ensemble.sessions = [session] ∧ session.id = id ∧ session.handler = handler ∧
    session.closed = false

theorem HasOnly.isOpen {handler : Generation} (single : ensemble.HasOnly id handler) :
    ensemble.IsOpen id := by
  obtain ⟨session, sessions, isId, _, notClosed⟩ := single
  exact ⟨session, by simp [session?, sessions, isId], notClosed⟩

theorem HasOnly.arm {handler : Generation} (single : ensemble.HasOnly id handler) :
    (ensemble.arm other kind path).HasOnly id handler := by
  obtain ⟨session, sessions, isId, isHandler, notClosed⟩ := single
  by_cases same : session.id = other
  · refine ⟨session.arm kind path, ?_, by simp [isId], by simp [isHandler], by simp [notClosed]⟩
    simp [Ensemble.arm, updateSession, sessions, same]
  · refine ⟨session, ?_, isId, isHandler, notClosed⟩
    simp [Ensemble.arm, updateSession, sessions, same]

theorem HasOnly.surveyed {handler : Generation} (single : ensemble.HasOnly id handler)
    (path : Path) (action : Action) (traverse : Bool) :
    (ensemble.surveyed id path action traverse).HasOnly id handler := by
  have listedOnly : ∀ {read : Ensemble}, read.HasOnly id handler → ∀ lists : Bool,
      (read.listed id path lists).HasOnly id handler := by
    intro read only lists
    have counted : read.countRead.HasOnly id handler := only
    cases lists with
    | true => exact counted.arm
    | false => exact only
  have taken : (ensemble.taken path).HasOnly id handler := single
  have counted : ensemble.countRead.HasOnly id handler := single
  unfold Ensemble.surveyed
  apply listedOnly
  split
  · exact taken.arm
  · split
    · exact counted.arm
    · exact single

theorem HasOnly.missed {handler : Generation} (single : ensemble.HasOnly id handler)
    (path : Path) (action : Action) : (ensemble.missed id path action).HasOnly id handler := by
  have counted : ensemble.countRead.HasOnly id handler := single
  unfold Ensemble.missed
  split
  · exact single
  · split
    · exact counted.arm
    · exact single

theorem sessions_fire (ensemble : Ensemble) (watch : WatchKind) (kind : EventKind)
    (path : Path) :
    (ensemble.fire watch kind path).2.sessions =
      ensemble.sessions.map fun session => session.fired watch path := rfl

theorem HasOnly.fire {handler : Generation} (single : ensemble.HasOnly id handler)
    (event : EventKind) : (ensemble.fire watch event path).2.HasOnly id handler := by
  obtain ⟨session, sessions, isId, isHandler, notClosed⟩ := single
  refine ⟨session.fired watch path, ?_, by simp [isId], by simp [isHandler], by simp [notClosed]⟩
  rw [sessions_fire, sessions]
  rfl

theorem isArmed_fire (event : EventKind) :
    (ensemble.fire watch event path).2.isArmed id kind key = true ↔
      ¬ (kind = watch ∧ key = path) ∧ ensemble.isArmed id kind key = true := by
  have session : (ensemble.fire watch event path).2.session? id =
      (ensemble.session? id).map fun session => session.fired watch path := by
    rw [session?, sessions_fire]
    exact find?_map_of_id (fun session => RemoteSession.id_fired session watch path) _ _
  rw [isArmed, isArmed, session]
  cases ensemble.session? id with
  | none => simp
  | some session => exact RemoteSession.isWatching_fired

theorem HasOnly.fire_fst {handler : Generation} (single : ensemble.HasOnly id handler)
    (event : EventKind) :
    (ensemble.fire watch event path).1 =
      if ensemble.isArmed id watch path = true then
        [{ handler, event := .ofNode event path }]
      else [] := by
  obtain ⟨session, sessions, isId, isHandler, _⟩ := single
  have found : ensemble.session? id = some session := by simp [session?, sessions, isId]
  rw [isArmed, found]
  simp only [Ensemble.fire, sessions]
  by_cases watching : session.isWatching watch path = true
  · simp [watching, isHandler]
  · simp [watching]

/-- The deliveries are those of the watches that were armed, in the order of firing. -/
theorem HasOnly.fireEach_fst {handler : Generation} (single : ensemble.HasOnly id handler)
    {fires : List (WatchKind × EventKind × Path)}
    (distinct : fires.Pairwise fun first second =>
      ¬ (second.1 = first.1 ∧ second.2.2 = first.2.2)) :
    (fireEach fires ensemble).1 =
      (fires.filter fun fire => ensemble.isArmed id fire.1 fire.2.2).map fun fire =>
        { handler, event := .ofNode fire.2.1 fire.2.2 } := by
  induction fires generalizing ensemble with
  | nil => rfl
  | cons fire others inductionHypothesis =>
      obtain ⟨watch, event, path⟩ := fire
      obtain ⟨apart, rest⟩ := List.pairwise_cons.mp distinct
      have sameOthers : (others.filter fun fire =>
          (ensemble.fire watch event path).2.isArmed id fire.1 fire.2.2) =
            others.filter fun fire => ensemble.isArmed id fire.1 fire.2.2 := by
        apply List.filter_congr
        intro fire member
        rw [Bool.eq_iff_iff, isArmed_fire]
        exact ⟨And.right, fun armed => ⟨apart fire member, armed⟩⟩
      have onlyFired : (ensemble.fire watch event path).2.HasOnly id handler := single.fire event
      have tail := inductionHypothesis onlyFired rest
      rw [sameOthers] at tail
      have head : (ensemble.fire watch event path).1 =
          if ensemble.isArmed id watch path = true then
            [{ handler, event := .ofNode event path }]
          else [] := single.fire_fst event
      rw [fireEach]
      simp only [tail, head]
      by_cases armed : ensemble.isArmed id watch path = true
      · simp [armed]
      · simp [armed]

theorem HasOnly.fireEach {handler : Generation} (single : ensemble.HasOnly id handler)
    (fires : List (WatchKind × EventKind × Path)) :
    (fireEach fires ensemble).2.HasOnly id handler := by
  induction fires generalizing ensemble with
  | nil => exact single
  | cons fire others inductionHypothesis => exact inductionHypothesis (single.fire fire.2.1)

theorem isArmed_fireEach (fires : List (WatchKind × EventKind × Path)) :
    (fireEach fires ensemble).2.isArmed id kind key = true ↔
      (∀ fire ∈ fires, ¬ (kind = fire.1 ∧ key = fire.2.2)) ∧
        ensemble.isArmed id kind key = true := by
  induction fires generalizing ensemble with
  | nil => simp [fireEach]
  | cons fire others inductionHypothesis =>
      obtain ⟨watch, event, path⟩ := fire
      rw [fireEach]
      simp only
      rw [inductionHypothesis, isArmed_fire, List.forall_mem_cons]
      tauto

end Ensemble

end WatchedTree
