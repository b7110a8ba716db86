import WatchedTree.Proofs.Ensemble.Offspring
import WatchedTree.Proofs.History
import WatchedTree.Proofs.World.Reading

/-!
# Armed watches

As long as a watch is armed, nothing has changed of what it watches since the last read that armed
it: each change fires the watches on what it changes, and spares the others.
-/
namespace WatchedTree

namespace Ensemble

open WatchedTree.Path

variable {ensemble before after middle : Ensemble} {id other : SessionId} {kind watch : WatchKind}
  {path key : Path} {data : Payload} {owner : Int} {request : Request}

/-! ## What is watched -/

/-- Payload, version and transaction of the payload at a path; `none` if there is no node. -/
def contents? (ensemble : Ensemble) (path : Path) : Option (Payload × Int × Int) :=
  (ensemble.nodes.get? path).map fun node => (node.data, node.stat.version, node.stat.mzxid)

/-- Nothing has changed that a watch on a path is about: for a data watch the node or its absence,
and its payload; for a child watch the presence of the node and the names of its children. -/
def Agrees : WatchKind → Path → Ensemble → Ensemble → Prop
  | .data, path, after, before => after.contents? path = before.contents? path
  | .child, path, after, before =>
    path ∈ before.nodes.keys ∧ path ∈ after.nodes.keys ∧
      after.childNames path = before.childNames path

theorem Agrees.trans (left : Agrees kind path middle before) (right : Agrees kind path after middle) :
    Agrees kind path after before := by
  cases kind with
  | data => exact Eq.trans right left
  | child => exact ⟨left.1, right.2.1, right.2.2.trans left.2.2⟩

/-- A read that is answered arms a watch. A data watch is armed also where there is no node, if the
stat alone is read. -/
inductive Arms (ensemble : Ensemble) (id : SessionId) : WatchKind → Path → Request → Prop where
  | stat {path : Path} {stat : Option Stat}
      (answered : (ensemble.readStat id path).1 = .ok stat) :
      Arms ensemble id .data path (.readStat id path)
  | data {path : Path} {payload : Payload} {stat : Stat}
      (answered : (ensemble.readData id path).1 = .ok (payload, stat)) :
      Arms ensemble id .data path (.readData id path)
  | children {path : Path} {names : List Text}
      (answered : (ensemble.readChildren id path).1 = .ok names) :
      Arms ensemble id .child path (.readChildren id path)

/-- Every node that is watched for its children is there. -/
def IsAttached (ensemble : Ensemble) : Prop :=
  ∀ id path, ensemble.isArmed id .child path = true → path ∈ ensemble.nodes.keys

/-! ## Watches that stay armed -/

theorem contents?_grown_of_ne (isOther : key ≠ path) :
    (ensemble.grown path data owner).contents? key = ensemble.contents? key := by
  rw [contents?, get?_grown, if_neg isOther]
  split
  · rw [Option.map_map]
    rfl
  · rfl

theorem contents?_pruned_of_ne (isOther : key ≠ path) :
    (ensemble.pruned path).contents? key = ensemble.contents? key := by
  rw [contents?, get?_pruned, if_neg isOther]
  split
  · rw [Option.map_map]
    rfl
  · rfl

theorem childName?_eq_none_of_parent_ne (valid : key.IsValid) (isOther : key ≠ path.parent) :
    childName? key path = none := by
  by_contra named
  obtain ⟨name, isName⟩ := Option.ne_none_iff_exists'.mp named
  obtain ⟨isSegment, rfl⟩ := (childName?_eq_some_iff valid).mp isName
  exact isOther (parent_child valid isSegment).symm

theorem childNames_grown_of_ne (valid : key.IsValid) (fresh : path ∉ ensemble.nodes.keys)
    (isOther : key ≠ path.parent) :
    (ensemble.grown path data owner).childNames key = ensemble.childNames key := by
  rw [childNames, keys_grown fresh, List.filterMap_append, List.filterMap_cons,
    childName?_eq_none_of_parent_ne valid isOther, List.filterMap_nil, List.append_nil]
  rfl

theorem childNames_pruned_of_ne (valid : key.IsValid) (isOther : key ≠ path.parent) :
    (ensemble.pruned path).childNames key = ensemble.childNames key := by
  have same : (ensemble.nodes.keys.filter (· ≠ path)).filterMap (childName? key) =
      ensemble.nodes.keys.filterMap (childName? key) := by
    rw [List.filterMap_filter]
    apply List.filterMap_congr
    intro child _
    by_cases gone : child = path
    · rw [gone, childName?_eq_none_of_parent_ne valid isOther]
      simp
    · simp [gone]
  rw [childNames, keys_pruned, same]
  rfl

/-- There is something for a watch to be about: a child watch is about a node. -/
def IsSeen (ensemble : Ensemble) : WatchKind → Path → Prop
  | .data, _ => True
  | .child, path => path ∈ ensemble.nodes.keys

theorem IsAttached.isSeen (attached : ensemble.IsAttached)
    (armed : ensemble.isArmed id kind path = true) : ensemble.IsSeen kind path := by
  cases kind with
  | data => trivial
  | child => exact attached id path armed

theorem IsSeen.agrees (seen : ensemble.IsSeen kind path) : Agrees kind path ensemble ensemble := by
  cases kind with
  | data => rfl
  | child => exact ⟨seen, seen, rfl⟩

theorem Agrees.of_nodes (agrees : Agrees kind path middle before)
    (same : after.nodes = middle.nodes) : Agrees kind path after before := by
  cases kind with
  | data =>
      rw [Agrees, contents?, same]
      exact agrees
  | child =>
      rw [Agrees, childNames, same]
      exact agrees

/-- The watches that are left are ones that were armed before, and nothing has changed that they are
about. -/
def Spares (after before : Ensemble) : Prop :=
  ∀ id kind path, after.isArmed id kind path = true →
    before.isArmed id kind path = true ∧ Agrees kind path after before

theorem IsAttached.spares (attached : before.IsAttached) (nodes : after.nodes = before.nodes)
    (watches : ∀ id kind path, after.isArmed id kind path = true →
      before.isArmed id kind path = true) : after.Spares before :=
  fun id kind path armed =>
    ⟨watches id kind path armed,
      (attached.isSeen (watches id kind path armed)).agrees.of_nodes nodes⟩

theorem IsAttached.spares_of_same (attached : before.IsAttached) (after : Ensemble)
    (nodes : after.nodes = before.nodes) (sessions : after.sessions = before.sessions) :
    after.Spares before := by
  apply attached.spares nodes
  intro id kind path armed
  rw [isArmed, session?, ← sessions]
  exact armed

/-- A change of the tree that fires watches spares the others, if it leaves alone what these are
about. -/
theorem IsAttached.spares_fireEach (attached : before.IsAttached) (after : Ensemble)
    (sessions : after.sessions = before.sessions) (fires : List (WatchKind × EventKind × Path))
    (untouched : ∀ kind path, (∀ fire ∈ fires, ¬ (kind = fire.1 ∧ path = fire.2.2)) →
      before.IsSeen kind path → Agrees kind path after before) :
    (fireEach fires after).2.Spares before := by
  intro id kind path armed
  obtain ⟨unfired, stillArmed⟩ := (isArmed_fireEach fires).mp armed
  have wasArmed : before.isArmed id kind path = true := by
    rw [isArmed, session?, ← sessions]
    exact stillArmed
  exact ⟨wasArmed, (untouched kind path unfired (attached.isSeen wasArmed)).of_nodes
    (nodes_fireEach fires after)⟩

theorem agrees_grown (tidy : ensemble.IsTidy) (fresh : path ∉ ensemble.nodes.keys)
    (unfired : ∀ fire ∈ creationFires path, ¬ (kind = fire.1 ∧ key = fire.2.2))
    (seen : ensemble.IsSeen kind key) :
    Agrees kind key (ensemble.grown path data owner) ensemble := by
  cases kind with
  | data => exact contents?_grown_of_ne fun same => unfired _ List.mem_cons_self ⟨rfl, same⟩
  | child =>
      have isOther : key ≠ path.parent := fun same =>
        unfired _ (List.mem_cons_of_mem _ List.mem_cons_self) ⟨rfl, same⟩
      exact ⟨seen, mem_keys_grown.mpr (Or.inr seen),
        childNames_grown_of_ne (tidy.sound.mem_valid seen) fresh isOther⟩

theorem agrees_rewritten
    (unfired : ∀ fire ∈ [(WatchKind.data, EventKind.dataChanged, path)],
      ¬ (kind = fire.1 ∧ key = fire.2.2))
    (seen : ensemble.IsSeen kind key) : Agrees kind key (ensemble.rewritten path data) ensemble := by
  cases kind with
  | data =>
      have isOther : key ≠ path := fun same => unfired _ List.mem_cons_self ⟨rfl, same⟩
      rw [Agrees, contents?, get?_rewritten, if_neg isOther, contents?]
  | child =>
      rw [Agrees, childNames, keys_rewritten]
      exact ⟨seen, seen, rfl⟩

theorem agrees_pruned (tidy : ensemble.IsTidy)
    (unfired : ∀ fire ∈ deletionFires path, ¬ (kind = fire.1 ∧ key = fire.2.2))
    (seen : ensemble.IsSeen kind key) : Agrees kind key (ensemble.pruned path) ensemble := by
  cases kind with
  | data => exact contents?_pruned_of_ne fun same => unfired _ List.mem_cons_self ⟨rfl, same⟩
  | child =>
      have isOther : key ≠ path := fun same =>
        unfired _ (List.mem_cons_of_mem _ List.mem_cons_self) ⟨rfl, same⟩
      have notParent : key ≠ path.parent := fun same =>
        unfired _ (List.mem_cons_of_mem _ (List.mem_cons_of_mem _ List.mem_cons_self)) ⟨rfl, same⟩
      exact ⟨seen, mem_keys_pruned.mpr ⟨isOther, seen⟩,
        childNames_pruned_of_ne (tidy.sound.mem_valid seen) notParent⟩

theorem spares_create (tidy : ensemble.IsTidy) (attached : ensemble.IsAttached) :
    (ensemble.create path data owner).2.Spares ensemble := by
  rcases ensemble.create_cases path data owner with ⟨fault, refused⟩ | ⟨absent, _, done⟩
  · rw [refused]
    exact attached.spares_of_same _ rfl rfl
  · rw [done]
    exact attached.spares_fireEach (ensemble.grown path data owner) rfl _ fun _ _ =>
      agrees_grown tidy (Table.get?_eq_none_iff.mp absent)

theorem spares_setData (attached : ensemble.IsAttached) :
    (ensemble.setData path data).2.Spares ensemble := by
  rcases ensemble.setData_cases path data with ⟨fault, refused⟩ | ⟨_, done⟩
  · rw [refused]
    exact attached.spares_of_same _ rfl rfl
  · rw [done]
    exact attached.spares_fireEach (ensemble.rewritten path data) rfl _ fun _ _ =>
      agrees_rewritten

theorem spares_delete (tidy : ensemble.IsTidy) (attached : ensemble.IsAttached) :
    (ensemble.delete path).2.Spares ensemble := by
  rcases ensemble.delete_cases path with ⟨fault, refused⟩ | ⟨_, _, done⟩
  · rw [refused]
    exact attached.spares_of_same _ rfl rfl
  · rw [done]
    exact attached.spares_fireEach (ensemble.pruned path) rfl _ fun _ _ => agrees_pruned tidy

/-! ## Sessions -/

theorem isArmed_updateSession {change : RemoteSession → RemoteSession}
    (sameId : ∀ session, (change session).id = session.id)
    (fewer : ∀ session, (change session).isWatching kind path = true →
      session.isWatching kind path = true)
    (armed : (ensemble.updateSession id change).isArmed other kind path = true) :
    ensemble.isArmed other kind path = true := by
  rw [isArmed, session?_updateSession sameId] at armed
  rw [isArmed]
  split at armed
  · cases armed
  next session found =>
    split at found
    · obtain ⟨old, isOld, rfl⟩ := Option.map_eq_some_iff.mp found
      rw [isOld]
      exact fewer old armed
    · rw [found]
      exact armed

theorem spares_closeSession (attached : ensemble.IsAttached) (id : SessionId) :
    (ensemble.closeSession id).Spares ensemble := by
  refine attached.spares rfl fun other kind path => ?_
  exact isArmed_updateSession (fun _ => rfl) fun _ watching => nomatch watching

theorem spares_expireSession (attached : ensemble.IsAttached) (id : SessionId) :
    (ensemble.expireSession id).Spares ensemble := by
  refine attached.spares rfl fun other kind path => ?_
  exact isArmed_updateSession (fun _ => rfl) fun _ watching => nomatch watching

/-- A new session watches nothing. -/
theorem spares_openSession (attached : ensemble.IsAttached) (handler : Generation) :
    (ensemble.openSession handler).2.Spares ensemble := by
  unfold openSession
  split
  · exact attached.spares_of_same _ rfl rfl
  · refine attached.spares rfl fun id kind path armed => ?_
    rw [isArmed, session?, List.find?_append] at armed
    rw [isArmed, session?]
    cases found : ensemble.sessions.find? fun session => session.id == id with
    | some session =>
        rw [found] at armed
        exact armed
    | none =>
        rw [found, Option.none_or] at armed
        split at armed
        · cases armed
        next session isNew =>
          obtain rfl := List.mem_singleton.mp (List.mem_of_find?_eq_some isNew)
          cases kind <;> cases armed

/-! ## Reads -/

theorem isArmed_of_arm (armed : (ensemble.arm id kind path).isArmed other watch key = true) :
    (other = id ∧ watch = kind ∧ key = path) ∨ ensemble.isArmed other watch key = true := by
  rw [isArmed, arm, session?_updateSession fun session => session.id_arm kind path] at armed
  rw [isArmed]
  split at armed
  · cases armed
  next session found =>
    split at found
    next same =>
      obtain ⟨old, isOld, rfl⟩ := Option.map_eq_some_iff.mp found
      have isOpen : old.closed = false := by
        rw [← old.closed_arm kind path]
        exact (Bool.not_eq_true' _).mp (Bool.and_eq_true_iff.mp armed).1
      rw [isOld]
      exact ((RemoteSession.isWatching_arm isOpen).mp armed).imp_left fun isNew => ⟨same, isNew⟩
    next =>
      rw [found]
      exact Or.inr armed

/-- Whatever is armed after a request was armed by it, or was armed before and is spared by it. -/
def Rearms (after before : Ensemble) (request : Request) : Prop :=
  ∀ id kind path, after.isArmed id kind path = true →
    before.Arms id kind path request ∨
      before.isArmed id kind path = true ∧ Agrees kind path after before

theorem Spares.rearms (spares : after.Spares before) : after.Rearms before request :=
  fun id kind path armed => Or.inr (spares id kind path armed)

theorem IsAttached.rearms_arm (attached : before.IsAttached) (middle : Ensemble)
    (nodes : middle.nodes = before.nodes) (sessions : middle.sessions = before.sessions)
    (arms : before.Arms id kind path request) :
    (middle.arm id kind path).Rearms before request := by
  intro other watch key armed
  rcases isArmed_of_arm armed with ⟨rfl, rfl, rfl⟩ | old
  · exact Or.inl arms
  · have wasArmed : before.isArmed other watch key = true := by
      rw [isArmed, session?, ← sessions]
      exact old
    exact Or.inr ⟨wasArmed, (attached.isSeen wasArmed).agrees.of_nodes nodes⟩

theorem readStat_of_fault {fault : TransportFault}
    (obstacle : ensemble.readFault? id path = some fault) :
    ensemble.readStat id path = (.error fault, ensemble.countRead) := by
  have obstacle : ensemble.countRead.readFault? id path = some fault := obstacle
  rw [readStat, obstacle]

theorem readData_of_fault {fault : TransportFault}
    (obstacle : ensemble.readFault? id path = some fault) :
    ensemble.readData id path = (.error fault, none, ensemble.countRead) := by
  have obstacle : ensemble.countRead.readFault? id path = some fault := obstacle
  rw [readData, obstacle]

theorem readChildren_of_fault {fault : TransportFault}
    (obstacle : ensemble.readFault? id path = some fault) :
    ensemble.readChildren id path = (.error fault, ensemble.countRead) := by
  have obstacle : ensemble.countRead.readFault? id path = some fault := obstacle
  rw [readChildren, obstacle]

theorem rearms_readStat (attached : ensemble.IsAttached) (id : SessionId) (path : Path) :
    (ensemble.readStat id path).2.Rearms ensemble (.readStat id path) := by
  cases obstacle : ensemble.readFault? id path with
  | some fault =>
      rw [readStat_of_fault obstacle]
      exact Spares.rearms (attached.spares_of_same _ rfl rfl)
  | none =>
      have read := readStat_of_healthy obstacle
      rw [read]
      exact attached.rearms_arm ensemble.countRead rfl rfl (.stat (congrArg Prod.fst read))

theorem rearms_readData (attached : ensemble.IsAttached) (id : SessionId) (path : Path) :
    (ensemble.readData id path).2.2.Rearms ensemble (.readData id path) := by
  cases obstacle : ensemble.readFault? id path with
  | some fault =>
      rw [readData_of_fault obstacle]
      exact Spares.rearms (attached.spares_of_same _ rfl rfl)
  | none =>
      obtain ⟨hold, ⟨node, _, read⟩ | read⟩ := readData_of_healthy obstacle
      · rw [read]
        exact attached.rearms_arm (ensemble.taken path) rfl rfl (.data (congrArg Prod.fst read))
      · rw [read]
        exact Spares.rearms (attached.spares_of_same _ rfl rfl)

theorem rearms_readChildren (attached : ensemble.IsAttached) (id : SessionId) (path : Path) :
    (ensemble.readChildren id path).2.Rearms ensemble (.readChildren id path) := by
  cases obstacle : ensemble.readFault? id path with
  | some fault =>
      rw [readChildren_of_fault obstacle]
      exact Spares.rearms (attached.spares_of_same _ rfl rfl)
  | none =>
      rcases readChildren_of_healthy obstacle with read | read
      · rw [read]
        exact attached.rearms_arm ensemble.countRead rfl rfl (.children (congrArg Prod.fst read))
      · rw [read]
        exact Spares.rearms (attached.spares_of_same _ rfl rfl)

theorem Arms.isSeen (arms : ensemble.Arms id kind path request) : ensemble.IsSeen kind path := by
  cases arms with
  | stat | data => trivial
  | children answered => exact mem_keys_of_readChildren answered

theorem Arms.agrees (arms : ensemble.Arms id kind path request) :
    Agrees kind path (ensemble.serve request) ensemble := by
  apply arms.isSeen.agrees.of_nodes
  cases arms with
  | stat => exact (sameTree_readStat _ _ _).1
  | data => exact (sameTree_readData _ _ _).1
  | children => exact (sameTree_readChildren _ _ _).1

theorem Arms.isArmed (arms : ensemble.Arms id kind path request) :
    (ensemble.serve request).isArmed id kind path = true := by
  cases obstacle : ensemble.readFault? id path with
  | some fault =>
      cases arms with
      | stat answered =>
          rw [readStat_of_fault obstacle] at answered
          cases answered
      | data answered =>
          rw [readData_of_fault obstacle] at answered
          cases answered
      | children answered =>
          rw [readChildren_of_fault obstacle] at answered
          cases answered
  | none =>
      have armed : ∀ kind, (ensemble.countRead.arm id kind path).isArmed id kind path = true :=
        isArmed_arm_of_healthy obstacle
      cases arms with
      | stat answered =>
          rw [serve, readStat_of_healthy obstacle]
          exact armed .data
      | data answered =>
          rw [serve]
          obtain ⟨hold, ⟨node, _, read⟩ | read⟩ := readData_of_healthy obstacle
          · rw [read]
            exact armed .data
          · rw [read] at answered
            cases answered
      | children answered =>
          rw [serve]
          rcases readChildren_of_healthy obstacle with read | read
          · rw [read]
            exact armed .child
          · rw [read] at answered
            cases answered

/-! ## Runs -/

theorem rearms_serve (tidy : ensemble.IsTidy) (attached : ensemble.IsAttached)
    (orderly : request.IsOrderly) : (ensemble.serve request).Rearms ensemble request := by
  cases request with
  | create path data owner => exact (spares_create tidy attached).rearms
  | setData path data => exact (spares_setData attached).rearms
  | delete path => exact (spares_delete tidy attached).rearms
  | replaceSilently path data => exact absurd orderly id
  | readStat id path => exact rearms_readStat attached id path
  | readData id path => exact rearms_readData attached id path
  | readChildren id path => exact rearms_readChildren attached id path
  | openSession handler => exact (spares_openSession attached handler).rearms
  | closeSession id => exact (spares_closeSession attached id).rearms
  | expireSession id => exact (spares_expireSession attached id).rearms
  | failReads | healReads | refuseSessions | hold | release =>
      exact Spares.rearms (attached.spares_of_same _ rfl rfl)

theorem IsAttached.serve (attached : ensemble.IsAttached) (tidy : ensemble.IsTidy)
    (orderly : request.IsOrderly) : (ensemble.serve request).IsAttached := by
  intro id path armed
  rcases rearms_serve tidy attached orderly id .child path armed with arms | ⟨_, _, member, _⟩
  · exact arms.agrees.2.1
  · exact member

theorem isAttached_serveAll {requests : List Request}
    (orderly : ∀ request ∈ requests, request.IsOrderly) :
    (({} : Ensemble).serveAll requests).IsAttached := by
  induction requests using List.reverseRecOn with
  | nil =>
      intro id path armed
      cases armed
  | append_singleton others request inductionHypothesis =>
      have earlier : ∀ request ∈ others, request.IsOrderly :=
        fun other member => orderly other (List.mem_append_left _ member)
      rw [serveAll_append]
      exact IsAttached.serve (inductionHypothesis earlier) (isTidy_serveAll earlier)
        (orderly request (List.mem_append_right _ List.mem_cons_self))

/-- Since the last read that armed a watch, nothing has changed at any time that the watch is
about. -/
structure RestsSince (id : SessionId) (kind : WatchKind) (path : Path)
    (requests before : List Request) (read : Request) (after : List Request) : Prop where
  split : requests = before ++ read :: after
  arms : (({} : Ensemble).serveAll before).Arms id kind path read
  last : NoneIn (fun middle later =>
    (({} : Ensemble).serveAll (before ++ read :: middle)).Arms id kind path later) after
  rests : ∀ middle rest, after = middle ++ rest →
    Agrees kind path (({} : Ensemble).serveAll (before ++ read :: middle))
      (({} : Ensemble).serveAll before)

theorem serveAll_concat (requests : List Request) (request : Request) :
    ensemble.serveAll (requests ++ [request]) = (ensemble.serveAll requests).serve request :=
  serveAll_append ensemble requests [request]

theorem restsSince_last {others : List Request}
    (arms : (({} : Ensemble).serveAll others).Arms id kind path request) :
    RestsSince id kind path (others ++ [request]) others request [] where
  split := rfl
  arms := arms
  last := noneIn_nil _
  rests := by
    intro middle rest split
    obtain ⟨rfl, rfl⟩ := List.append_eq_nil_iff.mp split.symm
    rw [serveAll_concat]
    exact arms.agrees

theorem RestsSince.concat {requests earlier later : List Request} {read : Request}
    (since : RestsSince id kind path requests earlier read later)
    (quiet : ¬ (({} : Ensemble).serveAll requests).Arms id kind path request)
    (agrees : Agrees kind path (({} : Ensemble).serveAll (requests ++ [request]))
      (({} : Ensemble).serveAll requests)) :
    RestsSince id kind path (requests ++ [request]) earlier read (later ++ [request]) where
  split := by rw [since.split, List.append_assoc, List.cons_append]
  arms := since.arms
  last := noneIn_concat.mpr ⟨since.last, since.split ▸ quiet⟩
  rests := by
    intro middle rest split
    rcases List.eq_nil_or_concat rest with rfl | ⟨front, last, rfl⟩
    · rw [List.append_nil] at split
      have whole := since.rests later [] (List.append_nil _).symm
      rw [since.split, List.append_assoc, List.cons_append] at agrees
      rw [← split]
      exact whole.trans agrees
    · rw [List.concat_eq_append, ← List.append_assoc] at split
      exact since.rests middle front (List.append_inj' split rfl).1

/-- A watch that is armed rests since the last read that armed it. -/
theorem exists_restsSince {requests : List Request}
    (orderly : ∀ request ∈ requests, request.IsOrderly)
    (armed : (({} : Ensemble).serveAll requests).isArmed id kind path = true) :
    ∃ before read after, RestsSince id kind path requests before read after := by
  induction requests using List.reverseRecOn with
  | nil => cases armed
  | append_singleton others request inductionHypothesis =>
      have earlier : ∀ request ∈ others, request.IsOrderly :=
        fun other member => orderly other (List.mem_append_left _ member)
      by_cases arms : (({} : Ensemble).serveAll others).Arms id kind path request
      · exact ⟨others, request, [], restsSince_last arms⟩
      · rw [serveAll_concat] at armed
        have rearms := rearms_serve (isTidy_serveAll earlier) (isAttached_serveAll earlier)
          (orderly request (List.mem_append_right _ List.mem_cons_self))
        obtain ⟨wasArmed, agrees⟩ := (rearms id kind path armed).resolve_left arms
        obtain ⟨before, read, after, since⟩ := inductionHypothesis earlier wasArmed
        exact ⟨before, read, after ++ [request],
          since.concat arms (serveAll_concat others request ▸ agrees)⟩

end Ensemble

end WatchedTree
