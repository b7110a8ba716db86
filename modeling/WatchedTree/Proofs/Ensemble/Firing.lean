import WatchedTree.Proofs.Ensemble.Armed

/-!
# Watches that fire

Over each request, the events that reach a handler for a path are as many as the watches on the path
that disappear from open sessions of that handler: a watch is fired once, and nothing else takes it
from a session that stays open.
-/
namespace WatchedTree

namespace RemoteSession

/-- The two kinds of watches. -/
def kinds : List WatchKind := [.data, .child]

/-- Number of watches on a path. -/
def armedOn (session : RemoteSession) (path : Path) : Nat :=
  kinds.countP fun kind => session.isWatching kind path

/-- A session after some watches were fired. -/
def firedBy (fires : List (WatchKind × EventKind × Path)) (session : RemoteSession) :
    RemoteSession := fires.foldl (fun session fire => session.fired fire.1 fire.2.2) session

variable {session : RemoteSession} {watch kind : WatchKind} {path key : Path}

theorem id_firedBy (fires : List (WatchKind × EventKind × Path)) (session : RemoteSession) :
    (firedBy fires session).id = session.id := by
  induction fires generalizing session with
  | nil => rfl
  | cons fire others inductionHypothesis =>
      exact (inductionHypothesis _).trans (session.id_fired fire.1 fire.2.2)

theorem closed_firedBy (fires : List (WatchKind × EventKind × Path)) (session : RemoteSession) :
    (firedBy fires session).closed = session.closed := by
  induction fires generalizing session with
  | nil => rfl
  | cons fire others inductionHypothesis =>
      exact (inductionHypothesis _).trans (session.closed_fired fire.1 fire.2.2)

theorem handler_firedBy (fires : List (WatchKind × EventKind × Path)) (session : RemoteSession) :
    (firedBy fires session).handler = session.handler := by
  induction fires generalizing session with
  | nil => rfl
  | cons fire others inductionHypothesis =>
      exact (inductionHypothesis _).trans (session.handler_fired fire.1 fire.2.2)

/-- Firing arms nothing. -/
theorem isWatching_of_firedBy {fires : List (WatchKind × EventKind × Path)}
    (watching : (firedBy fires session).isWatching kind path = true) :
    session.isWatching kind path = true := by
  induction fires generalizing session with
  | nil => exact watching
  | cons fire others inductionHypothesis =>
      exact (isWatching_fired.mp (inductionHypothesis watching)).2

theorem armedOn_fired (session : RemoteSession) (watch : WatchKind) (path key : Path) :
    (if session.isWatching watch key = true ∧ key = path then 1 else 0) +
      (session.fired watch key).armedOn path = session.armedOn path := by
  have left : ∀ kind, (session.fired watch key).isWatching kind path =
      (decide (¬ (kind = watch ∧ path = key)) && session.isWatching kind path) := by
    intro kind
    rw [Bool.eq_iff_iff, isWatching_fired, Bool.and_eq_true, decide_eq_true_eq]
  simp only [armedOn, kinds, List.countP_cons, List.countP_nil, left]
  by_cases same : key = path
  · subst same
    cases watch <;> cases session.isWatching .data key <;> cases session.isWatching .child key <;>
      simp
  · simp [same, Ne.symm same]

end RemoteSession

namespace Ensemble

open RemoteSession

variable {ensemble before after : Ensemble} {id : SessionId} {kind watch : WatchKind}
  {path key : Path} {handler : Generation} {request : Request}

/-! ## Events and watches -/

/-- The events that a request sends out. -/
def sent (ensemble : Ensemble) : Request → List Delivery
  | .create path data owner => (ensemble.create path data owner).1.toOption.getD []
  | .setData path data => (ensemble.setData path data).1.toOption.getD []
  | .delete path => (ensemble.delete path).1.toOption.getD []
  | _ => []

/-- Number of the events for a path that go to a handler. -/
def sentTo (handler : Generation) (path : Path) (deliveries : List Delivery) : Nat :=
  deliveries.countP fun delivery => delivery.handler = handler ∧ delivery.event.path = some path

/-- A sum over the sessions of a handler. -/
def sumOver (handler : Generation) (size : RemoteSession → Nat) (sessions : List RemoteSession) :
    Nat := ((sessions.filter fun session => session.handler = handler).map size).sum

/-- Number of watches on a path in sessions of a handler. -/
def armedAt (handler : Generation) (path : Path) (sessions : List RemoteSession) : Nat :=
  sumOver handler (fun session => session.armedOn path) sessions

/-- Number of watches on a path that have disappeared from a session that is still open. -/
def lost (after before : Ensemble) (path : Path) (id : SessionId) : Nat :=
  kinds.countP fun kind =>
    before.isArmed id kind path && (after.session? id).any (fun session => !session.closed) &&
      !after.isArmed id kind path

theorem sentTo_append (handler : Generation) (path : Path) (first second : List Delivery) :
    sentTo handler path (first ++ second) =
      sentTo handler path first + sentTo handler path second := List.countP_append

theorem sumOver_cons (handler : Generation) (size : RemoteSession → Nat) (session : RemoteSession)
    (others : List RemoteSession) :
    sumOver handler size (session :: others) =
      (if session.handler = handler then size session else 0) + sumOver handler size others := by
  by_cases isHandler : session.handler = handler <;> simp [sumOver, isHandler]

/-- Firing a watch takes as many watches from the sessions of a handler as it sends events to it. -/
theorem sentTo_fire (ensemble : Ensemble) (watch : WatchKind) (kind : EventKind) (path key : Path)
    (handler : Generation) :
    sentTo handler path (ensemble.fire watch kind key).1 +
        armedAt handler path (ensemble.fire watch kind key).2.sessions =
      armedAt handler path ensemble.sessions := by
  rw [sessions_fire, fire, sentTo, armedAt, armedAt, List.countP_map, List.countP_filter]
  generalize ensemble.sessions = sessions
  induction sessions with
  | nil => rfl
  | cons session others inductionHypothesis =>
      have own := armedOn_fired session watch path key
      rw [List.map_cons, List.countP_cons, sumOver_cons, sumOver_cons, handler_fired,
        ← inductionHypothesis]
      by_cases isHandler : session.handler = handler
      · rw [if_pos isHandler, if_pos isHandler, ← own]
        have hears : (decide (session.handler = handler ∧ some key = some path) &&
            session.isWatching watch key) = true ↔
              session.isWatching watch key = true ∧ key = path := by
          simp [isHandler, and_comm]
        simp only [Function.comp_apply, Event.ofNode, hears]
        omega
      · simp [isHandler]

theorem sentTo_fireEach (fires : List (WatchKind × EventKind × Path)) (ensemble : Ensemble)
    (path : Path) (handler : Generation) :
    sentTo handler path (fireEach fires ensemble).1 +
        armedAt handler path (fireEach fires ensemble).2.sessions =
      armedAt handler path ensemble.sessions := by
  induction fires generalizing ensemble with
  | nil => exact Nat.zero_add _
  | cons fire others inductionHypothesis =>
      obtain ⟨watch, kind, key⟩ := fire
      have first := sentTo_fire ensemble watch kind path key handler
      have rest := inductionHypothesis (ensemble.fire watch kind key).2
      rw [fireEach, sentTo_append]
      simp only
      omega

theorem sessions_fireEach (fires : List (WatchKind × EventKind × Path)) (ensemble : Ensemble) :
    (fireEach fires ensemble).2.sessions = ensemble.sessions.map (firedBy fires) := by
  induction fires generalizing ensemble with
  | nil => exact (List.map_id _).symm
  | cons fire others inductionHypothesis =>
      obtain ⟨watch, kind, key⟩ := fire
      rw [fireEach]
      simp only
      rw [inductionHypothesis, sessions_fire, List.map_map]
      rfl

/-! ## Sessions are numbered -/

/-- Sessions have the numbers from 1 on. -/
def IsNumbered (ensemble : Ensemble) : Prop :=
  ensemble.sessions.map (·.id) = List.range' 1 ensemble.sessions.length

theorem IsNumbered.of_map (numbered : before.IsNumbered) {change : RemoteSession → RemoteSession}
    (sameId : ∀ session, (change session).id = session.id)
    (sessions : after.sessions = before.sessions.map change) : after.IsNumbered := by
  rw [IsNumbered, sessions, List.map_map, List.length_map, ← numbered]
  exact List.map_congr_left fun session _ => sameId session

theorem IsNumbered.fireEach (numbered : before.IsNumbered) (after : Ensemble)
    (sessions : after.sessions = before.sessions) (fires : List (WatchKind × EventKind × Path)) :
    (fireEach fires after).2.IsNumbered := by
  apply numbered.of_map (id_firedBy fires)
  rw [sessions_fireEach, sessions]

theorem IsNumbered.updateSession (numbered : ensemble.IsNumbered) (id : SessionId)
    {change : RemoteSession → RemoteSession}
    (sameId : ∀ session, (change session).id = session.id) :
    (ensemble.updateSession id change).IsNumbered := by
  refine numbered.of_map (fun session => ?_) rfl
  split
  · exact sameId session
  · rfl

theorem IsNumbered.arm (numbered : ensemble.IsNumbered) (id : SessionId) (kind : WatchKind)
    (path : Path) : (ensemble.arm id kind path).IsNumbered :=
  numbered.updateSession id fun session => session.id_arm kind path

theorem IsNumbered.openSession (numbered : ensemble.IsNumbered) (handler : Generation) :
    (ensemble.openSession handler).2.IsNumbered := by
  unfold Ensemble.openSession
  split
  · exact numbered
  · rw [IsNumbered] at numbered ⊢
    rw [List.map_append, numbered, List.length_append, List.length_singleton, List.range'_concat,
      Nat.one_mul, Nat.add_comm 1]
    rfl

theorem IsNumbered.serve (numbered : ensemble.IsNumbered) (request : Request) :
    (ensemble.serve request).IsNumbered := by
  cases request with
  | create path data owner =>
      rw [Ensemble.serve]
      rcases ensemble.create_cases path data owner with ⟨fault, refused⟩ | ⟨_, _, done⟩
      · rw [refused]
        exact numbered
      · rw [done]
        exact numbered.fireEach (ensemble.grown path data owner) rfl _
  | setData path data =>
      rw [Ensemble.serve]
      rcases ensemble.setData_cases path data with ⟨fault, refused⟩ | ⟨_, done⟩
      · rw [refused]
        exact numbered
      · rw [done]
        exact numbered.fireEach (ensemble.rewritten path data) rfl _
  | delete path =>
      rw [Ensemble.serve]
      rcases ensemble.delete_cases path with ⟨fault, refused⟩ | ⟨_, _, done⟩
      · rw [refused]
        exact numbered
      · rw [done]
        exact numbered.fireEach (ensemble.pruned path) rfl _
  | openSession handler => exact numbered.openSession handler
  | closeSession id => exact numbered.updateSession id fun _ => rfl
  | expireSession id => exact numbered.updateSession id fun _ => rfl
  | readStat id path =>
      rw [Ensemble.serve, readStat]
      split
      · exact numbered
      · exact IsNumbered.arm numbered id .data path
  | readData id path =>
      rw [Ensemble.serve, readData]
      simp only
      split
      · exact numbered
      · split
        · exact numbered
        · exact IsNumbered.arm numbered id .data path
  | readChildren id path =>
      rw [Ensemble.serve, readChildren]
      split
      · exact numbered
      · split
        · exact IsNumbered.arm numbered id .child path
        · exact numbered
  | replaceSilently | failReads | healReads | refuseSessions | hold | release => exact numbered

theorem IsNumbered.session? (numbered : ensemble.IsNumbered) {session : RemoteSession}
    (member : session ∈ ensemble.sessions) : ensemble.session? session.id = some session := by
  have distinct : (ensemble.sessions.map (·.id)).Nodup := numbered ▸ List.nodup_range'
  rw [Ensemble.session?]
  cases found : ensemble.sessions.find? fun other => other.id == session.id with
  | none => exact absurd (List.find?_eq_none.mp found session member) (by simp)
  | some other =>
      have sameId : other.id = session.id := by simpa using List.find?_some found
      rw [List.inj_on_of_nodup_map distinct (List.mem_of_find?_eq_some found) member sameId]

/-! ## Watches that are lost -/

theorem countP_fewer {Item : Type} {old new : Item → Bool}
    (fewer : ∀ item, new item = true → old item = true) (items : List Item) :
    items.countP (fun item => old item && !new item) + items.countP new = items.countP old := by
  induction items with
  | nil => rfl
  | cons item others inductionHypothesis =>
      have own := fewer item
      rw [List.countP_cons, List.countP_cons, List.countP_cons, ← inductionHypothesis]
      cases isOld : old item <;> cases isNew : new item <;> simp_all <;> omega

theorem lost_firedBy {fires : List (WatchKind × EventKind × Path)} {session : RemoteSession}
    (found : before.session? id = some session)
    (later : after.session? id = some (firedBy fires session)) (path : Path) :
    lost after before path id + (firedBy fires session).armedOn path = session.armedOn path := by
  have fewer : ∀ kind, (firedBy fires session).isWatching kind path = true →
      session.isWatching kind path = true := fun _ => isWatching_of_firedBy
  have isLost : ∀ kind, (before.isArmed id kind path &&
      (after.session? id).any (fun session => !session.closed) && !after.isArmed id kind path) =
        (session.isWatching kind path && !(firedBy fires session).isWatching kind path) := by
    intro kind
    simp only [isArmed, found, later, Option.any_some, closed_firedBy]
    cases watching : session.isWatching kind path with
    | false => rfl
    | true =>
        have isOpen : (!session.closed) = true := (Bool.and_eq_true_iff.mp watching).1
        rw [isOpen]
        rfl
  simp only [lost, armedOn, isLost]
  exact countP_fewer fewer kinds

/-- Number of watches on a path that have disappeared from open sessions of a handler. -/
def lostAt (after before : Ensemble) (handler : Generation) (path : Path) : Nat :=
  sumOver handler (fun session => lost after before path session.id) before.sessions

theorem sumOver_map (handler : Generation) (taken size : RemoteSession → Nat)
    {change : RemoteSession → RemoteSession}
    (sameHandler : ∀ session, (change session).handler = session.handler)
    {sessions : List RemoteSession}
    (each : ∀ session ∈ sessions, taken session + size (change session) = size session) :
    sumOver handler taken sessions + sumOver handler size (sessions.map change) =
      sumOver handler size sessions := by
  induction sessions with
  | nil => rfl
  | cons session others inductionHypothesis =>
      have own := each session List.mem_cons_self
      have rest := inductionHypothesis fun other member => each other (List.mem_cons_of_mem _ member)
      rw [List.map_cons, sumOver_cons, sumOver_cons, sumOver_cons, sameHandler, ← rest, ← own]
      by_cases isHandler : session.handler = handler
      · rw [if_pos isHandler, if_pos isHandler, if_pos isHandler]
        omega
      · rw [if_neg isHandler, if_neg isHandler, if_neg isHandler]
        omega

theorem lostAt_fireEach (numbered : before.IsNumbered) (after : Ensemble)
    (sessions : after.sessions = before.sessions) (fires : List (WatchKind × EventKind × Path))
    (handler : Generation) (path : Path) :
    lostAt (fireEach fires after).2 before handler path =
      sentTo handler path (fireEach fires after).1 := by
  have told := sentTo_fireEach fires after path handler
  have each : ∀ session ∈ before.sessions,
      lost (fireEach fires after).2 before path session.id + (firedBy fires session).armedOn path =
        session.armedOn path := by
    intro session member
    have found := numbered.session? member
    refine lost_firedBy found ?_ path
    rw [session?, sessions_fireEach, sessions, find?_map_of_id (id_firedBy fires)]
    exact congrArg _ found
  have taken := sumOver_map handler
    (fun session => lost (fireEach fires after).2 before path session.id)
    (fun session => session.armedOn path) (handler_firedBy fires) each
  rw [sessions_fireEach, sessions, armedAt, armedAt] at told
  exact Nat.add_right_cancel (taken.trans told.symm)

/-- No watch is lost, but for those of sessions that are closed. -/
def KeepsWatches (after before : Ensemble) : Prop :=
  ∀ id kind path, before.isArmed id kind path = true → after.IsOpen id →
    after.isArmed id kind path = true

theorem lostAt_eq_zero (kept : after.KeepsWatches before) : lostAt after before handler path = 0 := by
  have nothing : ∀ id, lost after before path id = 0 := by
    intro id
    rw [lost, List.countP_eq_zero]
    rintro kind - isLost
    simp only [Bool.and_eq_true, Bool.not_eq_true'] at isLost
    obtain ⟨⟨armed, isOpen⟩, disarmed⟩ := isLost
    obtain ⟨session, found, notClosed⟩ := (Option.any_eq_true _ _).mp isOpen
    have stays := kept id kind path armed ⟨session, found, (Bool.not_eq_true' _).mp notClosed⟩
    rw [disarmed] at stays
    cases stays
  simp [lostAt, sumOver, nothing]

/-! ## Requests that fire nothing -/

theorem keepsWatches_of_sessions (sessions : after.sessions = before.sessions) :
    after.KeepsWatches before := by
  intro id kind path armed _
  rw [isArmed, session?, sessions]
  exact armed

theorem ReadsOn.keepsWatches (readsOn : after.ReadsOn before) : after.KeepsWatches before :=
  fun id kind path armed _ => readsOn.armed id kind path armed

theorem keepsWatches_readData (ensemble : Ensemble) (id : SessionId) (path : Path) :
    (ensemble.readData id path).2.2.KeepsWatches ensemble := by
  cases obstacle : ensemble.readFault? id path with
  | some fault =>
      rw [readData_of_fault obstacle]
      exact keepsWatches_of_sessions rfl
  | none =>
      obtain ⟨hold, ⟨node, _, read⟩ | read⟩ := readData_of_healthy obstacle
      · rw [read]
        exact (readsOn_arm (ensemble.taken path) id .data path).keepsWatches
      · rw [read]
        exact keepsWatches_of_sessions rfl

theorem keepsWatches_openSession (ensemble : Ensemble) (handler : Generation) :
    (ensemble.openSession handler).2.KeepsWatches ensemble := by
  unfold openSession
  split
  · exact keepsWatches_of_sessions rfl
  · intro id kind path armed _
    rw [isArmed, session?] at armed
    rw [isArmed, session?, List.find?_append]
    cases found : ensemble.sessions.find? fun session => session.id == id with
    | none =>
        rw [found] at armed
        cases armed
    | some session =>
        rw [found] at armed
        exact armed

/-- A session that is closed keeps none, and the others keep all. -/
theorem keepsWatches_updateSession {change : RemoteSession → RemoteSession}
    (sameId : ∀ session, (change session).id = session.id)
    (closes : ∀ session, (change session).closed = true) :
    (ensemble.updateSession id change).KeepsWatches ensemble := by
  intro other kind path armed isOpen
  obtain ⟨session, found, notClosed⟩ := isOpen
  have found' := found
  rw [session?_updateSession sameId] at found
  split at found
  · obtain ⟨old, _, rfl⟩ := Option.map_eq_some_iff.mp found
    rw [closes] at notClosed
    cases notClosed
  next =>
    rw [isArmed, found']
    rw [isArmed, found] at armed
    exact armed

theorem keepsWatches_closeSession (ensemble : Ensemble) (id : SessionId) :
    (ensemble.closeSession id).KeepsWatches ensemble := by
  unfold closeSession
  exact keepsWatches_updateSession (fun _ => rfl) fun _ => rfl

theorem keepsWatches_expireSession (ensemble : Ensemble) (id : SessionId) :
    (ensemble.expireSession id).KeepsWatches ensemble := by
  unfold expireSession
  exact keepsWatches_updateSession (fun _ => rfl) fun _ => rfl

/-! ## All requests -/

/-- The events that reach a handler for a path are as many as the watches that are lost. -/
theorem sentTo_sent (numbered : ensemble.IsNumbered) (orderly : request.IsOrderly)
    (handler : Generation) (path : Path) :
    sentTo handler path (ensemble.sent request) =
      lostAt (ensemble.serve request) ensemble handler path := by
  cases request with
  | create path data owner =>
      rw [sent, serve]
      rcases ensemble.create_cases path data owner with ⟨fault, refused⟩ | ⟨_, _, done⟩
      · rw [refused]
        exact (lostAt_eq_zero (keepsWatches_of_sessions rfl)).symm
      · rw [done]
        exact (lostAt_fireEach numbered (ensemble.grown path data owner) rfl _ handler _).symm
  | setData path data =>
      rw [sent, serve]
      rcases ensemble.setData_cases path data with ⟨fault, refused⟩ | ⟨_, done⟩
      · rw [refused]
        exact (lostAt_eq_zero (keepsWatches_of_sessions rfl)).symm
      · rw [done]
        exact (lostAt_fireEach numbered (ensemble.rewritten path data) rfl _ handler _).symm
  | delete path =>
      rw [sent, serve]
      rcases ensemble.delete_cases path with ⟨fault, refused⟩ | ⟨_, _, done⟩
      · rw [refused]
        exact (lostAt_eq_zero (keepsWatches_of_sessions rfl)).symm
      · rw [done]
        exact (lostAt_fireEach numbered (ensemble.pruned path) rfl _ handler _).symm
  | replaceSilently path data => exact absurd orderly id
  | openSession handler => exact (lostAt_eq_zero (keepsWatches_openSession ensemble handler)).symm
  | closeSession id => exact (lostAt_eq_zero (keepsWatches_closeSession ensemble id)).symm
  | expireSession id => exact (lostAt_eq_zero (keepsWatches_expireSession ensemble id)).symm
  | readStat id path => exact (lostAt_eq_zero (readsOn_readStat ensemble id path).keepsWatches).symm
  | readData id path => exact (lostAt_eq_zero (keepsWatches_readData ensemble id path)).symm
  | readChildren id path =>
      exact (lostAt_eq_zero (readsOn_readChildren ensemble id path).keepsWatches).symm
  | failReads | healReads | refuseSessions | hold | release =>
      exact (lostAt_eq_zero (keepsWatches_of_sessions rfl)).symm

theorem isNumbered_serveAll (requests : List Request) :
    (({} : Ensemble).serveAll requests).IsNumbered := by
  induction requests using List.reverseRecOn with
  | nil => rfl
  | append_singleton others request inductionHypothesis =>
      rw [serveAll_concat]
      exact IsNumbered.serve inductionHypothesis request

/-- If a handler belongs to one session only, a sum over its sessions is that one. -/
theorem IsNumbered.sumOver_own (numbered : ensemble.IsNumbered) {session : RemoteSession}
    (member : session ∈ ensemble.sessions)
    (own : ∀ other ∈ ensemble.sessions, other.handler = session.handler → other = session)
    (size : RemoteSession → Nat) :
    sumOver session.handler size ensemble.sessions = size session := by
  have distinct : ensemble.sessions.Nodup :=
    List.Nodup.of_map (·.id) (numbered ▸ List.nodup_range')
  have isOwn : (ensemble.sessions.filter fun other => other.handler = session.handler).Perm
      [session] := by
    rw [List.perm_ext_iff_of_nodup (distinct.filter _) (List.nodup_singleton session)]
    intro other
    rw [List.mem_filter, List.mem_singleton, decide_eq_true_eq]
    constructor
    · exact fun ⟨isSession, sameHandler⟩ => own other isSession sameHandler
    · rintro rfl
      exact ⟨member, rfl⟩
  rw [sumOver, List.perm_singleton.mp isOwn, List.map_singleton, List.sum_singleton]

/-- What the tree and the watches are like after some requests. -/
structure WatchesTell (requests : List Request) : Prop where
  rooted : (({} : Ensemble).serveAll requests).IsRooted
  counted : (({} : Ensemble).serveAll requests).IsCounted
  /-- A list of children names each child once. -/
  lists : ∀ id path names,
    ((({} : Ensemble).serveAll requests).readChildren id path).1 = .ok names →
      names.Nodup ∧
        (names.map path.child).Perm ((({} : Ensemble).serveAll requests).offspring path)
  /-- Nothing has changed that an armed watch is about. -/
  rests : ∀ id kind path, (({} : Ensemble).serveAll requests).isArmed id kind path = true →
    ∃ before read after, RestsSince id kind path requests before read after
  /-- Each watch that disappears from an open session has sent one event. -/
  tells : ∀ request : Request, request.IsOrderly →
    ∀ session ∈ (({} : Ensemble).serveAll requests).sessions,
      (∀ other ∈ (({} : Ensemble).serveAll requests).sessions,
        other.handler = session.handler → other = session) →
      ∀ path, sentTo session.handler path ((({} : Ensemble).serveAll requests).sent request) =
        lost ((({} : Ensemble).serveAll requests).serve request)
          (({} : Ensemble).serveAll requests) path session.id
  /-- So it is over all sessions of a handler, if several have the same one. -/
  tellsAll : ∀ request : Request, request.IsOrderly → ∀ handler path,
    sentTo handler path ((({} : Ensemble).serveAll requests).sent request) =
      lostAt ((({} : Ensemble).serveAll requests).serve request)
        (({} : Ensemble).serveAll requests) handler path

theorem watches_tell {requests : List Request}
    (orderly : ∀ request ∈ requests, request.IsOrderly) : WatchesTell requests := by
  have tidy := isTidy_serveAll orderly
  have numbered := isNumbered_serveAll requests
  exact
    { rooted := tidy.rooted
      counted := tidy.counted
      lists := fun _ _ _ answered => tidy.lists answered
      rests := fun _ _ _ armed => exists_restsSince orderly armed
      tells := by
        intro request isOrderly session member own path
        rw [sentTo_sent numbered isOrderly, lostAt, numbered.sumOver_own member own]
      tellsAll := fun _ isOrderly handler path => sentTo_sent numbered isOrderly handler path }

/-- A node with both watches armed is deleted: each watch sends its own event. -/
theorem watches_tell_of_deletion :
    (∀ request ∈ [Request.openSession 1, .create "/a".toList [7] 0, .readData 1 "/a".toList,
      .readChildren 1 "/a".toList], request.IsOrderly) ∧
    sentTo 1 "/a".toList ((({} : Ensemble).serveAll [.openSession 1, .create "/a".toList [7] 0,
      .readData 1 "/a".toList, .readChildren 1 "/a".toList]).sent (.delete "/a".toList)) = 2 ∧
    WatchesTell [.openSession 1, .create "/a".toList [7] 0, .readData 1 "/a".toList,
      .readChildren 1 "/a".toList] := by
  have orderly : ∀ request ∈ [Request.openSession 1, .create "/a".toList [7] 0,
      .readData 1 "/a".toList, .readChildren 1 "/a".toList], request.IsOrderly := by
    simp only [List.forall_mem_cons, Request.IsOrderly, List.not_mem_nil, false_implies,
      implies_true, and_true, true_and]
    decide
  exact ⟨orderly, by decide, watches_tell orderly⟩

end Ensemble

end WatchedTree
