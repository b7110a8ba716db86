import WatchedTree.Proofs.Store.Capacity

/-!
# What a store tells of its offers

An offer is refused with nothing changed and nothing told, or it is stored and told once, with the
node that it replaces. The notifications of one path, with the other ways in which a node comes to
be changed or to leave, form a chain in which each finds the node that the one before left.
-/
namespace WatchedTree

namespace Store

variable {store : Store} {now : Moment} {path key : Path} {node : Node} {epoch : Epoch}

/-! ## The bound spares the path to keep -/

theorem get?_evict (bound : Nat) (keep : Path) (stamps : List (Stamp × Path))
    (entries : Table Path Entry) (spared : List (Stamp × Path)) :
    (evict bound keep stamps entries spared).1.get? keep = entries.get? keep := by
  induction stamps generalizing entries spared with
  | nil => rfl
  | cons pair others inductionHypothesis =>
      obtain ⟨stamp, victim⟩ := pair
      rw [evict]
      split
      · rfl
      · split
        · exact inductionHypothesis entries _
        next apart =>
          rw [inductionHypothesis]
          cases entries.get? victim with
          | none => rfl
          | some entry =>
              simp only
              split
              · rw [Table.get?_erase, if_neg (Ne.symm apart)]
              · rfl

theorem get?_enforceCapacity (store : Store) (keep : Path) :
    (store.enforceCapacity keep).entries.get? keep = store.entries.get? keep := by
  unfold enforceCapacity
  cases store.policy.maxEntries with
  | none => rfl
  | some bound => exact get?_evict bound keep store.recency store.entries []

/-- What is put in place is there, whatever the bound takes. -/
theorem get?_place (store : Store) (now : Moment) (node : Node) :
    (store.place now node).entries.get? node.path =
      some { node, written := now, accessed := now, stamp := store.clock } := by
  rw [place, write, get?_enforceCapacity, Table.get?_put_self]
  rfl

/-! ## Offers -/

/-- What an offer does. -/
structure Offers (store : Store) (now : Moment) (node : Node) (epoch : Epoch)
    (answer : Upsert × Store) : Prop where
  /-- A refusal changes nothing and tells nothing. -/
  refused : answer.1 = .deleted ∨ answer.1 = .stale → answer.2 = store ∧
    ∀ (Told : Type) (tell : Told → Upsert → Node → Told) (told : Told),
      store.upsertTelling tell now node epoch told = (told, answer)
  /-- Anything else is told once, with the outcome returned and the node offered. -/
  told : answer.1 ≠ .deleted → answer.1 ≠ .stale →
    ∀ (Told : Type) (tell : Told → Upsert → Node → Told) (told : Told),
      store.upsertTelling tell now node epoch told = (tell told answer.1 node, answer)
  /-- It stores the node offered, whatever the bound takes, -/
  stored : answer.1 ≠ .deleted → answer.1 ≠ .stale →
    answer.2.entries.get? node.path =
      some { node, written := now, accessed := now, stamp := store.clock }
  /-- and it replaces the live node there was, if any. -/
  replaced : answer.1 ≠ .deleted → answer.1 ≠ .stale → ∀ previous,
    answer.1 = .replaced previous ↔ store.peek now node.path = some previous

theorem offers_upsert (store : Store) (now : Moment) (node : Node) (epoch : Epoch) :
    store.Offers now node epoch (store.upsert now node epoch) := by
  have answers := answers_upsert store now node epoch
  have telling := fun (Told : Type) (tell : Told → Upsert → Node → Told) (told : Told) =>
    upsertTelling_eq tell store now node epoch told
  generalize store.upsert now node epoch = answer at answers telling
  cases answers with
  | deleted | stale =>
      exact ⟨fun _ => ⟨rfl, telling⟩, by simp, by simp, by simp⟩
  | inserted _ vacant =>
      exact ⟨by simp, fun _ _ => telling, fun _ _ => get?_place store now node, by simp [vacant]⟩
  | replaced _ live =>
      exact ⟨by simp, fun _ _ => telling, fun _ _ => get?_place store now node, by simp [live]⟩

/-! ## What a reader finds after a call -/

/-- An offer for another path changes what a reader finds only if the bound takes it. -/
theorem peek_upsert_of_ne (other : key ≠ node.path) (now : Moment) (epoch : Epoch) :
    (store.upsert now node epoch).2.peek now key = store.peek now key ∨
      (store.upsert now node epoch).2.peek now key = none := by
  have samePolicy := congrArg Fence.policy (fence_upsert store now node epoch)
  cases found : (store.upsert now node epoch).2.entries.get? key with
  | none =>
      right
      rw [peek, live?, found]
      rfl
  | some entry =>
      left
      refine peek_congr samePolicy (found.trans (Eq.symm ?_))
      rw [upsert_snd] at found
      split at found
      · exact (Table.get?_put_of_ne _ _ other).symm.trans (get?_of_enforceCapacity found)
      · exact found

/-- What was live is live when it has just been used. -/
theorem isExpired_use {entry : Entry} (live : store.isExpired now entry = false) (stamp : Stamp) :
    store.isExpired now { entry with accessed := now, stamp } = false := by
  rw [isExpired, Bool.or_eq_false_iff] at live ⊢
  refine ⟨live.1, ?_⟩
  cases limit : store.policy.expireAfterAccess with
  | none => rfl
  | some span =>
      rw [limit] at live
      have young : ¬span ≤ now - entry.accessed := of_decide_eq_false live.2
      refine decide_eq_false fun isOver => young (Nat.le_trans isOver ?_)
      rw [Nat.sub_self]
      exact Nat.zero_le _

/-- A read changes nothing that a reader finds. -/
theorem peek_get (store : Store) (now : Moment) (path key : Path) :
    (store.get now path).2.peek now key = store.peek now key := by
  have samePolicy : (store.get now path).2.policy = store.policy :=
    congrArg Fence.policy (fence_get store now path)
  have found := get?_get store now path key
  by_cases same : key = path
  · rw [if_pos same] at found
    rw [same] at found ⊢
    rw [peek, peek, live?, found]
    cases live : store.live? now path with
    | none => rfl
    | some entry =>
        have fresh := isExpired_use (live?_eq_some_iff.mp live).2 store.clock
        rw [isExpired, ← samePolicy] at fresh
        simp only [Option.map_some]
        rw [isExpired, fresh]
        rfl
  · rw [if_neg same] at found
    exact peek_congr samePolicy found

/-- A live node is changed at its path, and stays live. -/
theorem peek_update (store : Store) (now : Moment) (path key : Path)
    (change : Node → Option Node) :
    (store.update now path change).2.peek now key =
      if key = path then (store.peek now path).map fun old => (change old).getD old
      else store.peek now key := by
  have view : store.peek now path = (store.live? now path).map (·.node) := rfl
  rw [update]
  cases live : store.live? now path with
  | none =>
      rw [live] at view
      by_cases same : key = path
      · rw [if_pos same, same, view]
        rfl
      · rw [if_neg same]
  | some entry =>
      rw [live] at view
      simp only
      cases changed : change entry.node with
      | none =>
          by_cases same : key = path
          · rw [if_pos same, same, view]
            simp [changed]
          · rw [if_neg same]
      | some node =>
          by_cases same : key = path
          · rw [if_pos same, same, view]
            refine peek_eq_some_iff.mpr ⟨{ entry with node }, Table.get?_put_self _ _ _, ?_, ?_⟩
            · exact (live?_eq_some_iff.mp live).2
            · simp [changed]
          · rw [if_neg same]
            exact peek_congr rfl (Table.get?_put_of_ne _ _ same)

/-- Nothing comes to life by waiting. -/
theorem peek_later {later : Moment} (order : now ≤ later) (path : Path) :
    store.peek later path = store.peek now path ∨ store.peek later path = none := by
  cases found : store.peek later path with
  | none => exact Or.inr rfl
  | some node =>
      left
      obtain ⟨entry, present, live, same⟩ := peek_eq_some_iff.mp found
      refine (peek_eq_some_iff.mpr ⟨entry, present, ?_, same⟩).symm
      rw [← Bool.not_eq_true] at live ⊢
      exact fun expired => live (isExpired_mono order expired)

end Store

/-! ## The passages of a path -/

/-- How a node leaves a store. -/
inductive Route where
  | removal
  | subtree
  | clearing
  | eviction
  | expiry
deriving DecidableEq, Repr

/-- What happens to the node at a path. -/
inductive Passage where
  /-- Told: there was no live node. -/
  | inserted (node : Node)
  /-- Told: there was one. -/
  | replaced (previous node : Node)
  | updated (old node : Node)
  | left (route : Route) (node : Node)
deriving DecidableEq, Repr

namespace Passage

/-- The node that a passage finds. -/
def found : Passage → Option Node
  | inserted _ => none
  | replaced previous _ => some previous
  | updated old _ => some old
  | left _ node => some node

/-- The node that it leaves. -/
def leaves : Passage → Option Node
  | inserted node | replaced _ node | updated _ node => some node
  | left _ _ => none

/-- The notification in which it is told. -/
def notice? : Passage → Option (Upsert × Node)
  | inserted node => some (.inserted, node)
  | replaced previous node => some (.replaced previous, node)
  | updated _ _ | left _ _ => none

/-- Each passage finds what the one before left, from the first to the last node. -/
def Chain (first last : Option Node) : List Passage → Prop
  | [] => first = last
  | passage :: passages => passage.found = first ∧ Chain passage.leaves last passages

/-- A node that is there no more has left. -/
def lost (route : Route) (before after : Option Node) : List Passage :=
  match before, after with
  | some node, none => [left route node]
  | _, _ => []

/-- An offer that is stored. -/
def ofOffer (outcome : Upsert) (node : Node) : List Passage :=
  match outcome with
  | .inserted => [inserted node]
  | .replaced previous => [replaced previous node]
  | .stale | .deleted => []

variable {first middle last : Option Node} {passages others : List Passage}

theorem Chain.append (chain : Chain first middle passages) (goesOn : Chain middle last others) :
    Chain first last (passages ++ others) := by
  induction passages generalizing first with
  | nil =>
      obtain rfl : first = middle := chain
      exact goesOn
  | cons passage rest inductionHypothesis => exact ⟨chain.1, inductionHypothesis chain.2⟩

theorem chain_lost (route : Route) (kept : last = first ∨ last = none) :
    Chain first last (lost route first last) := by
  rcases kept with rfl | rfl
  · cases last <;> rfl
  · cases first with
    | none => rfl
    | some node => exact ⟨rfl, rfl⟩

theorem chain_left (route : Route) (first : Option Node) :
    Chain first none (first.toList.map (left route)) := by
  cases first with
  | none => rfl
  | some node => exact ⟨rfl, rfl⟩

theorem notice?_lost (route : Route) (before after : Option Node) :
    (lost route before after).filterMap notice? = [] := by
  cases before <;> cases after <;> rfl

theorem notice?_ofOffer (outcome : Upsert) (node : Node) :
    (ofOffer outcome node).filterMap notice? = (outcome.notice node).toList := by
  cases outcome <;> rfl

theorem notice?_left (route : Route) (first : Option Node) :
    (first.toList.map (left route)).filterMap notice? = [] := by
  cases first <;> rfl

theorem Chain.split (chain : Chain first last (passages ++ others)) :
    ∃ middle, Chain first middle passages ∧ Chain middle last others := by
  induction passages generalizing first with
  | nil => exact ⟨first, rfl, chain⟩
  | cons passage rest inductionHypothesis =>
      obtain ⟨middle, front, back⟩ := inductionHypothesis chain.2
      exact ⟨middle, ⟨chain.1, front⟩, back⟩

/-- The last passage leaves what is there in the end. -/
theorem Chain.last_eq (chain : Chain first last passages) :
    last = passages.getLast?.elim first leaves := by
  induction passages generalizing first with
  | nil => exact Eq.symm chain
  | cons passage rest inductionHypothesis =>
      rw [inductionHypothesis chain.2, List.getLast?_cons]
      cases rest.getLast? <;> rfl

/-- The node that is replaced is the one that the passage before has left. -/
theorem Chain.replaced {previous node : Node} {before after : List Passage}
    (chain : Chain none last (before ++ .replaced previous node :: after)) :
    before.getLast?.bind leaves = some previous := by
  obtain ⟨middle, front, back⟩ := chain.split
  have left : some previous = before.getLast?.elim none leaves := back.1.trans front.last_eq
  rw [left]
  cases before.getLast? <;> rfl

end Passage

namespace GuardedStore

open Passage

/-- What a call does at a path. -/
def passages (guarded : GuardedStore) (path : Path) (call : StoreCall) : List Passage :=
  let before := guarded.store.peek guarded.now path
  let after := (guarded.obey call).store.peek (guarded.obey call).now path
  match call with
  | .upsert node choice =>
    let outcome := (guarded.store.upsert guarded.now node (guarded.epochOf choice)).1
    if node.path = path then
      if outcome.isStored then ofOffer outcome node ++ lost .expiry (some node) after else []
    else lost .eviction before after
  | .update key change =>
    if key = path then
      (before.bind fun old => (change old).map (updated old)).toList
    else []
  | .remove key =>
    if key = path then (guarded.store.remove guarded.now key).1.toList.map (left .removal) else []
  | .removeSubtree key => if Path.Covers key path then before.toList.map (left .subtree) else []
  | .clear => before.toList.map (left .clearing)
  | .advance _ => lost .expiry before after
  | .begin _ | .finish _ | .get _ => []

/-- What some calls do at a path, one after the other. -/
def passagesOver (guarded : GuardedStore) (path : Path) : List StoreCall → List Passage
  | [] => []
  | call :: calls => guarded.passages path call ++ (guarded.obey call).passagesOver path calls

/-- What is told of an offer. -/
def told (guarded : GuardedStore) : StoreCall → List (Upsert × Node)
  | .upsert node choice =>
    ((guarded.store.upsert guarded.now node (guarded.epochOf choice)).1.notice node).toList
  | .begin _ | .finish _ | .get _ | .update _ _ | .remove _ | .removeSubtree _ | .clear
  | .advance _ => []

/-- All that is told over some calls. -/
def notices (guarded : GuardedStore) : List StoreCall → List (Upsert × Node)
  | [] => []
  | call :: calls => guarded.told call ++ (guarded.obey call).notices calls

theorem peek_begin (guarded : GuardedStore) (name : Text) (now : Moment) (path : Path) :
    (guarded.begin name).2.store.peek now path = guarded.store.peek now path := by
  have same := begin_holdsSame guarded name
  exact Store.peek_congr same.policy (congrArg (·.get? path) same.entries)

theorem peek_finish (guarded : GuardedStore) (name : Text) (now : Moment) (path : Path) :
    (guarded.finish name).2.store.peek now path = guarded.store.peek now path := by
  have same := finish_holdsSame guarded name
  exact Store.peek_congr same.policy (congrArg (·.get? path) same.entries)

theorem chain_upsert (guarded : GuardedStore) (node : Node) (choice : EpochChoice) :
    Chain (guarded.store.peek guarded.now node.path)
      ((guarded.obey (.upsert node choice)).store.peek guarded.now node.path)
      (guarded.passages node.path (.upsert node choice)) := by
  have answers := Store.answers_upsert guarded.store guarded.now node (guarded.epochOf choice)
  have placed : (guarded.store.place guarded.now node).peek guarded.now node.path = some node ∨
      (guarded.store.place guarded.now node).peek guarded.now node.path = none := by
    rw [Store.peek, Store.live?, Store.get?_place]
    simp only
    split
    · exact Or.inr rfl
    · exact Or.inl rfl
  rw [passages, if_pos rfl]
  simp only [obey]
  generalize guarded.store.upsert guarded.now node (guarded.epochOf choice) = answer at answers
  cases answers with
  | deleted | stale => rfl
  | inserted _ vacant => exact ⟨vacant.symm, chain_lost _ placed⟩
  | replaced _ live => exact ⟨live.symm, chain_lost _ placed⟩

theorem chain_passages (guarded : GuardedStore) (path : Path) (call : StoreCall) :
    Chain (guarded.store.peek guarded.now path)
      ((guarded.obey call).store.peek (guarded.obey call).now path)
      (guarded.passages path call) := by
  cases call with
  | begin name => exact (peek_begin guarded name _ path).symm
  | finish name =>
      change _ = (guarded.finish name).2.store.peek (guarded.finish name).2.now path
      rw [now_finish]
      exact (peek_finish guarded name _ path).symm
  | upsert node choice =>
      by_cases same : node.path = path
      · rw [← same]
        exact chain_upsert guarded node choice
      · rw [passages, if_neg same]
        exact chain_lost _ (Store.peek_upsert_of_ne (Ne.symm same) _ _)
  | get key => exact (Store.peek_get guarded.store _ key path).symm
  | update key change =>
      change Chain _ ((guarded.store.update guarded.now key change).2.peek guarded.now path) _
      rw [passages, Store.peek_update]
      by_cases same : key = path
      · rw [if_pos same, if_pos same.symm, same]
        cases guarded.store.peek guarded.now path with
        | none => rfl
        | some old =>
            cases changed : change old with
            | none => simp [changed, Chain]
            | some node => simp [changed, Chain, Passage.found, leaves]
      · rw [if_neg same, if_neg (Ne.symm same)]
        rfl
  | remove key =>
      change Chain _ ((guarded.store.remove guarded.now key).2.peek guarded.now path) _
      rw [passages, Store.peek_remove, Store.remove_fst]
      by_cases same : key = path
      · rw [if_pos same, if_pos same.symm, same]
        exact chain_left _ _
      · rw [if_neg same, if_neg (Ne.symm same)]
        rfl
  | removeSubtree key =>
      change Chain _ ((guarded.store.removeSubtree guarded.now key).2.peek guarded.now path) _
      rw [passages, Store.peek_removeSubtree]
      by_cases covers : Path.Covers key path
      · rw [if_pos covers, if_pos covers]
        exact chain_left _ _
      · rw [if_neg covers, if_neg covers]
        rfl
  | clear => exact chain_left _ _
  | advance span => exact chain_lost _ (Store.peek_later (now_le_obey guarded (.advance span)) path)

theorem chain_passagesOver (guarded : GuardedStore) (path : Path) (calls : List StoreCall) :
    Chain (guarded.store.peek guarded.now path)
      ((guarded.run calls).store.peek (guarded.run calls).now path)
      (guarded.passagesOver path calls) := by
  induction calls generalizing guarded with
  | nil => rfl
  | cons call others inductionHypothesis =>
      exact (chain_passages guarded path call).append (inductionHypothesis _)

/-! ## Notifications -/

/-- The notifications among the passages of a path are those of its nodes. -/
theorem notice?_passages (guarded : GuardedStore) (path : Path) (call : StoreCall) :
    (guarded.passages path call).filterMap notice? =
      (guarded.told call).filter fun notice => notice.2.path = path := by
  cases call with
  | begin | finish | get => rfl
  | upsert node choice =>
      rw [passages, told]
      generalize (guarded.store.upsert guarded.now node (guarded.epochOf choice)).1 = outcome
      by_cases same : node.path = path
      · rw [if_pos same]
        by_cases stored : outcome.isStored = true
        · rw [if_pos stored, List.filterMap_append, notice?_ofOffer, notice?_lost,
            List.append_nil, Upsert.notice, if_pos stored]
          simp [same]
        · rw [if_neg stored, Upsert.notice, if_neg stored]
          rfl
      · rw [if_neg same, notice?_lost, Upsert.notice]
        split <;> simp [same]
  | update key change =>
      rw [passages, told]
      split
      · cases guarded.store.peek guarded.now path with
        | none => rfl
        | some old => cases changed : change old <;> simp [changed, notice?]
      · rfl
  | remove key =>
      rw [passages, told]
      split
      · exact notice?_left _ _
      · rfl
  | removeSubtree key =>
      rw [passages, told]
      split
      · exact notice?_left _ _
      · rfl
  | clear => exact notice?_left _ _
  | advance span => exact notice?_lost _ _ _

theorem notice?_passagesOver (guarded : GuardedStore) (path : Path) (calls : List StoreCall) :
    (guarded.passagesOver path calls).filterMap notice? =
      (guarded.notices calls).filter fun notice => notice.2.path = path := by
  induction calls generalizing guarded with
  | nil => rfl
  | cons call others inductionHypothesis =>
      rw [passagesOver, notices, List.filterMap_append, List.filter_append, notice?_passages,
        inductionHypothesis]

/-- A run in which every offer tells of what it stores. -/
def runTelling {Told : Type} (tell : Told → Upsert → Node → Told) (guarded : GuardedStore) :
    List StoreCall → Told → Told × GuardedStore
  | [], told => (told, guarded)
  | .upsert node choice :: calls, told =>
    let (told, _, store) :=
      guarded.store.upsertTelling tell guarded.now node (guarded.epochOf choice) told
    runTelling tell { guarded with store } calls told
  | call :: calls, told => runTelling tell (guarded.obey call) calls told

theorem runTelling_eq {Told : Type} (tell : Told → Upsert → Node → Told) (guarded : GuardedStore)
    (calls : List StoreCall) (told : Told) :
    guarded.runTelling tell calls told =
      ((guarded.notices calls).foldl (fun told notice => tell told notice.1 notice.2) told,
        guarded.run calls) := by
  induction calls generalizing guarded told with
  | nil => rfl
  | cons call others inductionHypothesis =>
      cases call with
      | upsert node choice =>
          rw [runTelling, Store.upsertTelling_eq, notices, List.foldl_append]
          exact inductionHypothesis _ _
      | begin | finish | get | update | remove | removeSubtree | clear | advance =>
          exact inductionHypothesis _ _

/-- What a store tells of its offers over some calls. -/
structure Recounts (policy : EvictionPolicy) (calls : List StoreCall) : Prop where
  offers : ∀ node epoch,
    let guarded := (ofPolicy policy).run calls
    guarded.store.Offers guarded.now node epoch (guarded.store.upsert guarded.now node epoch)
  /-- The run tells the notices, one after the other. -/
  told : ∀ (Told : Type) (tell : Told → Upsert → Node → Told) (told : Told),
    (ofPolicy policy).runTelling tell calls told =
      (((ofPolicy policy).notices calls).foldl
        (fun told notice => tell told notice.1 notice.2) told, (ofPolicy policy).run calls)
  /-- Those of a path are the passages of the path that are told. -/
  notices : ∀ path, ((ofPolicy policy).notices calls).filter (fun notice => notice.2.path = path) =
    ((ofPolicy policy).passagesOver path calls).filterMap notice?
  /-- These lead from nothing to what a reader finds, without a gap. -/
  chain : ∀ path, Chain none
    (((ofPolicy policy).run calls).store.peek ((ofPolicy policy).run calls).now path)
    ((ofPolicy policy).passagesOver path calls)
  replaced : ∀ path before previous node after,
    (ofPolicy policy).passagesOver path calls = before ++ .replaced previous node :: after →
      before.getLast?.bind leaves = some previous

theorem offers_recounted (policy : EvictionPolicy) (calls : List StoreCall) :
    Recounts policy calls := by
  have chain := fun path => chain_passagesOver (ofPolicy policy) path calls
  exact
    { offers := fun node epoch => Store.offers_upsert _ _ node epoch
      told := fun Told tell told => runTelling_eq tell (ofPolicy policy) calls told
      notices := fun path => (notice?_passagesOver (ofPolicy policy) path calls).symm
      chain := chain
      replaced := by
        intro path before previous node after split
        have found := chain path
        rw [split] at found
        exact found.replaced }

/-- A node is replaced, changed and evicted, comes back, expires, and is removed. -/
theorem offers_recounted_of_eviction_and_expiry :
    let policy : EvictionPolicy := { maxEntries := some 1, expireAfterWrite := some 5 }
    let path := "/a".toList
    let first : Node := { path }
    let second : Node := { path, data := some [2] }
    let third : Node := { path, data := some [3] }
    let calls : List StoreCall :=
      [.upsert first .present, .upsert second .present, .update path fun _ => some third,
        .upsert { path := "/b".toList } .present, .upsert first .present, .advance 5,
        .upsert second .present, .upsert third .present, .removeSubtree "/".toList,
        .upsert first (.number 0)]
    (ofPolicy policy).passagesOver path calls =
        [.inserted first, .replaced first second, .updated second third, .left .eviction third,
          .inserted first, .left .expiry first, .inserted second, .replaced second third,
          .left .subtree third] ∧
      ((ofPolicy policy).notices calls).length = 6 ∧
      [Passage.inserted first, .replaced first second, .updated second third,
        .left .eviction third, .inserted first, .left .expiry first,
        .inserted second].getLast?.bind leaves = some second := by
  intro policy path first second third calls
  have passages : (ofPolicy policy).passagesOver path calls =
      [.inserted first, .replaced first second, .updated second third, .left .eviction third,
        .inserted first, .left .expiry first, .inserted second, .replaced second third,
        .left .subtree third] := by decide +kernel
  refine ⟨passages, by decide +kernel, ?_⟩
  exact (offers_recounted policy calls).replaced path _ second third [.left .subtree third] passages

end GuardedStore

end WatchedTree
