import WatchedTree.Proofs.Store.Answers

/-!
# Expiry that nobody can tell from deletion in time

Expired entries stay in a store until they are touched. Still its answers are those of a store that
deletes each entry at the very moment at which it expires, and the age of an entry starts again
only when it is stored, or when it is read.
-/
namespace WatchedTree

/-! ## Deletion in time -/

/-- A node with the moments of its last write and of its last use. -/
structure AgedNode where
  node : Node
  written : Moment
  accessed : Moment

namespace AgedNode

def ofEntry (entry : Entry) : AgedNode := ⟨entry.node, entry.written, entry.accessed⟩

/-- The moments at which the node expires, unless it is written or used before. -/
def deadlines (policy : EvictionPolicy) (aged : AgedNode) : List Moment :=
  (policy.expireAfterWrite.map (aged.written + ·)).toList ++
    (policy.expireAfterAccess.map (aged.accessed + ·)).toList

end AgedNode

/-- A store in which every node is deleted at the moment when it expires. -/
structure PromptStore where
  gate : GuardedStore
  held : Table Path AgedNode := []

namespace PromptStore

def ofPolicy (policy : EvictionPolicy) : PromptStore := { gate := .ofPolicy policy }

/-- The paths and their nodes. -/
def nodes (prompt : PromptStore) : NodeMap := prompt.held.map fun pair => (pair.1, pair.2.node)

/-- Deletes the nodes that expire at this moment. -/
def sweep (prompt : PromptStore) : PromptStore :=
  { prompt with
    held := prompt.held.filter fun pair =>
      prompt.gate.now ∉ pair.2.deadlines prompt.gate.store.policy }

/-- The least step of the clock. -/
def tick (prompt : PromptStore) : PromptStore :=
  sweep { prompt with gate := prompt.gate.advance 1 }

def wait : Span → PromptStore → PromptStore
  | 0, prompt => prompt
  | span + 1, prompt => (wait span prompt).tick

/-- The nodes after a call, those included that expire at the moment of the call. -/
def touched (prompt : PromptStore) : StoreCall → Table Path AgedNode
  | .upsert node choice =>
    if (prompt.nodes.offerAt prompt.gate node choice).isStored
    then prompt.held.put node.path ⟨node, prompt.gate.now, prompt.gate.now⟩ else prompt.held
  | .get path => prompt.held.adjust path fun aged => { aged with accessed := prompt.gate.now }
  | .update path change =>
    match prompt.nodes.changed path change with
    | none => prompt.held
    | some node => prompt.held.adjust path fun aged => { aged with node }
  | .remove path => prompt.held.erase path
  | .removeSubtree path => prompt.held.filter fun pair => ¬Path.Covers path pair.1
  | .clear => []
  | .begin _ | .finish _ | .advance _ => prompt.held

/-- The store after a call; the clock goes on in its least steps. -/
def obey (prompt : PromptStore) : StoreCall → PromptStore
  | .advance span => prompt.wait span
  | call => sweep { gate := prompt.gate.hear call, held := prompt.touched call }

/-- The store after some calls, one after the other. -/
def run (prompt : PromptStore) (calls : List StoreCall) : PromptStore := calls.foldl obey prompt

end PromptStore

/-! ## Entries before their deadlines -/

namespace AgedNode

variable {policy : EvictionPolicy} {aged : AgedNode} {now : Moment}

/-- The last write and the last use lie in the past, and no deadline has gone by. -/
structure IsTimely (policy : EvictionPolicy) (now : Moment) (aged : AgedNode) : Prop where
  written : aged.written ≤ now
  accessed : aged.accessed ≤ now
  deadlines : ∀ moment ∈ aged.deadlines policy, now ≤ moment

theorem isTimely_of_now (policy : EvictionPolicy) (now : Moment) (node : Node) :
    IsTimely policy now ⟨node, now, now⟩ where
  written := Nat.le_refl _
  accessed := Nat.le_refl _
  deadlines := by
    intro moment member
    simp only [AgedNode.deadlines, List.mem_append, Option.mem_toList, Option.map_eq_some_iff]
      at member
    rcases member with ⟨span, _, rfl⟩ | ⟨span, _, rfl⟩
    · exact Nat.le_add_right _ _
    · exact Nat.le_add_right _ _

/-- A use moves only the deadline that counts from the last use. -/
theorem IsTimely.use (timely : IsTimely policy now aged) :
    IsTimely policy now { aged with accessed := now } where
  written := timely.written
  accessed := Nat.le_refl _
  deadlines := by
    intro moment member
    simp only [AgedNode.deadlines, List.mem_append, Option.mem_toList, Option.map_eq_some_iff]
      at member
    rcases member with ⟨span, isLimit, rfl⟩ | ⟨span, _, rfl⟩
    · refine timely.deadlines _ (List.mem_append_left _ ?_)
      rw [isLimit]
      exact List.mem_singleton_self _
    · exact Nat.le_add_right _ _

end AgedNode

/-- Up to its limit, an age is the limit at one moment only. -/
theorem le_sub_iff_of_le_add {since now span : Nat} (past : since ≤ now)
    (ahead : now ≤ since + span) : span ≤ now - since ↔ since + span = now := by
  omega

theorem succ_le_add_of_not_le_sub {since now span : Nat} (past : since ≤ now)
    (fresh : ¬span ≤ now - since) : now + 1 ≤ since + span := by
  omega

namespace Store

variable {store : Store} {now : Moment} {path : Path} {entry : Entry}

theorem isOverAge_iff {limit : Option Span} {since : Moment} (past : since ≤ now)
    (ahead : ∀ span, limit = some span → now ≤ since + span) :
    isOverAge limit since now = true ↔ ∃ span, limit = some span ∧ since + span = now := by
  cases limit with
  | none => simp [isOverAge]
  | some span =>
      simp only [isOverAge, decide_eq_true_eq, Option.some.injEq, exists_eq_left']
      exact le_sub_iff_of_le_add past (ahead span rfl)

/-- An entry that has missed no deadline expires at a deadline. -/
theorem isExpired_iff
    (timely : AgedNode.IsTimely store.policy now (.ofEntry entry)) :
    store.isExpired now entry = true ↔
      now ∈ (AgedNode.ofEntry entry).deadlines store.policy := by
  have ahead := timely.deadlines
  simp only [AgedNode.deadlines, List.mem_append, Option.mem_toList, Option.map_eq_some_iff]
    at ahead ⊢
  rw [isExpired, Bool.or_eq_true]
  apply or_congr
  · exact isOverAge_iff timely.written fun span isLimit =>
      ahead _ (Or.inl ⟨span, isLimit, rfl⟩)
  · exact isOverAge_iff timely.accessed fun span isLimit =>
      ahead _ (Or.inr ⟨span, isLimit, rfl⟩)

theorem isOverAge_mono {limit : Option Span} {since later : Moment} (order : now ≤ later)
    (isOver : isOverAge limit since now = true) : isOverAge limit since later = true := by
  cases limit with
  | none => cases isOver
  | some span =>
      simp only [isOverAge, decide_eq_true_eq] at isOver ⊢
      exact Nat.le_trans isOver (Nat.sub_le_sub_right order since)

theorem isExpired_mono {later : Moment} (order : now ≤ later)
    (expired : store.isExpired now entry = true) : store.isExpired later entry = true := by
  rw [isExpired, Bool.or_eq_true] at expired ⊢
  exact expired.imp (isOverAge_mono order) (isOverAge_mono order)

/-- An entry that has not expired has missed no deadline, and misses none at the next moment. -/
theorem isTimely_succ (written : entry.written ≤ now) (accessed : entry.accessed ≤ now)
    (fresh : store.isExpired now entry = false) :
    AgedNode.IsTimely store.policy (now + 1) (.ofEntry entry) where
  written := Nat.le_succ_of_le written
  accessed := Nat.le_succ_of_le accessed
  deadlines := by
    rw [isExpired, Bool.or_eq_false_iff] at fresh
    intro moment member
    simp only [AgedNode.deadlines, List.mem_append, Option.mem_toList, Option.map_eq_some_iff]
      at member
    rcases member with ⟨span, isLimit, rfl⟩ | ⟨span, isLimit, rfl⟩
    · rw [isLimit] at fresh
      exact succ_le_add_of_not_le_sub written (of_decide_eq_false fresh.1)
    · rw [isLimit] at fresh
      exact succ_le_add_of_not_le_sub accessed (of_decide_eq_false fresh.2)

/-- An update keeps the ages of the entry it changes, and every other entry. -/
theorem ages_update (store : Store) (now : Moment) (path key : Path)
    (change : Node → Option Node)
    (found : (store.update now path change).2.entries.get? key = some entry) :
    ∃ old, store.entries.get? key = some old ∧ entry.written = old.written ∧
      entry.accessed = old.accessed := by
  rw [update] at found
  cases live : store.live? now path with
  | none =>
      rw [live] at found
      exact ⟨entry, found, rfl, rfl⟩
  | some old =>
      simp only [live] at found
      cases changed : change old.node with
      | none =>
          rw [changed] at found
          exact ⟨entry, found, rfl, rfl⟩
      | some node =>
          simp only [changed, Table.get?_put] at found
          by_cases same : key = path
          · rw [if_pos same] at found
            cases found
            exact ⟨old, same ▸ (live?_eq_some_iff.mp live).1, rfl, rfl⟩
          · rw [if_neg same] at found
            exact ⟨entry, found, rfl, rfl⟩

/-! ## One path in both stores -/

/-- What the two stores may hold for one path: nothing, the same with no deadline missed, or an
entry that has expired on the one side and nothing on the other. -/
inductive Agrees (policy : EvictionPolicy) (now : Moment) : Option Entry → Option AgedNode → Prop
  | absent : Agrees policy now none none
  | present {entry : Entry} (timely : AgedNode.IsTimely policy now (.ofEntry entry)) :
      Agrees policy now (some entry) (some (.ofEntry entry))
  | expired {entry : Entry} (isOver : isExpired { policy } now entry = true) :
      Agrees policy now (some entry) none

namespace Agrees

variable {policy : EvictionPolicy} {stored : Option Entry} {held : Option AgedNode}

theorem timely {aged : AgedNode} (agrees : Agrees policy now stored (some aged)) :
    aged.IsTimely policy now := by
  cases agrees with
  | present timely => exact timely

/-- The deletions of a moment delete what expires at it. -/
theorem sweep (agrees : Agrees policy now stored held) :
    Agrees policy now stored (held.filter fun aged => now ∉ aged.deadlines policy) := by
  cases agrees with
  | absent => exact absent
  | @present entry timely =>
      by_cases due : now ∈ (AgedNode.ofEntry entry).deadlines policy
      · rw [Option.filter_some, if_neg (by simp [due])]
        exact expired ((isExpired_iff timely).mpr due)
      · rw [Option.filter_some, if_pos (by simp [due])]
        exact present timely
  | expired isOver => exact expired isOver

/-- With nothing held that expires at the moment, what is held is what is live. -/
theorem held_eq (agrees : Agrees policy now stored held)
    (fresh : ∀ aged, held = some aged → now ∉ aged.deadlines policy) :
    held = (stored.filter fun entry => !isExpired { policy } now entry).map .ofEntry := by
  cases agrees with
  | absent => rfl
  | @present entry timely =>
      have live : isExpired { policy } now entry = false := by
        rw [← Bool.not_eq_true, isExpired_iff timely]
        exact fresh _ rfl
      rw [Option.filter_some, live]
      rfl
  | expired isOver =>
      rw [Option.filter_some, isOver]
      rfl

/-- Nothing is missed on the way to the next moment. -/
theorem tick (agrees : Agrees policy now stored held)
    (fresh : ∀ aged, held = some aged → now ∉ aged.deadlines policy) :
    Agrees policy (now + 1) stored held := by
  cases agrees with
  | absent => exact absent
  | @present entry timely =>
      have live : isExpired { policy } now entry = false := by
        rw [← Bool.not_eq_true, isExpired_iff timely]
        exact fresh _ rfl
      exact present (isTimely_succ timely.written timely.accessed live)
  | expired isOver => exact expired (isExpired_mono (Nat.le_succ now) isOver)

end Agrees

theorem live?_eq_filter (store : Store) (now : Moment) (path : Path) :
    store.live? now path =
      (store.entries.get? path).filter fun entry =>
        !isExpired { policy := store.policy } now entry := by
  rw [live?]
  cases store.entries.get? path with
  | none => rfl
  | some entry =>
      change (if isExpired { policy := store.policy } now entry = true then _ else _) = _
      rw [Option.filter_some]
      by_cases isOver : isExpired { policy := store.policy } now entry = true
      · rw [if_pos isOver, isOver]
        rfl
      · rw [if_neg isOver, eq_false_of_ne_true isOver]
        rfl

end Store

namespace GuardedStore

/-- The prompt store holds the live entries, and may hold some that expire at this moment. -/
structure IsNearlyShadowedBy (guarded : GuardedStore) (prompt : PromptStore) : Prop where
  isGuarded : guarded.IsGuardedBy prompt.gate
  noBound : guarded.store.policy.maxEntries = none
  distinct : guarded.store.entries.Distinct
  heldDistinct : prompt.held.Distinct
  agrees : ∀ path, Store.Agrees guarded.store.policy guarded.now
    (guarded.store.entries.get? path) (prompt.held.get? path)

/-- The prompt store holds the live entries. -/
structure IsShadowedBy (guarded : GuardedStore) (prompt : PromptStore) : Prop
    extends guarded.IsNearlyShadowedBy prompt where
  fresh : ∀ path aged, prompt.held.get? path = some aged →
    guarded.now ∉ aged.deadlines guarded.store.policy

variable {guarded : GuardedStore} {prompt : PromptStore}

theorem IsNearlyShadowedBy.sweep (nearly : guarded.IsNearlyShadowedBy prompt) :
    guarded.IsShadowedBy prompt.sweep := by
  have policy : prompt.gate.store.policy = guarded.store.policy :=
    (congrArg Fence.policy nearly.isGuarded.fence).symm
  have found : ∀ path, prompt.sweep.held.get? path = (prompt.held.get? path).filter fun aged =>
      guarded.now ∉ aged.deadlines guarded.store.policy := by
    intro path
    rw [PromptStore.sweep, policy, ← nearly.isGuarded.now,
      Table.get?_filter nearly.heldDistinct]
  refine
    { isGuarded := nearly.isGuarded
      noBound := nearly.noBound
      distinct := nearly.distinct
      heldDistinct := nearly.heldDistinct.filter _
      agrees := fun path => ?_
      fresh := fun path aged held => ?_ }
  · rw [found]
    exact (nearly.agrees path).sweep
  · rw [found, Option.filter_eq_some_iff] at held
    exact of_decide_eq_true held.2

namespace IsShadowedBy

theorem held (shadowed : guarded.IsShadowedBy prompt) (path : Path) :
    prompt.held.get? path = (guarded.store.live? guarded.now path).map .ofEntry := by
  rw [Store.live?_eq_filter]
  exact (shadowed.agrees path).held_eq (shadowed.fresh path)

theorem get?_nodes (shadowed : guarded.IsShadowedBy prompt) (path : Path) :
    prompt.nodes.get? path = guarded.store.peek guarded.now path := by
  rw [PromptStore.nodes, Table.get?_mapValues, shadowed.held, Option.map_map]
  rfl

theorem shows (shadowed : guarded.IsShadowedBy prompt) :
    guarded.store.Shows guarded.now prompt.nodes where
  distinct := shadowed.distinct
  mapDistinct := by
    have distinct := shadowed.heldDistinct
    rw [Table.Distinct, Table.keys] at distinct ⊢
    rw [PromptStore.nodes, List.map_map]
    exact distinct
  peek := fun path => (shadowed.get?_nodes path).symm

theorem answersAs (shadowed : guarded.IsShadowedBy prompt) :
    guarded.AnswersAs prompt.gate prompt.nodes :=
  shadowed.isGuarded.answersAs shadowed.shows

/-! ## The clock -/

theorem tick (shadowed : guarded.IsShadowedBy prompt) :
    (guarded.advance 1).IsShadowedBy prompt.tick := by
  apply IsNearlyShadowedBy.sweep
  exact
    { isGuarded := shadowed.isGuarded.obey (.advance 1)
      noBound := shadowed.noBound
      distinct := shadowed.distinct
      heldDistinct := shadowed.heldDistinct
      agrees := fun path => (shadowed.agrees path).tick (shadowed.fresh path) }

theorem wait (shadowed : guarded.IsShadowedBy prompt) (span : Span) :
    (guarded.advance span).IsShadowedBy (prompt.wait span) := by
  induction span with
  | zero => exact shadowed
  | succ shorter inductionHypothesis => exact inductionHypothesis.tick

/-! ## Calls -/

theorem timely_of_live? (shadowed : guarded.IsShadowedBy prompt) {path : Path} {entry : Entry}
    (live : guarded.store.live? guarded.now path = some entry) :
    AgedNode.IsTimely guarded.store.policy guarded.now (.ofEntry entry) := by
  have agrees := shadowed.agrees path
  rw [shadowed.held, live] at agrees
  exact agrees.timely

theorem agrees_get (shadowed : guarded.IsShadowedBy prompt) (path key : Path) :
    Store.Agrees guarded.store.policy guarded.now
      ((guarded.store.get guarded.now path).2.entries.get? key)
      ((prompt.touched (.get path)).get? key) := by
  rw [Store.get?_get, PromptStore.touched, Table.get?_adjust]
  by_cases same : key = path
  · rw [if_pos same, if_pos same, shadowed.held, ← shadowed.isGuarded.now]
    cases live : guarded.store.live? guarded.now path with
    | none => exact .absent
    | some entry => exact .present (shadowed.timely_of_live? live).use
  · rw [if_neg same, if_neg same]
    exact shadowed.agrees key

theorem agrees_upsert (shadowed : guarded.IsShadowedBy prompt) (node : Node)
    (choice : EpochChoice) (key : Path) :
    Store.Agrees guarded.store.policy guarded.now
      ((guarded.obey (.upsert node choice)).store.entries.get? key)
      ((prompt.touched (.upsert node choice)).get? key) := by
  have entries := Store.entries_upsert shadowed.noBound guarded.now node (guarded.epochOf choice)
  rw [shadowed.isGuarded.upsert_fst shadowed.shows] at entries
  change Store.Agrees _ _ (Table.get? (Store.upsert _ _ _ _).2.entries key) _
  rw [entries, PromptStore.touched]
  by_cases stored : (prompt.nodes.offerAt prompt.gate node choice).isStored = true
  · rw [if_pos stored, if_pos stored, Table.get?_put, Table.get?_put, ← shadowed.isGuarded.now]
    by_cases same : key = node.path
    · rw [if_pos same, if_pos same]
      exact .present (AgedNode.isTimely_of_now _ _ node)
    · rw [if_neg same, if_neg same]
      exact shadowed.agrees key
  · rw [if_neg stored, if_neg stored]
    exact shadowed.agrees key

theorem agrees_update (shadowed : guarded.IsShadowedBy prompt) (path : Path)
    (change : Node → Option Node) (key : Path) :
    Store.Agrees guarded.store.policy guarded.now
      ((guarded.store.update guarded.now path change).2.entries.get? key)
      ((prompt.touched (.update path change)).get? key) := by
  rw [Store.update, PromptStore.touched, NodeMap.changed, shadowed.get?_nodes, Store.peek]
  cases live : guarded.store.live? guarded.now path with
  | none => exact shadowed.agrees key
  | some entry =>
      simp only [Option.map_some, Option.bind_some]
      cases change entry.node with
      | none => exact shadowed.agrees key
      | some node =>
          simp only
          rw [Table.get?_put, Table.get?_adjust, shadowed.held path, live]
          by_cases same : key = path
          · rw [if_pos same, if_pos same]
            have timely := shadowed.timely_of_live? live
            exact .present ⟨timely.written, timely.accessed, timely.deadlines⟩
          · rw [if_neg same, if_neg same]
            exact shadowed.agrees key

theorem agrees_remove (shadowed : guarded.IsShadowedBy prompt) (path key : Path) :
    Store.Agrees guarded.store.policy guarded.now
      ((guarded.store.remove guarded.now path).2.entries.get? key)
      ((prompt.touched (.remove path)).get? key) := by
  rw [Store.entries_remove, PromptStore.touched, Table.get?_erase, Table.get?_erase]
  by_cases same : key = path
  · rw [if_pos same, if_pos same]
    exact .absent
  · rw [if_neg same, if_neg same]
    exact shadowed.agrees key

theorem agrees_removeSubtree (shadowed : guarded.IsShadowedBy prompt) (path key : Path) :
    Store.Agrees guarded.store.policy guarded.now
      ((guarded.store.removeSubtree guarded.now path).2.entries.get? key)
      ((prompt.touched (.removeSubtree path)).get? key) := by
  rw [Store.get?_removeSubtree, PromptStore.touched, Table.get?_filter shadowed.heldDistinct]
  by_cases covers : Path.Covers path key
  · have nothing : (prompt.held.get? key).filter (fun _ => ¬Path.Covers path key) = none := by
      simp [covers]
    rw [if_pos covers, nothing]
    exact .absent
  · have everything : (prompt.held.get? key).filter (fun _ => ¬Path.Covers path key) =
        prompt.held.get? key := by
      cases prompt.held.get? key with
      | none => rfl
      | some aged => simp [covers]
    rw [if_neg covers, everything]
    exact shadowed.agrees key

theorem agrees_touched (shadowed : guarded.IsShadowedBy prompt) (call : StoreCall)
    (sameTime : (guarded.obey call).now = guarded.now) (key : Path) :
    Store.Agrees (guarded.obey call).store.policy (guarded.obey call).now
      ((guarded.obey call).store.entries.get? key) ((prompt.touched call).get? key) := by
  rw [policy_obey, sameTime]
  cases call with
  | upsert node choice => exact shadowed.agrees_upsert node choice key
  | get path => exact shadowed.agrees_get path key
  | update path change => exact shadowed.agrees_update path change key
  | remove path => exact shadowed.agrees_remove path key
  | removeSubtree path => exact shadowed.agrees_removeSubtree path key
  | clear => exact .absent
  | begin name =>
      change Store.Agrees _ _ (Table.get? (guarded.begin name).2.store.entries key) _
      rw [(begin_holdsSame guarded name).entries]
      exact shadowed.agrees key
  | finish name =>
      change Store.Agrees _ _ (Table.get? (guarded.finish name).2.store.entries key) _
      rw [(finish_holdsSame guarded name).entries]
      exact shadowed.agrees key
  | advance span => exact shadowed.agrees key

theorem heldDistinct_touched (shadowed : guarded.IsShadowedBy prompt) (call : StoreCall) :
    (prompt.touched call).Distinct := by
  have distinct := shadowed.heldDistinct
  cases call with
  | upsert node choice =>
      rw [PromptStore.touched]
      split
      · exact distinct.put _ _
      · exact distinct
  | get path => exact distinct.adjust _ _
  | update path change =>
      rw [PromptStore.touched]
      cases prompt.nodes.changed path change with
      | none => exact distinct
      | some node => exact distinct.adjust _ _
  | remove path => exact distinct.erase path
  | removeSubtree path => exact distinct.filter _
  | clear => exact Table.distinct_nil
  | begin | finish | advance => exact distinct

theorem touch (shadowed : guarded.IsShadowedBy prompt) (call : StoreCall)
    (sameTime : (guarded.obey call).now = guarded.now) :
    (guarded.obey call).IsNearlyShadowedBy
      { gate := prompt.gate.hear call, held := prompt.touched call } where
  isGuarded := shadowed.isGuarded.obey call
  noBound := (congrArg EvictionPolicy.maxEntries (policy_obey guarded call)).trans shadowed.noBound
  distinct := distinct_obey shadowed.distinct call
  heldDistinct := shadowed.heldDistinct_touched call
  agrees := shadowed.agrees_touched call sameTime

theorem obey (shadowed : guarded.IsShadowedBy prompt) (call : StoreCall) :
    (guarded.obey call).IsShadowedBy (prompt.obey call) := by
  cases call with
  | advance span => exact shadowed.wait span
  | finish name => exact (shadowed.touch (.finish name) (now_finish guarded name)).sweep
  | begin | upsert | get | update | remove | removeSubtree | clear =>
      exact (shadowed.touch _ rfl).sweep

theorem run (shadowed : guarded.IsShadowedBy prompt) (calls : List StoreCall) :
    (guarded.run calls).IsShadowedBy (prompt.run calls) := by
  induction calls generalizing guarded prompt with
  | nil => exact shadowed
  | cons call others inductionHypothesis => exact inductionHypothesis (shadowed.obey call)

theorem ofPolicy {policy : EvictionPolicy} (noBound : policy.maxEntries = none) :
    (GuardedStore.ofPolicy policy).IsShadowedBy (PromptStore.ofPolicy policy) where
  isGuarded := ⟨rfl, rfl, rfl⟩
  noBound := noBound
  distinct := Table.distinct_nil
  heldDistinct := Table.distinct_nil
  agrees := fun _ => .absent
  fresh := by
    intro path aged held
    cases held

end IsShadowedBy

/-! ## Ages -/

/-- The call is an offer for the path, and it is stored. -/
def Stores (guarded : GuardedStore) (call : StoreCall) (path : Path) : Prop :=
  ∃ node choice, call = .upsert node choice ∧ node.path = path ∧
    (guarded.store.upsert guarded.now node (guarded.epochOf choice)).1.isStored = true

/-- What a call does to the ages of a live entry: an offer that is stored starts both of them
again, a read starts the one since the last use, and nothing else starts any. -/
structure KeepsAges (guarded : GuardedStore) (call : StoreCall) : Prop where
  stored : ∀ path entry, guarded.Stores call path →
    (guarded.obey call).store.live? (guarded.obey call).now path = some entry →
      entry.written = guarded.now ∧ entry.accessed = guarded.now
  kept : ∀ path entry, ¬guarded.Stores call path →
    (guarded.obey call).store.live? (guarded.obey call).now path = some entry →
      ∃ old, guarded.store.live? guarded.now path = some old ∧ entry.written = old.written ∧
        (call = .get path → entry.accessed = guarded.now) ∧
          (call ≠ .get path → entry.accessed = old.accessed)

theorem now_le_obey (guarded : GuardedStore) (call : StoreCall) :
    guarded.now ≤ (guarded.obey call).now := by
  cases call with
  | advance span => exact Nat.le_add_right _ _
  | finish name => exact Nat.le_of_eq (now_finish guarded name).symm
  | begin | upsert | get | update | remove | removeSubtree | clear => exact Nat.le_refl _

/-- What is live after a call was live before it, if it was there with the same ages. -/
theorem isExpired_before {call : StoreCall} {entry old : Entry}
    (written : entry.written = old.written) (accessed : entry.accessed = old.accessed)
    (live : (guarded.obey call).store.isExpired (guarded.obey call).now entry = false) :
    guarded.store.isExpired guarded.now old = false := by
  rw [← Bool.not_eq_true] at live ⊢
  intro isOver
  have later := Store.isExpired_mono (now_le_obey guarded call) isOver
  rw [Store.isExpired, ← policy_obey guarded call, ← written, ← accessed] at later
  exact live later

/-- Entries that a call only keeps or drops keep their ages. -/
theorem keepsAges_of_kept {call : StoreCall} (noRead : ∀ path, call ≠ .get path)
    (noOffer : ∀ path, ¬guarded.Stores call path)
    (kept : ∀ path entry, (guarded.obey call).store.entries.get? path = some entry →
      guarded.store.entries.get? path = some entry) : guarded.KeepsAges call where
  stored := fun path entry offered => absurd offered (noOffer path)
  kept := by
    intro path entry _ live
    obtain ⟨found, fresh⟩ := Store.live?_eq_some_iff.mp live
    refine ⟨entry, Store.live?_eq_some_iff.mpr ⟨kept path entry found, ?_⟩, rfl, ?_, fun _ => rfl⟩
    · exact isExpired_before rfl rfl fresh
    · exact fun isRead => absurd isRead (noRead path)

theorem keepsAges_get (guarded : GuardedStore) (path : Path) :
    guarded.KeepsAges (.get path) where
  stored := by
    rintro _ _ ⟨_, _, isOffer, _⟩
    cases isOffer
  kept := by
    intro key entry _ live
    obtain ⟨found, fresh⟩ := Store.live?_eq_some_iff.mp live
    change (guarded.store.get guarded.now path).2.entries.get? key = some entry at found
    rw [Store.get?_get] at found
    by_cases same : key = path
    · rw [if_pos same, Option.map_eq_some_iff] at found
      obtain ⟨old, wasLive, rfl⟩ := found
      refine ⟨old, same ▸ wasLive, rfl, fun _ => rfl, fun notRead => ?_⟩
      exact absurd (congrArg StoreCall.get same.symm) notRead
    · rw [if_neg same] at found
      refine ⟨entry, Store.live?_eq_some_iff.mpr ⟨found, isExpired_before rfl rfl fresh⟩, rfl,
        fun isRead => ?_, fun _ => rfl⟩
      cases isRead
      exact absurd rfl same

theorem keepsAges_upsert (noBound : guarded.store.policy.maxEntries = none) (node : Node)
    (choice : EpochChoice) : guarded.KeepsAges (.upsert node choice) := by
  have entries := Store.entries_upsert noBound guarded.now node (guarded.epochOf choice)
  constructor
  · rintro path entry ⟨_, _, isOffer, rfl, stored⟩ live
    cases isOffer
    rw [if_pos stored] at entries
    obtain ⟨found, _⟩ := Store.live?_eq_some_iff.mp live
    change (guarded.store.upsert _ _ _).2.entries.get? _ = some entry at found
    rw [entries, Table.get?_put_self] at found
    cases found
    exact ⟨rfl, rfl⟩
  · intro path entry notStored live
    obtain ⟨found, fresh⟩ := Store.live?_eq_some_iff.mp live
    refine ⟨entry, Store.live?_eq_some_iff.mpr ⟨?_, isExpired_before rfl rfl fresh⟩, rfl,
      fun isRead => (by cases isRead), fun _ => rfl⟩
    change (guarded.store.upsert _ _ _).2.entries.get? _ = some entry at found
    rw [entries] at found
    split at found
    next stored =>
      have different : path ≠ node.path := fun same =>
        notStored ⟨node, choice, rfl, same.symm, stored⟩
      rw [Table.get?_put_of_ne _ _ different] at found
      exact found
    · exact found

theorem keepsAges_update (guarded : GuardedStore) (path : Path) (change : Node → Option Node) :
    guarded.KeepsAges (.update path change) where
  stored := by
    rintro _ _ ⟨_, _, isOffer, _⟩
    cases isOffer
  kept := by
    intro key entry _ live
    obtain ⟨found, fresh⟩ := Store.live?_eq_some_iff.mp live
    obtain ⟨old, present, written, accessed⟩ :=
      Store.ages_update guarded.store guarded.now path key change found
    exact ⟨old, Store.live?_eq_some_iff.mpr ⟨present, isExpired_before written accessed fresh⟩,
      written, fun isRead => (by cases isRead), fun _ => accessed⟩

theorem keepsAges (noBound : guarded.store.policy.maxEntries = none) (call : StoreCall) :
    guarded.KeepsAges call := by
  cases call with
  | upsert node choice => exact keepsAges_upsert noBound node choice
  | get path => exact keepsAges_get guarded path
  | update path change => exact keepsAges_update guarded path change
  | begin name =>
      refine keepsAges_of_kept (by simp) (by simp [Stores]) fun path entry found => ?_
      exact (begin_holdsSame guarded name).entries ▸ found
  | finish name =>
      refine keepsAges_of_kept (by simp) (by simp [Stores]) fun path entry found => ?_
      exact (finish_holdsSame guarded name).entries ▸ found
  | remove removed =>
      refine keepsAges_of_kept (by simp) (by simp [Stores]) fun path entry found => ?_
      change (guarded.store.remove guarded.now removed).2.entries.get? path = some entry at found
      rw [Store.entries_remove, Table.get?_erase] at found
      split at found
      · cases found
      · exact found
  | removeSubtree removed =>
      refine keepsAges_of_kept (by simp) (by simp [Stores]) fun path entry found => ?_
      change (guarded.store.removeSubtree guarded.now removed).2.entries.get? path = _ at found
      rw [Store.get?_removeSubtree] at found
      split at found
      · cases found
      · exact found
  | clear =>
      refine keepsAges_of_kept (by simp) (by simp [Stores]) fun path entry found => ?_
      cases found
  | advance span => exact keepsAges_of_kept (by simp) (by simp [Stores]) fun _ _ found => found

/-- In every run of a store with any limits on the ages of its entries and no bound on their number,
every call and every reader gets the answer of a store that deletes each entry at the moment when
it expires, and every call keeps the ages. -/
theorem answersAs_promptStore (afterWrite afterAccess : Option Span) (calls : List StoreCall) :
    let policy : EvictionPolicy :=
      { expireAfterWrite := afterWrite, expireAfterAccess := afterAccess }
    let guarded := (ofPolicy policy).run calls
    let prompt := (PromptStore.ofPolicy policy).run calls
    guarded.AnswersAs prompt.gate prompt.nodes ∧ ∀ call, guarded.KeepsAges call := by
  intro policy guarded prompt
  have started : (ofPolicy policy).IsShadowedBy (.ofPolicy policy) := IsShadowedBy.ofPolicy rfl
  have shadowed : guarded.IsShadowedBy prompt := started.run calls
  exact ⟨shadowed.answersAs, fun call => keepsAges shadowed.noBound call⟩

/-- A read in time saves a node from the one limit, and not from the other. -/
example :
    let policy : EvictionPolicy := { expireAfterWrite := some 5, expireAfterAccess := some 3 }
    let calls : List StoreCall :=
      [.upsert { path := "/a".toList } .present, .advance 2, .get "/a".toList, .advance 2]
    let prompt := (PromptStore.ofPolicy policy).run calls
    prompt.nodes.keys = ["/a".toList] ∧ (prompt.obey (.advance 1)).nodes.keys = [] := by
  decide

end GuardedStore

end WatchedTree
