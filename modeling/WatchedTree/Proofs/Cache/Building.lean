import WatchedTree.Proofs.History
import WatchedTree.Proofs.World.Reached

/-!
# What the calls on a builder amount to

Of every setting the last call that gives it counts, wherever it stands among the others; the
defaults give the three flags as well as the capacities. Only the mode depends on the order of two
kinds of calls. From the last values follow the complaints, in the order in which they are made, and
the options of the cache if there are none.
-/
namespace WatchedTree

namespace BuilderCall

/-! ## What a call gives -/

def config? : BuilderCall → Option CacheConfig
  | .config settings => some settings
  | _ => none

def retention? : BuilderCall → Option Retention
  | .weakValues => some .weak
  | .softValues => some .soft
  | _ => none

def maxEntries? : BuilderCall → Option Nat
  | .boundedBy maxEntries => some maxEntries
  | _ => none

def writeExpiry? : BuilderCall → Option Span
  | .expireAfterWrite span => some span
  | _ => none

def accessExpiry? : BuilderCall → Option Span
  | .expireAfterAccess span => some span
  | _ => none

/-- Whether refreshes are told of, as far as the call says so. -/
def sends? : BuilderCall → Option Bool
  | .sendingRefreshEvents enabled => some enabled
  | .config settings => some settings.sendRefreshEvents
  | _ => none

def refreshes? : BuilderCall → Option Bool
  | .refreshingOnStart enabled => some enabled
  | .config settings => some settings.refreshOnStart
  | _ => none

def sorts? : BuilderCall → Option Bool
  | .sortingChildren enabled => some enabled
  | .config settings => some settings.sortChildren
  | _ => none

def comparator? : BuilderCall → Option Comparator
  | .comparator rule => some rule
  | _ => none

def selector? : BuilderCall → Option Selector
  | .selector chosen => some chosen
  | _ => none

/-- The action of single-node mode. -/
def action? : BuilderCall → Option Action
  | .singleNode action => some action
  | _ => none

/-- What the last of the calls that give it gives. -/
def last? {Value : Type} (gives : BuilderCall → Option Value) (calls : List BuilderCall) :
    Option Value := calls.reverse.findSome? gives

theorem last?_concat {Value : Type} (gives : BuilderCall → Option Value)
    (calls : List BuilderCall) (call : BuilderCall) :
    last? gives (calls ++ [call]) = (gives call).or (last? gives calls) := by
  rw [last?, List.reverse_concat, List.findSome?_cons]
  cases gives call <;> rfl

theorem exists_of_last?_eq_some {Value : Type} {gives : BuilderCall → Option Value}
    {calls : List BuilderCall} {value : Value} (isLast : last? gives calls = some value) :
    ∃ before call after, calls = before ++ call :: after ∧ gives call = some value ∧
      ∀ later ∈ after, gives later = none := by
  obtain ⟨after, call, before, split, given, nothing⟩ := List.findSome?_eq_some_iff.mp isLast
  refine ⟨before.reverse, call, after.reverse, ?_, given, ?_⟩
  · rw [← List.reverse_reverse calls, split, List.reverse_append, List.reverse_cons,
      List.append_assoc]
    rfl
  · intro later member
    exact nothing later (List.mem_reverse.mp member)

/-- A selector is chosen after the last call that turns to single-node mode. -/
def IsMixed (calls : List BuilderCall) : Prop :=
  ∃ before action after, calls = before ++ singleNode action :: after ∧
    (∀ call ∈ after, call.action? = none) ∧ ∃ call ∈ after, call.selector? ≠ none

end BuilderCall

namespace CacheBuilder

open BuilderCall

variable {path : Path} {calls : List BuilderCall} {call : BuilderCall} {Value : Type}

/-! ## The last calls count -/

theorem applyAll_concat (path : Path) (calls : List BuilderCall) (call : BuilderCall) :
    applyAll path (calls ++ [call]) = (applyAll path calls).apply call := by
  rw [applyAll, List.foldl_append]
  rfl

/-- If every call overwrites a part of the builder with what it gives, if anything, then all calls
overwrite it with the last thing given. -/
theorem read_applyAll (read : CacheBuilder → Value) (gives : BuilderCall → Option Value)
    (overwrites : ∀ builder call, read (builder.apply call) = (gives call).getD (read builder))
    (path : Path) (calls : List BuilderCall) :
    read (applyAll path calls) = (last? gives calls).getD (read { path }) := by
  induction calls using List.reverseRecOn with
  | nil => rfl
  | append_singleton others call inductionHypothesis =>
      rw [applyAll_concat, overwrites, inductionHypothesis, last?_concat]
      cases gives call <;> rfl

theorem read?_applyAll (read : CacheBuilder → Option Value) (gives : BuilderCall → Option Value)
    (overwrites : ∀ builder call, read (builder.apply call) = (gives call).or (read builder))
    (path : Path) (nothing : read { path } = none) (calls : List BuilderCall) :
    read (applyAll path calls) = last? gives calls := by
  induction calls using List.reverseRecOn with
  | nil => exact nothing
  | append_singleton others call inductionHypothesis =>
      rw [applyAll_concat, overwrites, inductionHypothesis, last?_concat]

/-! ## The settings one by one -/

/-- The defaults that were given last. -/
def lastConfig (calls : List BuilderCall) : CacheConfig := (last? config? calls).getD {}

theorem config_applyAll (path : Path) (calls : List BuilderCall) :
    (applyAll path calls).config = lastConfig calls :=
  read_applyAll (·.config) config? (fun _ call => by cases call <;> rfl) path calls

theorem retention_applyAll (path : Path) (calls : List BuilderCall) :
    (applyAll path calls).retention = (last? retention? calls).getD .unbounded :=
  read_applyAll (·.retention) retention? (fun _ call => by cases call <;> rfl) path calls

theorem comparator_applyAll (path : Path) (calls : List BuilderCall) :
    (applyAll path calls).comparator = (last? comparator? calls).getD .dataAndType :=
  read_applyAll (·.comparator) comparator? (fun _ call => by cases call <;> rfl) path calls

/-- The bounds that were given last, without the one of the retention. -/
def lastPolicy (calls : List BuilderCall) : EvictionPolicy where
  maxEntries := last? maxEntries? calls
  expireAfterWrite := last? writeExpiry? calls
  expireAfterAccess := last? accessExpiry? calls

theorem eviction_applyAll (path : Path) (calls : List BuilderCall) :
    (applyAll path calls).eviction = lastPolicy calls := by
  have entries := read?_applyAll (·.eviction.maxEntries) maxEntries?
    (fun _ call => by cases call <;> rfl) path rfl calls
  have write := read?_applyAll (·.eviction.expireAfterWrite) writeExpiry?
    (fun _ call => by cases call <;> rfl) path rfl calls
  have access := read?_applyAll (·.eviction.expireAfterAccess) accessExpiry?
    (fun _ call => by cases call <;> rfl) path rfl calls
  rw [lastPolicy, ← entries, ← write, ← access]

theorem sendRefreshEvents_applyAll (path : Path) (calls : List BuilderCall) :
    (applyAll path calls).sendRefreshEvents = (last? sends? calls).getD true :=
  read_applyAll (·.sendRefreshEvents) sends? (fun _ call => by cases call <;> rfl) path calls

theorem refreshOnStart_applyAll (path : Path) (calls : List BuilderCall) :
    (applyAll path calls).refreshOnStart = (last? refreshes? calls).getD true :=
  read_applyAll (·.refreshOnStart) refreshes? (fun _ call => by cases call <;> rfl) path calls

theorem sortChildren_applyAll (path : Path) (calls : List BuilderCall) :
    (applyAll path calls).sortChildren = (last? sorts? calls).getD true :=
  read_applyAll (·.sortChildren) sorts? (fun _ call => by cases call <;> rfl) path calls

theorem singleNode_applyAll (path : Path) (calls : List BuilderCall) :
    (applyAll path calls).singleNode = last? action? calls :=
  read?_applyAll (·.singleNode) action? (fun _ call => by cases call <;> rfl) path rfl calls

/-! ## The mode -/

/-- A selector stays as long as there is no call for single-node mode. -/
theorem selector_applyAll_of_none (path : Path) (subtree : last? action? calls = none) :
    (applyAll path calls).selector = last? selector? calls := by
  induction calls using List.reverseRecOn with
  | nil => rfl
  | append_singleton others call inductionHypothesis =>
      rw [last?_concat, Option.or_eq_none_iff] at subtree
      obtain ⟨noAction, earlier⟩ := subtree
      rw [applyAll_concat, last?_concat, ← inductionHypothesis earlier]
      cases call with
      | singleNode action => cases noAction
      | _ => rfl

theorem isMixed_concat (calls : List BuilderCall) (call : BuilderCall) :
    IsMixed (calls ++ [call]) ↔ call.action? = none ∧
      (IsMixed calls ∨ call.selector? ≠ none ∧ last? action? calls ≠ none) := by
  constructor
  · rintro ⟨before, action, after, split, subtree, chosen, member, isChosen⟩
    rcases split_concat split with ⟨_, _, rfl⟩ | ⟨rest, rfl, earlier⟩
    · exact absurd member List.not_mem_nil
    · refine ⟨subtree call (List.mem_append_right _ List.mem_cons_self), ?_⟩
      rcases List.mem_append.mp member with old | new
      · exact Or.inl ⟨before, action, rest, earlier,
          fun other isOld => subtree other (List.mem_append_left _ isOld), chosen, old, isChosen⟩
      · obtain rfl := List.mem_singleton.mp new
        refine Or.inr ⟨isChosen, ?_⟩
        rw [earlier, last?, ne_eq, List.findSome?_eq_none_iff]
        intro nothing
        cases nothing (.singleNode action) (by simp)
  · rintro ⟨subtree, ⟨before, action, after, rfl, none, chosen, member, isChosen⟩ | ⟨isChosen, given⟩⟩
    · refine ⟨before, action, after ++ [call], by simp, ?_, chosen, List.mem_append_left _ member,
        isChosen⟩
      intro other isIn
      rcases List.mem_append.mp isIn with old | new
      · exact none other old
      · exact List.mem_singleton.mp new ▸ subtree
    · obtain ⟨action, isLast⟩ := Option.ne_none_iff_exists'.mp given
      obtain ⟨before, single, after, rfl, given, none⟩ := exists_of_last?_eq_some isLast
      cases single with
      | singleNode =>
          refine ⟨before, _, after ++ [call], List.append_assoc .., ?_, call,
            List.mem_append_right _ List.mem_cons_self, isChosen⟩
          intro other isIn
          rcases List.mem_append.mp isIn with old | new
          · exact none other old
          · exact List.mem_singleton.mp new ▸ subtree
      | _ => cases given

/-- Both modes are chosen only if a selector comes after the last call for single-node mode. -/
theorem isMixed_iff (path : Path) (calls : List BuilderCall) :
    IsMixed calls ↔
      (applyAll path calls).selector ≠ none ∧ (applyAll path calls).singleNode ≠ none := by
  induction calls using List.reverseRecOn with
  | nil =>
      constructor
      · rintro ⟨before, action, after, split, _⟩
        simp at split
      · exact fun ⟨chosen, _⟩ => absurd rfl chosen
  | append_singleton others call inductionHypothesis =>
      rw [isMixed_concat, inductionHypothesis, applyAll_concat, ← singleNode_applyAll path]
      cases call with
      | singleNode action => simp [apply, action?]
      | selector chosen =>
          simp [apply, action?, selector?]
      | _ => simp [apply, action?, selector?]

instance (calls : List BuilderCall) : Decidable (IsMixed calls) :=
  decidable_of_iff ((applyAll [] calls).selector.isSome ∧ (applyAll [] calls).singleNode.isSome)
    (by rw [isMixed_iff [], Option.ne_none_iff_isSome, Option.ne_none_iff_isSome])

/-- Single-node mode with the last action if there is any, else the mode of the last selector. -/
def lastMode (calls : List BuilderCall) : CacheMode :=
  match last? action? calls, last? selector? calls with
  | some action, _ => .singleNode action
  | none, some selector => .subtree selector
  | none, none => .subtree (.uniform .statAndData)

theorem mode_applyAll (path : Path) (calls : List BuilderCall) :
    (applyAll path calls).mode =
      if IsMixed calls then .error .singleNodeAndSelector else .ok (lastMode calls) := by
  by_cases mixed : IsMixed calls
  · obtain ⟨selects, single⟩ := (isMixed_iff path calls).mp mixed
    obtain ⟨selector, isSelector⟩ := Option.ne_none_iff_exists'.mp selects
    obtain ⟨action, isAction⟩ := Option.ne_none_iff_exists'.mp single
    rw [if_pos mixed, mode, isSelector, isAction]
  · rw [if_neg mixed, mode, lastMode, ← singleNode_applyAll path]
    cases isAction : (applyAll path calls).singleNode with
    | none =>
        rw [selector_applyAll_of_none path (singleNode_applyAll path calls ▸ isAction)]
        cases last? selector? calls <;> rfl
    | some action =>
        have noSelector : (applyAll path calls).selector = none := by
          by_contra selects
          exact mixed ((isMixed_iff path calls).mpr ⟨selects, isAction ▸ Option.some_ne_none _⟩)
        rw [noSelector]

/-! ## The bound on entries -/

/-- The bound that was given last, and the capacity that the last retention takes from the last
defaults. -/
def lastBounds (calls : List BuilderCall) : List Nat :=
  (last? maxEntries? calls).toList ++
    match last? retention? calls with
    | some .weak => [(lastConfig calls).weakValuesCapacity]
    | some .soft => [(lastConfig calls).softValuesCapacity]
    | _ => []

theorem smallerBound_eq_min? (left right : Option Nat) :
    smallerBound left right = (left.toList ++ right.toList).min? := by
  cases left <;> cases right <;> rfl

theorem retained_applyAll (path : Path) (calls : List BuilderCall) :
    (applyAll path calls).retained.toList =
      match last? retention? calls with
      | some .weak => [(lastConfig calls).weakValuesCapacity]
      | some .soft => [(lastConfig calls).softValuesCapacity]
      | _ => [] := by
  rw [retained, config_applyAll, retention_applyAll]
  cases last? retention? calls with
  | none => rfl
  | some retention => cases retention <;> rfl

theorem policy_applyAll (path : Path) (calls : List BuilderCall) :
    (applyAll path calls).policy =
      { lastPolicy calls with maxEntries := (lastBounds calls).min? } := by
  rw [policy, eviction_applyAll, smallerBound_eq_min?, retained_applyAll]
  rfl

/-- Capacities leave something, so that only a bound given as zero leaves nothing. -/
theorem min?_lastBounds_eq_zero (checked : (lastConfig calls).check = .ok ()) :
    (lastBounds calls).min? = some 0 ↔ last? maxEntries? calls = some 0 := by
  have weak : (lastConfig calls).weakValuesCapacity ≠ 0 := by
    intro zero
    rw [CacheConfig.check, if_pos zero] at checked
    cases checked
  have soft : (lastConfig calls).softValuesCapacity ≠ 0 := by
    intro zero
    rw [CacheConfig.check, if_neg weak, if_pos (by omega)] at checked
    cases checked
  rw [lastBounds]
  cases last? maxEntries? calls with
  | none => split <;> simp [weak, soft]
  | some bound => split <;> simp [weak, soft]

/-! ## The law -/

/-- What is wrong with the last values, in the order in which it is complained of. -/
def complaints (path : Path) (calls : List BuilderCall) : List Misconfiguration :=
  let config := lastConfig calls
  (match path.check with
    | .error fault => [.badPath fault]
    | .ok () => []) ++
  (if config.weakValuesCapacity = 0 then [.zeroWeakCapacity] else []) ++
  (if config.softValuesCapacity < config.weakValuesCapacity then
    [.softBelowWeak config.softValuesCapacity config.weakValuesCapacity] else []) ++
  (if IsMixed calls then [.singleNodeAndSelector] else []) ++
  (if last? maxEntries? calls = some 0 then [.zeroEntries] else []) ++
  (if last? writeExpiry? calls = some 0 ∨ last? accessExpiry? calls = some 0 then
    [.zeroExpiry] else [])

/-- The options that the last values amount to. -/
def lastOptions (path : Path) (calls : List BuilderCall) : CacheOptions where
  basePath := path
  mode := lastMode calls
  comparator := (last? comparator? calls).getD .dataAndType
  eviction := { lastPolicy calls with maxEntries := (lastBounds calls).min? }
  sendRefreshEvents := (last? sends? calls).getD true
  refreshOnStart := (last? refreshes? calls).getD true
  sortChildren := (last? sorts? calls).getD true

theorem build_applyAll (path : Path) (calls : List BuilderCall) :
    (applyAll path calls).build =
      match (complaints path calls).head? with
      | some cause => .error cause
      | none => .ok (lastOptions path calls) := by
  rw [build, World.path_applyAll, config_applyAll, mode_applyAll, policy_applyAll,
    comparator_applyAll, sendRefreshEvents_applyAll, refreshOnStart_applyAll, sortChildren_applyAll,
    complaints]
  cases path.check with
  | error fault => rfl
  | ok =>
      rw [List.nil_append]
      by_cases zeroWeak : (lastConfig calls).weakValuesCapacity = 0
      · rw [if_pos zeroWeak, CacheConfig.check, if_pos zeroWeak]
        rfl
      by_cases below : (lastConfig calls).softValuesCapacity < (lastConfig calls).weakValuesCapacity
      · rw [if_neg zeroWeak, if_pos below, CacheConfig.check, if_neg zeroWeak, if_pos below]
        rfl
      have checked : (lastConfig calls).check = .ok () := by
        rw [CacheConfig.check, if_neg zeroWeak, if_neg below]
      rw [if_neg zeroWeak, if_neg below, checked]
      by_cases mixed : IsMixed calls
      · rw [if_pos mixed, if_pos mixed]
        rfl
      rw [if_neg mixed, if_neg mixed, checkPolicy, lastPolicy]
      simp only [min?_lastBounds_eq_zero checked]
      by_cases zeroEntries : last? maxEntries? calls = some 0
      · rw [if_pos zeroEntries, if_pos zeroEntries]
        rfl
      rw [if_neg zeroEntries, if_neg zeroEntries]
      by_cases zeroExpiry : last? writeExpiry? calls = some 0 ∨ last? accessExpiry? calls = some 0
      · rw [if_pos zeroExpiry, if_pos zeroExpiry]
        rfl
      · rw [if_neg zeroExpiry, if_neg zeroExpiry]
        rfl

theorem complaints_eq_nil_iff (path : Path) (calls : List BuilderCall) :
    complaints path calls = [] ↔
      path.IsValid ∧ (lastConfig calls).weakValuesCapacity ≠ 0 ∧
        (lastConfig calls).weakValuesCapacity ≤ (lastConfig calls).softValuesCapacity ∧
          ¬ IsMixed calls ∧ last? maxEntries? calls ≠ some 0 ∧
            last? writeExpiry? calls ≠ some 0 ∧ last? accessExpiry? calls ≠ some 0 := by
  have checks : (match path.check with
      | .error fault => [Misconfiguration.badPath fault]
      | .ok () => []) = [] ↔ path.IsValid := by
    rw [Path.IsValid]
    cases path.check with
    | error fault => exact ⟨nofun, nofun⟩
    | ok => exact ⟨fun _ => rfl, fun _ => rfl⟩
  simp only [complaints, List.append_eq_nil_iff, checks, ite_eq_right_iff, List.cons_ne_nil,
    imp_false, not_or, and_assoc, Nat.not_lt, ne_eq]

/-- What is built from some calls on a path, and why nothing is built from others. -/
structure BuildsByLaw (path : Path) (calls : List BuilderCall) : Prop where
  /-- Either the first complaint is the answer, or there is none and the last values hold. -/
  answer : (applyAll path calls).build =
    match (complaints path calls).head? with
    | some cause => .error cause
    | none => .ok (lastOptions path calls)
  succeeds : (∃ options, (applyAll path calls).build = .ok options) ↔
    path.IsValid ∧ (lastConfig calls).weakValuesCapacity ≠ 0 ∧
      (lastConfig calls).weakValuesCapacity ≤ (lastConfig calls).softValuesCapacity ∧
        ¬ IsMixed calls ∧ last? maxEntries? calls ≠ some 0 ∧
          last? writeExpiry? calls ≠ some 0 ∧ last? accessExpiry? calls ≠ some 0
  /-- A caller gets the complaint as a failure of the configuration, or else a cache of these
  options. -/
  world : ∀ world : World, world.build path calls =
    match (complaints path calls).head? with
    | some cause => (.error (.configuration cause), world)
    | none => (.ok world.caches.length,
        { world with caches := world.caches ++ [Cache.ofOptions (lastOptions path calls)] })

theorem builds_by_law (path : Path) (calls : List BuilderCall) : BuildsByLaw path calls where
  answer := build_applyAll path calls
  succeeds := by
    rw [← complaints_eq_nil_iff, build_applyAll, ← List.head?_eq_none_iff]
    cases (complaints path calls).head? with
    | none => exact ⟨fun _ => rfl, fun _ => ⟨_, rfl⟩⟩
    | some cause =>
        refine iff_of_false ?_ (Option.some_ne_none cause)
        rintro ⟨options, isOk⟩
        cases isOk
  world := by
    intro world
    rw [World.build, build_applyAll]
    cases (complaints path calls).head? <;> rfl

/-- The defaults size a retention that was chosen before them, and overwrite a flag. -/
example : (applyAll "/a".toList [.weakValues, .sortingChildren true, .boundedBy 9,
      .config { weakValuesCapacity := 7, sortChildren := false }]).build.toOption.map
        (fun options => (options.eviction.maxEntries, options.sortChildren)) =
    some (some 7, false) := by decide

end CacheBuilder

end WatchedTree
