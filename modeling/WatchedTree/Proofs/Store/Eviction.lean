import Mathlib.Computability.StateTransition
import WatchedTree.Proofs.Store.Indexing

/-!
# Evictions turn by turn

An eviction looks at the number of entries before each turn, and takes the oldest stamp out of the
list in it. So it ends at the latest when the list is used up; that it ends with the bound kept is
because the list then held the stamps of all that was stored.
-/
namespace WatchedTree

/-- An eviction under way: what is stored, the stamps still to come, and those of the path to keep
that have been set aside. -/
structure Eviction where
  entries : Table Path Entry
  stamps : List (Stamp × Path)
  spared : List (Stamp × Path) := []

namespace Eviction

/-- The list of stamps if the eviction stopped here. -/
def listed (eviction : Eviction) : List (Stamp × Path) := eviction.spared ++ eviction.stamps

/-- The entries without the one of a path, provided that it bears the stamp. -/
def takeStamped (entries : Table Path Entry) (stamp : Stamp) (path : Path) : Table Path Entry :=
  match entries.get? path with
  | none => entries
  | some entry => if entry.stamp = stamp then entries.erase path else entries

/-- The next turn, unless the bound holds or no stamp is left. The oldest stamp goes, and with it
the entry that bears it; that of the path to keep is set aside. -/
def turn (bound : Nat) (keep : Path) (eviction : Eviction) : Option Eviction :=
  if eviction.entries.length ≤ bound then none
  else match eviction.stamps with
    | [] => none
    | (stamp, path) :: others =>
      if path = keep then
        some { eviction with stamps := others, spared := eviction.spared ++ [(stamp, path)] }
      else
        some { eviction with
          entries := takeStamped eviction.entries stamp path
          stamps := others }

/-- An eviction always ends, whatever is stored and listed, and then leaves what the evaluation in
one go leaves. -/
theorem ends (bound : Nat) (keep : Path) (eviction : Eviction) :
    ∃ last ∈ StateTransition.eval (turn bound keep) eviction,
      (last.entries, last.listed) =
        Store.evict bound keep eviction.stamps eviction.entries eviction.spared := by
  obtain ⟨entries, stamps, spared⟩ := eviction
  simp only
  -- Each turn takes one stamp out of the list, whether or not an entry goes with it.
  induction stamps generalizing entries spared with
  | nil =>
      refine ⟨⟨entries, [], spared⟩, StateTransition.mem_eval.mpr ⟨.refl, ?_⟩, ?_⟩
      · simp [turn]
      · simp [listed, Store.evict]
  | cons pair others inductionHypothesis =>
      obtain ⟨stamp, path⟩ := pair
      rw [Store.evict]
      by_cases fits : entries.length ≤ bound
      · rw [if_pos fits]
        exact ⟨_, StateTransition.mem_eval.mpr ⟨.refl, if_pos fits⟩, rfl⟩
      · rw [if_neg fits]
        by_cases isKept : path = keep
        · have turned : turn bound keep ⟨entries, (stamp, path) :: others, spared⟩ =
              some ⟨entries, others, spared ++ [(stamp, path)]⟩ := by
            simp only [turn, if_neg fits, if_pos isKept]
          rw [if_pos isKept, StateTransition.reaches_eval (.single turned)]
          exact inductionHypothesis entries (spared ++ [(stamp, path)])
        · have turned : turn bound keep ⟨entries, (stamp, path) :: others, spared⟩ =
              some ⟨takeStamped entries stamp path, others, spared⟩ := by
            simp only [turn, if_neg fits, if_neg isKept]
          rw [if_neg isKept, StateTransition.reaches_eval (.single turned)]
          exact inductionHypothesis (takeStamped entries stamp path) spared

end Eviction

namespace Store

variable {store : Store} {bound : Nat}

/-- The eviction that the bound on entries sets off. -/
def eviction (store : Store) : Eviction := { entries := store.entries, stamps := store.recency }

/-- In a store whose stamps are listed, an eviction ends within the bound, where one entry is always
kept, and leaves what enforcing the bound leaves. -/
theorem IsIndexed.eviction_ends (indexed : store.IsIndexed)
    (bounded : store.policy.maxEntries = some bound) (keep : Path) :
    ∃ last ∈ StateTransition.eval (Eviction.turn bound keep) store.eviction,
      store.enforceCapacity keep =
          { store with entries := last.entries, recency := last.listed } ∧
        last.entries.length ≤ max bound 1 := by
  obtain ⟨last, ended, left⟩ := Eviction.ends bound keep store.eviction
  have enforced : store.enforceCapacity keep =
      { store with entries := last.entries, recency := last.listed } := by
    rw [Store.enforceCapacity, bounded]
    simp only
    exact left ▸ rfl
  refine ⟨last, ended, enforced, ?_⟩
  have fits := (indexed.enforceCapacity bounded keep).fits
  rwa [enforced] at fits

/-- No two entries bear one stamp. -/
theorem IsIndexed.path_of_stamp (indexed : store.IsIndexed) {path other : Path}
    {first second : Entry} (inFirst : store.entries.get? path = some first)
    (inSecond : store.entries.get? other = some second) (same : first.stamp = second.stamp) :
    path = other := by
  have firstListed := (indexed.mem_iff first.stamp path).mpr ⟨first, inFirst, rfl⟩
  have secondListed := (indexed.mem_iff first.stamp other).mpr ⟨second, inSecond, same.symm⟩
  exact congrArg Prod.snd
    (List.inj_on_of_nodup_map indexed.nodup_stamps firstListed secondListed rfl)

end Store

namespace GuardedStore

/-- Under a bound on entries, zero included, and with any limits on ages, the list of stamps is at
all times the inverse of the stamps that the entries bear: a stamp stands in it with a path exactly
if the path's entry bears it, no two entries bear the same one, and all lie in the past. Therefore
no more entries are stored than the bound allows, expired ones included and one always kept, and
whatever node is offered next, the eviction that storing it sets off comes to an end within the
bound and leaves what the offer leaves. Without a bound nothing is listed. -/
theorem stamps_inverted (policy : EvictionPolicy) (calls : List StoreCall) :
    let guarded := (ofPolicy policy).run calls
    let store := guarded.store
    match policy.maxEntries with
    | none => store.recency = []
    | some bound =>
      store.IsIndexed ∧
      (∀ path other first second, store.entries.get? path = some first →
        store.entries.get? other = some second → first.stamp = second.stamp → path = other) ∧
      (∀ path entry, store.entries.get? path = some entry → entry.stamp < store.clock) ∧
      store.entries.length ≤ max bound 1 ∧
      ∀ node epoch,
        let entered := store.enter guarded.now node
        ∃ last ∈ StateTransition.eval (Eviction.turn bound node.path) entered.eviction,
          (store.upsert guarded.now node epoch).2 =
              (if (store.upsert guarded.now node epoch).1.isStored then
                { entered with entries := last.entries, recency := last.listed }
              else store) ∧
            last.entries.length ≤ max bound 1 := by
  intro guarded store
  cases bounded : policy.maxEntries with
  | none => exact (isUnlisted_run bounded calls).empty
  | some bound =>
      have capped : store.IsCapped bound := isCapped_run bounded calls
      have indexed := capped.indexed
      refine ⟨indexed, fun _ _ _ _ inFirst inSecond => indexed.path_of_stamp inFirst inSecond,
        ?_, capped.fits, ?_⟩
      · intro path entry found
        exact indexed.past _ ((indexed.mem_iff entry.stamp path).mpr ⟨entry, found, rfl⟩)
      · intro node epoch entered
        have enteredIndexed : entered.IsIndexed := indexed.enter guarded.now node
        obtain ⟨last, ended, enforced, fits⟩ :=
          enteredIndexed.eviction_ends capped.bounded node.path
        refine ⟨last, ended, ?_, fits⟩
        rw [← enforced]
        exact indexed.upsert_eq capped.bounded guarded.now node epoch

/-- Under a bound of zero the node that was written last stays, and its stamp alone is listed. -/
example :
    let calls : List StoreCall :=
      [.upsert { path := "/a".toList } .present, .upsert { path := "/b".toList } .present]
    let store := ((ofPolicy { maxEntries := some 0 }).run calls).store
    store.entries.keys = ["/b".toList] ∧ store.recency = [(1, "/b".toList)] := by
  decide

end GuardedStore

end WatchedTree
