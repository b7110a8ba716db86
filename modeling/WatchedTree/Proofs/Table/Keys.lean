import Mathlib.Algebra.GroupWithZero.Nat
import Mathlib.Data.List.Nodup
import WatchedTree.Table

/-!
# Keys of tables

A table in which no key stands twice behaves like a finite function: what `get?` finds is what the
table holds, and filtering the pairs filters the answers.
-/
namespace WatchedTree

namespace Table

universe u v

variable {Key : Type u} {Value : Type v}

/-- No key stands twice. -/
def Distinct (table : Table Key Value) : Prop := table.keys.Nodup

@[simp] theorem distinct_nil : Distinct ([] : Table Key Value) := List.nodup_nil

variable [DecidableEq Key]

theorem get?_eq_none_iff {table : Table Key Value} {key : Key} :
    table.get? key = none ↔ key ∉ table.keys := by
  induction table with
  | nil => simp [keys]
  | cons pair rest inductionHypothesis =>
      obtain ⟨held, value⟩ := pair
      by_cases same : held = key
      · simp [get?, keys, same]
      · simp only [get?, if_neg same, keys, List.map_cons, List.mem_cons, not_or] at *
        rw [inductionHypothesis]
        simp [Ne.symm same]

theorem contains_iff {table : Table Key Value} {key : Key} :
    table.contains key = true ↔ key ∈ table.keys := by
  rw [contains, Option.isSome_iff_ne_none, ne_eq, get?_eq_none_iff, not_not]

theorem contains_eq_false_iff {table : Table Key Value} {key : Key} :
    table.contains key = false ↔ table.get? key = none := by
  rw [contains, Option.isSome_eq_false_iff, Option.isNone_iff_eq_none]

theorem mem_keys_iff {table : Table Key Value} {key : Key} :
    key ∈ table.keys ↔ ∃ value, table.get? key = some value := by
  rw [← contains_iff, contains, Option.isSome_iff_exists]

theorem eq_nil_of_forall_get? {table : Table Key Value}
    (nowhere : ∀ key value, table.get? key ≠ some value) : table = [] := by
  refine List.eq_nil_iff_forall_not_mem.mpr fun pair member => ?_
  obtain ⟨value, found⟩ := mem_keys_iff.mp (List.mem_map_of_mem (f := Prod.fst) member)
  exact nowhere pair.1 value found

theorem mem_of_get? {table : Table Key Value} {key : Key} {value : Value}
    (found : table.get? key = some value) : (key, value) ∈ table := by
  induction table with
  | nil => simp at found
  | cons pair rest inductionHypothesis =>
      obtain ⟨held, first⟩ := pair
      by_cases same : held = key
      · rw [get?, if_pos same] at found
        cases found
        simp [same]
      · rw [get?, if_neg same] at found
        exact List.mem_cons_of_mem _ (inductionHypothesis found)

theorem get?_of_mem {table : Table Key Value} (distinct : table.Distinct) {key : Key}
    {value : Value} (member : (key, value) ∈ table) : table.get? key = some value := by
  induction table with
  | nil => simp at member
  | cons pair rest inductionHypothesis =>
      obtain ⟨held, first⟩ := pair
      obtain ⟨fresh, restDistinct⟩ := List.nodup_cons.mp distinct
      rcases List.mem_cons.mp member with equal | later
      · cases equal
        simp [get?]
      · have different : held ≠ key := by
          rintro rfl
          exact fresh (List.mem_map.mpr ⟨(held, value), later, rfl⟩)
        rw [get?, if_neg different]
        exact inductionHypothesis restDistinct later

theorem mem_iff_get? {table : Table Key Value} (distinct : table.Distinct) {key : Key}
    {value : Value} : (key, value) ∈ table ↔ table.get? key = some value :=
  ⟨get?_of_mem distinct, mem_of_get?⟩

/-! ## Writes -/

theorem keys_put_of_mem {table : Table Key Value} {key : Key} (value : Value)
    (member : key ∈ table.keys) : (table.put key value).keys = table.keys := by
  induction table with
  | nil => simp [keys] at member
  | cons pair rest inductionHypothesis =>
      obtain ⟨held, old⟩ := pair
      by_cases same : held = key
      · simp [put, keys, same]
      · have later : key ∈ keys rest := by
          rcases List.mem_cons.mp member with first | later
          · exact absurd first.symm same
          · exact later
        have tail := inductionHypothesis later
        simp only [keys] at tail
        simp [put, keys, same, tail]

theorem keys_put_of_not_mem {table : Table Key Value} {key : Key} (value : Value)
    (fresh : key ∉ table.keys) : (table.put key value).keys = table.keys ++ [key] := by
  induction table with
  | nil => simp [put, keys]
  | cons pair rest inductionHypothesis =>
      obtain ⟨held, old⟩ := pair
      simp only [keys, List.map_cons, List.mem_cons, not_or] at fresh
      have tail := inductionHypothesis fresh.2
      simp only [keys] at tail
      simp [put, keys, Ne.symm fresh.1, tail]

theorem mem_keys_put {table : Table Key Value} {key other : Key} {value : Value} :
    other ∈ (table.put key value).keys ↔ other = key ∨ other ∈ table.keys := by
  by_cases member : key ∈ table.keys
  · rw [keys_put_of_mem value member]
    constructor
    · exact Or.inr
    · rintro (rfl | found)
      · exact member
      · exact found
  · rw [keys_put_of_not_mem value member]
    simp [or_comm]

theorem Distinct.put {table : Table Key Value} (distinct : table.Distinct) (key : Key)
    (value : Value) : (table.put key value).Distinct := by
  unfold Distinct at distinct ⊢
  by_cases member : key ∈ table.keys
  · rw [keys_put_of_mem value member]
    exact distinct
  · rw [keys_put_of_not_mem value member]
    exact List.nodup_append.mpr
      ⟨distinct, List.nodup_singleton key, by
        intro held inTable other isKey same
        rw [List.mem_singleton.mp isKey] at same
        exact member (same ▸ inTable)⟩

omit [DecidableEq Key] in
theorem Distinct.filter {table : Table Key Value} (distinct : table.Distinct)
    (keep : Key × Value → Bool) : Distinct (List.filter keep table) :=
  distinct.sublist (List.filter_sublist.map Prod.fst)

theorem erase_cons (held : Key) (value : Value) (rest : Table Key Value) (key : Key) :
    erase ((held, value) :: rest) key =
      if held = key then rest.erase key else (held, value) :: rest.erase key := by
  by_cases same : held = key <;> simp [erase, same]

theorem erase_of_not_mem {table : Table Key Value} {key : Key} (missing : key ∉ table.keys) :
    table.erase key = table := by
  rw [erase, List.filter_eq_self]
  intro pair member
  have different : pair.1 ≠ key := by
    rintro rfl
    exact missing (List.mem_map.mpr ⟨pair, member, rfl⟩)
  simpa using different

omit [DecidableEq Key] in
/-- Pairs picked by their keys leave these keys. -/
theorem keys_filter (table : Table Key Value) (keep : Key → Bool) :
    keys (List.filter (fun pair => keep pair.1) table) = table.keys.filter keep := by
  rw [keys, keys, List.filter_map]
  rfl

theorem keys_erase (table : Table Key Value) (key : Key) :
    (table.erase key).keys = table.keys.filter (· ≠ key) :=
  keys_filter table (· ≠ key)

theorem get?_append (table other : Table Key Value) (key : Key) :
    get? (table ++ other) key = (table.get? key).or (other.get? key) := by
  induction table with
  | nil => rfl
  | cons pair rest inductionHypothesis =>
      obtain ⟨held, value⟩ := pair
      by_cases same : held = key
      · simp [get?, same]
      · simp [get?, same, inductionHypothesis]

theorem get?_mapValues {Other : Type v} (table : Table Key Value) (change : Value → Other)
    (key : Key) :
    get? (table.map fun pair => (pair.1, change pair.2)) key = (table.get? key).map change := by
  induction table with
  | nil => rfl
  | cons pair rest inductionHypothesis =>
      obtain ⟨held, value⟩ := pair
      by_cases same : held = key
      · simp [get?, same]
      · simp [get?, same, inductionHypothesis]

/-- A reader finds in the first pairs what it finds in all, if the key is among them. -/
theorem get?_take {table : Table Key Value} {count : Nat} {key : Key}
    (member : key ∈ table.keys.take count) : get? (table.take count) key = table.get? key := by
  induction table generalizing count with
  | nil => rw [List.take_nil]
  | cons pair rest inductionHypothesis =>
      obtain ⟨held, value⟩ := pair
      cases count with
      | zero => simp at member
      | succ fewer =>
          by_cases same : held = key
          · simp [get?, same]
          · have later : key ∈ (keys rest).take fewer := by
              rcases List.mem_cons.mp member with first | later
              · exact absurd first.symm same
              · exact later
            simp [get?, same, inductionHypothesis later]

theorem Distinct.erase {table : Table Key Value} (distinct : table.Distinct) (key : Key) :
    (table.erase key).Distinct :=
  distinct.filter _

theorem mem_keys_erase {table : Table Key Value} {key other : Key} :
    other ∈ (table.erase key).keys ↔ other ≠ key ∧ other ∈ table.keys := by
  rw [mem_keys_iff, mem_keys_iff, get?_erase]
  by_cases same : other = key <;> simp [same]

theorem get?_adjust (table : Table Key Value) (key other : Key) (change : Value → Value) :
    (table.adjust key change).get? other =
      if other = key then (table.get? key).map change else table.get? other := by
  unfold adjust
  cases found : table.get? key with
  | none =>
      by_cases same : other = key
      · simp [same, found]
      · simp [same]
  | some value => simp [get?_put]

theorem keys_adjust (table : Table Key Value) (key : Key) (change : Value → Value) :
    (table.adjust key change).keys = table.keys := by
  unfold adjust
  cases found : table.get? key with
  | none => rfl
  | some value => exact keys_put_of_mem _ (mem_keys_iff.mpr ⟨value, found⟩)

theorem Distinct.adjust {table : Table Key Value} (distinct : table.Distinct) (key : Key)
    (change : Value → Value) : (table.adjust key change).Distinct := by
  unfold Distinct at distinct ⊢
  rw [keys_adjust]
  exact distinct

theorem get?_filter {table : Table Key Value} (distinct : table.Distinct)
    (keep : Key × Value → Bool) (key : Key) :
    get? (List.filter keep table) key =
      (table.get? key).filter fun value => keep (key, value) := by
  cases found : table.get? key with
  | none =>
      rw [Option.filter_none, get?_eq_none_iff]
      intro member
      obtain ⟨pair, inFiltered, isKey⟩ := List.mem_map.mp member
      exact get?_eq_none_iff.mp found
        (List.mem_map.mpr ⟨pair, (List.mem_filter.mp inFiltered).1, isKey⟩)
  | some value =>
      have member := mem_of_get? found
      by_cases kept : keep (key, value) = true
      · rw [Option.filter_some, if_pos kept]
        exact get?_of_mem (distinct.filter keep) (List.mem_filter.mpr ⟨member, kept⟩)
      · rw [Option.filter_some, if_neg kept, get?_eq_none_iff]
        intro inKeys
        obtain ⟨other, present⟩ := mem_keys_iff.mp inKeys
        obtain ⟨inTable, otherKept⟩ := List.mem_filter.mp (mem_of_get? present)
        rw [get?_of_mem distinct inTable] at found
        cases found
        exact kept otherKept

/-! ## Counting values -/

/-- The number of keys that hold a value. -/
def countOf (table : Table Key Value) [DecidableEq Value] (value : Value) : Nat :=
  table.countP fun pair => pair.2 = value

section Counting

variable [DecidableEq Value]

theorem countOf_put_of_none {table : Table Key Value} {key : Key} (added value : Value)
    (fresh : table.get? key = none) :
    (table.put key added).countOf value =
      table.countOf value + if added = value then 1 else 0 := by
  induction table with
  | nil => simp [put, countOf]
  | cons pair rest inductionHypothesis =>
      obtain ⟨held, first⟩ := pair
      by_cases same : held = key
      · simp [get?, same] at fresh
      · rw [get?, if_neg same] at fresh
        have tail := inductionHypothesis fresh
        simp only [countOf] at tail
        simp only [put, if_neg same, countOf, List.countP_cons, tail]
        omega

theorem countOf_put_of_some {table : Table Key Value} {key : Key} {old : Value}
    (added value : Value) (found : table.get? key = some old) :
    (table.put key added).countOf value + (if old = value then 1 else 0) =
      table.countOf value + if added = value then 1 else 0 := by
  induction table with
  | nil => simp at found
  | cons pair rest inductionHypothesis =>
      obtain ⟨held, first⟩ := pair
      by_cases same : held = key
      · rw [get?, if_pos same] at found
        cases found
        simp only [put, if_pos same, countOf, List.countP_cons, decide_eq_true_eq]
        omega
      · rw [get?, if_neg same] at found
        have tail := inductionHypothesis found
        simp only [countOf] at tail
        simp only [put, if_neg same, countOf, List.countP_cons]
        omega

theorem countOf_erase_of_some {table : Table Key Value} {key : Key} {old : Value}
    (distinct : table.Distinct) (value : Value) (found : table.get? key = some old) :
    (table.erase key).countOf value + (if old = value then 1 else 0) = table.countOf value := by
  induction table with
  | nil => simp at found
  | cons pair rest inductionHypothesis =>
      obtain ⟨held, first⟩ := pair
      obtain ⟨fresh, restDistinct⟩ := List.nodup_cons.mp distinct
      by_cases same : held = key
      · rw [get?, if_pos same] at found
        cases found
        have missing : key ∉ keys rest := same ▸ fresh
        rw [erase_cons, if_pos same, erase_of_not_mem missing]
        simp only [countOf, List.countP_cons, decide_eq_true_eq]
      · rw [get?, if_neg same] at found
        have tail := inductionHypothesis restDistinct found
        rw [erase_cons, if_neg same]
        simp only [countOf, List.countP_cons] at tail ⊢
        omega

theorem countOf_pos_of_get? {table : Table Key Value} {key : Key} {value : Value}
    (found : table.get? key = some value) : 0 < table.countOf value :=
  List.countP_pos_iff.mpr ⟨(key, value), mem_of_get? found, by simp⟩

end Counting

theorem sum_put_of_some {table : Table Key Value} {key : Key} {old : Value}
    (found : table.get? key = some old) (added : Value) (size : Value → Nat) :
    ((table.put key added).map fun pair => size pair.2).sum + size old =
      (table.map fun pair => size pair.2).sum + size added := by
  induction table with
  | nil => simp at found
  | cons pair rest inductionHypothesis =>
      obtain ⟨held, first⟩ := pair
      by_cases same : held = key
      · rw [get?, if_pos same] at found
        cases found
        simp only [put, if_pos same, List.map_cons, List.sum_cons]
        omega
      · rw [get?, if_neg same] at found
        have tail := inductionHypothesis found
        simp only [put, if_neg same, List.map_cons, List.sum_cons]
        omega

end Table

end WatchedTree
