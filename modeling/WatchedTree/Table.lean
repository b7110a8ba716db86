/-!
Finite maps as lists of pairs, read from the front. `get?_put` and `get?_erase` say what a reader
sees after a write.
-/
namespace WatchedTree

universe u v

/-- A finite map as the list of its pairs; of several pairs with one key the first counts. -/
abbrev Table (Key : Type u) (Value : Type v) := List (Key × Value)

namespace Table

variable {Key : Type u} {Value : Type v} [DecidableEq Key]

/-- The value of the first pair with this key. -/
def get? : Table Key Value → Key → Option Value
  | [], _ => none
  | (held, value) :: rest, key => if held = key then some value else get? rest key

def contains (table : Table Key Value) (key : Key) : Bool := (table.get? key).isSome

def keys (table : Table Key Value) : List Key := table.map Prod.fst

/-- A key keeps its place; a new key goes to the end. -/
def put : Table Key Value → Key → Value → Table Key Value
  | [], key, value => [(key, value)]
  | (held, old) :: rest, key, value =>
    if held = key then (key, value) :: rest else (held, old) :: put rest key value

def erase (table : Table Key Value) (key : Key) : Table Key Value :=
  table.filter fun pair => pair.1 ≠ key

/-- Applies a change to the value of a key, if the key is there. -/
def adjust (table : Table Key Value) (key : Key) (change : Value → Value) : Table Key Value :=
  match table.get? key with
  | none => table
  | some value => table.put key (change value)

@[simp] theorem get?_nil (key : Key) : get? ([] : Table Key Value) key = none := rfl

@[simp] theorem get?_put_self (table : Table Key Value) (key : Key) (value : Value) :
    (table.put key value).get? key = some value := by
  induction table with
  | nil => simp [put, get?]
  | cons pair rest ih =>
    obtain ⟨held, old⟩ := pair
    by_cases same : held = key <;> simp [put, get?, same, ih]

theorem get?_put (table : Table Key Value) (key other : Key) (value : Value) :
    (table.put key value).get? other = if other = key then some value else table.get? other := by
  induction table with
  | nil => by_cases same : key = other <;> simp [put, get?, same, eq_comm]
  | cons pair rest ih =>
    obtain ⟨held, old⟩ := pair
    by_cases same : held = key
    · subst same
      by_cases found : held = other <;> simp [put, get?, found, eq_comm (a := other)]
    · by_cases found : held = other
      · subst found; simp [put, get?, same]
      · simp [put, get?, same, found, ih]

theorem get?_put_of_ne (table : Table Key Value) {key other : Key} (value : Value)
    (different : other ≠ key) : (table.put key value).get? other = table.get? other := by
  simp [get?_put, different]

theorem get?_erase (table : Table Key Value) (key other : Key) :
    (table.erase key).get? other = if other = key then none else table.get? other := by
  induction table with
  | nil => simp [erase]
  | cons pair rest ih =>
    obtain ⟨held, old⟩ := pair
    unfold erase at ih ⊢
    by_cases same : held = key
    · subst same
      rw [List.filter_cons_of_neg (by simp), ih]
      by_cases found : other = held
      · simp [found]
      · simp [get?, found, Ne.symm found]
    · rw [List.filter_cons_of_pos (by simp [same])]
      by_cases found : held = other
      · subst found; simp [get?, same]
      · rw [get?, if_neg found, get?, if_neg found, ih]

@[simp] theorem get?_erase_self (table : Table Key Value) (key : Key) :
    (table.erase key).get? key = none := by
  simp [get?_erase]

end Table

end WatchedTree
