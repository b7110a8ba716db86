import WatchedTree.Settings.Value

/-!
Layers of settings. A later layer is laid over an earlier one leaf by leaf: tables are merged, and
anything else replaces what was there. Keys are matched in lower case. A key of a layer may be a
path of keys and subscripts.
-/
namespace WatchedTree

/-! ## Paths of keys -/

/-- One step of a path into a value. -/
inductive PathStep where
  | key (name : Text)
  /-- A place in an array; a negative number counts from its end. -/
  | subscript (index : Int)
deriving DecidableEq, Repr

namespace PathStep

/-- Letters, digits, spaces, lines and hyphens of ASCII. -/
def isKeyLetter (letter : Char) : Bool := letter.isAlphanum || " _-".toList.contains letter

/-- A key, and what follows it. -/
def takeKey? (text : Text) : Option (Text × Text) :=
  let name := text.takeWhile isKeyLetter
  if name.isEmpty then none else some (name, text.drop name.length)

def skipBlanks (text : Text) : Text := text.dropWhile fun letter => letter = ' ' || letter = '\t'

/-- A subscript with its closing bracket, and what follows it. -/
def takeSubscript? (text : Text) : Option (Int × Text) :=
  let (negative, rest) := match skipBlanks text with
    | '-' :: rest => (true, rest)
    | rest => (false, rest)
  let digits := rest.takeWhile Char.isDigit
  let number : Int := if negative then -(Text.toNat digits) else Text.toNat digits
  match skipBlanks (rest.drop digits.length), Text.checkInt64 number with
  | ']' :: after, some index => if digits.isEmpty then none else some (index, after)
  | _, _ => none

/-- The steps behind a key: keys after points, and subscripts in brackets. -/
def stepsOf? : Nat → Text → Option (List PathStep)
  | 0, _ => none
  | fuel + 1, text =>
    match text with
    | [] => some []
    | '.' :: rest => do
      let (name, after) ← takeKey? rest
      return .key name :: (← stepsOf? fuel after)
    | '[' :: rest => do
      let (index, after) ← takeSubscript? rest
      return .subscript index :: (← stepsOf? fuel after)
    | _ => none

/-- The path that a text stands for; a text that is no path is a key of its own. -/
def ofText (text : Text) : List PathStep :=
  let path : Option (List PathStep) := do
    let (name, rest) ← takeKey? text
    return .key name :: (← stepsOf? (rest.length + 1) rest)
  path.getD [.key text]

end PathStep

/-! ## Merging -/

namespace Value

/-- The fields of a table; anything else has none. -/
def fields : Value → ValueTable
  | table fields => fields
  | _ => []

/-- The items of an array; anything else has none. -/
def items : Value → List Value
  | array items => items
  | _ => []

end Value

namespace ValueTable

/-- The place of a subscript in an array of some size; none in front of the first. -/
def placeOf (index : Int) (size : Nat) : Option Nat :=
  if 0 ≤ index then some index.toNat
  else if index.natAbs ≤ size then some (size - index.natAbs)
  else none

/-- Fills an array up to a size. -/
def padded (items : List Value) (size : Nat) : List Value :=
  items ++ List.replicate (size - items.length) .nothing

mutual

/-- Lays a value over the one of a key. -/
def overlay (values : ValueTable) (key : Text) : Value → ValueTable
  | .table incoming =>
    let name := Text.lower key
    Table.put values name (overlayEach ((Table.get? values name).getD (.table [])) incoming)
  | value => Table.put values (Text.lower key) value

/-- Lays fields over a value one by one. Without any field the value stays what it is. -/
def overlayEach (target : Value) : List (Text × Value) → Value
  | [] => target
  | (key, value) :: others => overlayEach (.table (overlay target.fields key value)) others

end

/-- Lays a value over the one at the end of a path. Whatever is in the way becomes a table for a key,
and an array for a subscript. Under a key tables are merged; a subscript replaces what was there. -/
def overlayAt (value : Value) : List PathStep → Value → Value
  | [], _ => value
  | [.key name], target => .table (overlay target.fields name value)
  | .key name :: path, target =>
    let name := Text.lower name
    let held := (Table.get? target.fields name).getD .nothing
    .table (Table.put target.fields name (overlayAt value path held))
  | .subscript index :: path, target =>
    match placeOf index target.items.length with
    | none => target
    | some place =>
      let items := padded target.items (place + 1)
      let held := (items[place]?).getD .nothing
      .array (items.set place (overlayAt value path held))

/-- Lays a whole layer over the values. -/
def overlayAll (values layer : ValueTable) : ValueTable :=
  layer.foldl
    (fun result entry => (overlayAt entry.2 (PathStep.ofText entry.1) (.table result)).fields) values

end ValueTable

end WatchedTree
