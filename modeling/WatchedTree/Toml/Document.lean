import WatchedTree.Toml.Moment
import WatchedTree.Toml.Number

/-!
TOML documents: tables under headers, tables made by keys with points, arrays of tables, and the
rules by which no table is made twice.

A date or a time is held as a table whose first key is a reserved one. A document may write such a
table itself; either way it is resolved into the text of the moment once the document is read.
-/
namespace WatchedTree

namespace Toml

/-- How a table came about. -/
inductive Origin where
  /-- It lies on the way to a header. -/
  | implied
  /-- By a key with points. -/
  | dotted
  /-- By a header of its own. -/
  | headed
deriving DecidableEq, Repr

/-- What stands under a key of a document that is being read. -/
inductive Item where
  | value (value : Value)
  | table (origin : Origin) (fields : List (Text × Item))
  /-- An array of tables: the tables that are complete, and the last one. -/
  | tables (complete : List Value) (last : List (Text × Item))

/-- The items of a table by key. -/
abbrev Items := Table Text Item

namespace Item

mutual

def toValue : Item → Value
  | value held => held
  | table _ fields => .table (valuesOf fields)
  | tables complete last => .array (complete ++ [.table (valuesOf last)])

/-- The values of all fields. -/
def valuesOf : List (Text × Item) → List (Text × Value)
  | [] => []
  | (key, item) :: others => (key, item.toValue) :: valuesOf others

end

end Item

namespace Items

/-- Puts a value under a key with points. The tables on the way may be made by such keys or lie
on the way to a header; the table of the last name is made by such keys only. -/
def assign (name : Text) (value : Value) : List Text → Items → Option Items
  | [], items =>
    if items.contains name then none else some (items.put name (.value value))
  | step :: path, items =>
    match items.get? step with
    | none =>
      (assign name value path []).map fun inner => items.put step (.table .dotted inner)
    | some (.table origin inner) =>
      if origin = .headed || (path.isEmpty && origin != .dotted) then none
      else (assign name value path inner).map fun inner => items.put step (.table origin inner)
    | some (.tables complete last) =>
      if path.isEmpty then none
      else (assign name value path last).map fun last => items.put step (.tables complete last)
    | some (.value _) => none

/-- Changes the table that a header's names lead to. A table that is missing on the way is
implied, and an array of tables stands for its last one. -/
def change (edit : Items → Option Items) : List Text → Items → Option Items
  | [], items => edit items
  | step :: path, items =>
    match items.get? step with
    | none => (change edit path []).map fun inner => items.put step (.table .implied inner)
    | some (.table origin inner) =>
      (change edit path inner).map fun inner => items.put step (.table origin inner)
    | some (.tables complete last) =>
      (change edit path last).map fun last => items.put step (.tables complete last)
    | some (.value _) => none

/-- Makes the table of a header. One that was only implied so far is taken over, and becomes the last
one. -/
def head (name : Text) (items : Items) : Option Items :=
  match items.get? name with
  | none => some (items.put name (.table .headed []))
  | some (.table .implied inner) => some ((items.erase name).put name (.table .headed inner))
  | some _ => none

/-- Adds a table to an array of tables. -/
def extend (name : Text) (items : Items) : Option Items :=
  match items.get? name with
  | none => some (items.put name (.tables [] []))
  | some (.tables complete last) =>
    some (items.put name (.tables (complete ++ [.table (Item.valuesOf last)]) []))
  | some _ => none

end Items

/-! ## Moments -/

/-- The reserved key of a date or a time. -/
def momentKey : Text := "$__toml_private_datetime".toList

/-- A date or a time, as a table. -/
def ofMoment (moment : Text) : Value := .table [(momentKey, .text moment)]

mutual

/-- Resolves the moments in a value. What follows the reserved key in its table does not count. -/
def resolve? : Value → Option Value
  | .table [] => some (.table [])
  | .table ((key, held) :: others) =>
    if key = momentKey then
      match held with
      | .text words => (moment? .wide words).map .text
      | _ => none
    else match resolve? held, resolveFields? others with
      | some first, some rest => some (.table ((key, first) :: rest))
      | _, _ => none
  | .array items => (resolveItems? items).map .array
  | value => some value

def resolveFields? : List (Text × Value) → Option (List (Text × Value))
  | [] => some []
  | (key, held) :: others =>
    match resolve? held, resolveFields? others with
    | some first, some rest => some ((key, first) :: rest)
    | _, _ => none

def resolveItems? : List Value → Option (List Value)
  | [] => some []
  | item :: others =>
    match resolve? item, resolveItems? others with
    | some first, some rest => some (first :: rest)
    | _, _ => none

end

/-! ## Values -/

/-- Letters of unquoted values. -/
def isBareLetter (letter : Char) : Bool := letter.isAlphanum || "+-._:".toList.contains letter

/-- An unquoted value. A date and a time may have a blank between them. -/
def bare? (text : Text) : Scanned Value :=
  let word := text.takeWhile isBareLetter
  let rest := text.drop word.length
  let alone : Scanned Value := match moment? {} word with
    | some moment => some (ofMoment moment, rest)
    | none => (scalar? word).map fun value => (value, rest)
  match date? word, rest with
  | some (_, []), ' ' :: more =>
    let second := more.takeWhile isBareLetter
    match moment? {} (word ++ ' ' :: second) with
    | some moment => some (ofMoment moment, more.drop second.length)
    | none => alone
  | _, _ => alone

mutual

/-- A value of any kind, with room for so many arrays and tables inside each other. -/
def value? (room : Nat) : Nat → Text → Scanned Value
  | 0, _ => none
  | steps + 1, text =>
    match text with
    | '[' :: rest =>
      if room = 0 then none
      else (elements? (room - 1) steps (skipFill rest)).map fun (items, after) =>
        (.array items, after)
    | '\x7b' :: rest =>
      if room = 0 then none
      else match skipBlanks rest with
        | '\x7d' :: after => some (.table [], after)
        | inner =>
          (pairs? (room - 1) steps [] inner).map fun (items, after) =>
            (.table (Item.valuesOf items), after)
    | '"' :: _ => (quoted? text).map fun (words, after) => (.text words, after)
    | '\'' :: _ => (quoted? text).map fun (words, after) => (.text words, after)
    | _ => bare? text

/-- The elements of an array up to its bracket. There may be a comma after the last one. -/
def elements? (room : Nat) : Nat → Text → Scanned (List Value)
  | 0, _ => none
  | steps + 1, text =>
    match text with
    | ']' :: after => some ([], after)
    | _ =>
      match value? room steps text with
      | none => none
      | some (value, rest) =>
        match skipFill rest with
        | ',' :: more =>
          (elements? room steps (skipFill more)).map fun (values, after) => (value :: values, after)
        | ']' :: after => some ([value], after)
        | _ => none

/-- The pairs of a table on one line up to its brace. There is no comma after the last one. -/
def pairs? (room : Nat) : Nat → Items → Text → Scanned Items
  | 0, _, _ => none
  | steps + 1, items, text =>
    match key? text with
    | some (names, '=' :: rest) =>
      match value? room steps (skipBlanks rest) with
      | none => none
      | some (value, rest) =>
        match Items.assign (names.getLast?.getD []) value names.dropLast items, skipBlanks rest with
        | some added, ',' :: more => pairs? room steps added more
        | some added, '\x7d' :: after => some (added, after)
        | _, _ => none
    | _ => none

end

/-! ## Documents -/

/-- A document that is being read: its items, and the names of the header that holds. -/
structure Reading where
  items : Items := []
  header : List Text := []

namespace Reading

/-- Reads a header: its names, and then the edit that makes its table. -/
def enter (reading : Reading) (names : List Text) (edit : Text → Items → Option Items) :
    Option Reading :=
  (Items.change (edit (names.getLast?.getD [])) names.dropLast reading.items).map fun items =>
    { items, header := names }

def assign (reading : Reading) (names : List Text) (value : Value) : Option Reading :=
  (Items.change (Items.assign (names.getLast?.getD []) value names.dropLast) reading.header
    reading.items).map fun items => { reading with items }

end Reading

/-- Reads one header, or one key and its value, without the end of the line. -/
def statement? (reading : Reading) (text : Text) : Scanned Reading :=
  match text with
  | '[' :: '[' :: rest =>
    match key? rest with
    | some (names, ']' :: ']' :: after) =>
      (reading.enter names Items.extend).map fun reading => (reading, after)
    | _ => none
  | '[' :: rest =>
    match key? rest with
    | some (names, ']' :: after) =>
      (reading.enter names Items.head).map fun reading => (reading, after)
    | _ => none
  | _ =>
    match key? text with
    | some (names, '=' :: rest) =>
      match value? greatestDepth (text.length + 1) (skipBlanks rest) with
      | none => none
      | some (value, after) => (reading.assign names value).map fun reading => (reading, after)
    | _ => none

/-- Reads the statements of a document, each on a line of its own. -/
def statements? : Nat → Reading → Text → Option Reading
  | 0, _, _ => none
  | steps + 1, reading, text =>
    match skipFill text with
    | [] => some reading
    | rest =>
      match statement? reading rest with
      | none => none
      | some (read, after) => (finishLine? after).bind (statements? steps read)

/-- Leaves out the mark of byte order at the front. -/
def skipMark : Text → Text
  | '\ufeff' :: rest => rest
  | text => text

/-- The table that a document stands for, if it keeps to the grammar. -/
def read? (text : Text) : Option ValueTable := do
  let reading ← statements? (text.length + 1) {} (skipMark text)
  match ← resolve? (.table (Item.valuesOf reading.items)) with
  | .table fields => some fields
  | _ => none

end Toml

end WatchedTree
