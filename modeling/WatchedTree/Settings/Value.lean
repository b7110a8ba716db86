import WatchedTree.Decimal.Literal
import WatchedTree.Decimal.Shortest
import WatchedTree.Settings.Config
import WatchedTree.Table
import WatchedTree.Text.Case

/-!
Values of settings before they have a type, and what a field makes of them. A value of another type
is converted where it has a meaning for the field.
-/
namespace WatchedTree

/-- A value as a source of settings gives it. -/
inductive Value where
  /-- Fills the places of an array in front of the one that was given. -/
  | nothing
  | boolean (value : Bool)
  | integer (value : Int)
  | real (value : Binary64)
  | text (text : Text)
  | array (items : List Value)
  | table (fields : List (Text × Value))

/-- Values by key. -/
abbrev ValueTable := Table Text Value

namespace Value

/-- What is reported if the value has the wrong type. -/
def found : Value → Found
  | nothing => .nothing
  | boolean value => .boolean value
  | integer value => .integer value
  | real value => .real value.describeWithPoint
  | text words => .string words
  | array _ => .array
  | table _ => .table

def wrongType (value : Value) (expected : Expected) (key : Text) : SettingsFault :=
  .wrongType value.found expected key

/-- The words for yes, in lower case. -/
def affirmations : List Text := ["true".toList, "on".toList, "yes".toList]

/-- The words for no, in lower case. -/
def negations : List Text := ["false".toList, "off".toList, "no".toList]

/-- A number without a sign. Yes and no count as 1 and 0, and a real number is rounded into the
range. -/
def toUnsigned (key : Text) (value : Value) : Except SettingsFault Nat :=
  match value with
  | boolean value => .ok value.toNat
  | integer (.ofNat number) => .ok number
  | integer (.negSucc _) => .error (value.wrongType .unsignedInteger key)
  | real number => .ok (number.clamp Text.greatestUInt64)
  | text words =>
    if Text.lower words ∈ affirmations then .ok 1
    else if Text.lower words ∈ negations then .ok 0
    else match Text.uint64? words with
      | some number => .ok number
      | none => .error (value.wrongType .integer key)
  | nothing | array _ | table _ => .error (value.wrongType .integer key)

/-- A truth value. Every number but zero counts as true. A text with another meaning is reported in
lower case. -/
def toBoolean (key : Text) (value : Value) : Except SettingsFault Bool :=
  match value with
  | boolean value => .ok value
  | integer number => .ok (number != 0)
  | real number => .ok !number.isZero
  | text words =>
    let lowered := Text.lower words
    if lowered ∈ ['1'] :: affirmations then .ok true
    else if lowered ∈ ['0'] :: negations then .ok false
    else .error ((text lowered).wrongType .boolean key)
  | nothing | array _ | table _ => .error (value.wrongType .boolean key)

/-- A text; numbers and truth values are written out. -/
def toText (key : Text) (value : Value) : Except SettingsFault Text :=
  match value with
  | boolean value => .ok (Text.ofBool value)
  | integer number => .ok (Text.ofInt number)
  | real number => .ok number.describe
  | text words => .ok words
  | nothing | array _ | table _ => .error (value.wrongType .string key)

/-! ## Sections -/

/-- The value of a field and the key it is reported under: by its name, or by its place where the
section is an array. -/
def field? (which : SettingsSection) (place : Nat) (name : String) (value : Value) :
    Except SettingsFault (Option (Text × Value)) :=
  match value with
  | table fields =>
    .ok ((Table.get? fields name.toList).map fun held => (which.key ++ '.' :: name.toList, held))
  | array items =>
    .ok (items[place]?.map fun held => (which.key ++ '[' :: Text.ofNat place ++ [']'], held))
  | other => .error (.notATable other.found which)

/-- Reads a field; a missing one takes the default. -/
def readField {Result : Type} (which : SettingsSection) (value : Value) (place : Nat)
    (name : String) (convert : Text → Value → Except SettingsFault Result) (fallback : Result) :
    Except SettingsFault Result := do
  match ← value.field? which place name with
  | none => .ok fallback
  | some (key, held) => convert key held

end Value

namespace ConnectionConfig

def ofValue (value : Value) : Except SettingsFault ConnectionConfig := do
  let base : ConnectionConfig := {}
  return {
    connectString :=
      ← value.readField .connection 0 "connect_string" Value.toText base.connectString
    sessionTimeoutMillis :=
      ← value.readField .connection 1 "session_timeout_ms" Value.toUnsigned
        base.sessionTimeoutMillis
    connectionTimeoutMillis :=
      ← value.readField .connection 2 "connection_timeout_ms" Value.toUnsigned
        base.connectionTimeoutMillis }

end ConnectionConfig

namespace CacheConfig

def ofValue (value : Value) : Except SettingsFault CacheConfig := do
  let base : CacheConfig := {}
  return {
    sendRefreshEvents :=
      ← value.readField .cache 0 "send_refresh_events" Value.toBoolean base.sendRefreshEvents
    refreshOnStart :=
      ← value.readField .cache 1 "refresh_on_start" Value.toBoolean base.refreshOnStart
    sortChildren := ← value.readField .cache 2 "sort_children" Value.toBoolean base.sortChildren
    weakValuesCapacity :=
      ← value.readField .cache 3 "weak_values_capacity" Value.toUnsigned base.weakValuesCapacity
    softValuesCapacity :=
      ← value.readField .cache 4 "soft_values_capacity" Value.toUnsigned base.softValuesCapacity }

end CacheConfig

namespace Settings

/-- Reads a section; a missing one takes the default. -/
def readSection {Result : Type} (values : ValueTable) (which : SettingsSection)
    (read : Value → Except SettingsFault Result) (fallback : Result) :
    Except SettingsFault Result :=
  match values.get? which.key with
  | none => .ok fallback
  | some value => read value

/-- Reads the settings; what has no place in them is passed over. -/
def ofValues (values : ValueTable) : Except SettingsFault Settings := do
  return {
    connection := ← readSection values .connection ConnectionConfig.ofValue {}
    cache := ← readSection values .cache CacheConfig.ofValue {} }

/-- A number as a value, if it can be layered. -/
def numberValue (number : Nat) : Except SettingsFault Value :=
  if number ≤ SettingsFault.greatestInteger then .ok (.integer number)
  else .error (.tooLarge number)

/-- Writes the settings as values. -/
def toValues (settings : Settings) : Except SettingsFault ValueTable := do
  let connection := settings.connection
  let cache := settings.cache
  let sessionTimeout ← numberValue connection.sessionTimeoutMillis
  let connectionTimeout ← numberValue connection.connectionTimeoutMillis
  let weakValues ← numberValue cache.weakValuesCapacity
  let softValues ← numberValue cache.softValuesCapacity
  return [
    (SettingsSection.connection.key, .table
      [("connect_string".toList, .text connection.connectString),
        ("session_timeout_ms".toList, sessionTimeout),
        ("connection_timeout_ms".toList, connectionTimeout)]),
    (SettingsSection.cache.key, .table
      [("send_refresh_events".toList, .boolean cache.sendRefreshEvents),
        ("refresh_on_start".toList, .boolean cache.refreshOnStart),
        ("sort_children".toList, .boolean cache.sortChildren),
        ("weak_values_capacity".toList, weakValues),
        ("soft_values_capacity".toList, softValues)])]

end Settings

end WatchedTree
