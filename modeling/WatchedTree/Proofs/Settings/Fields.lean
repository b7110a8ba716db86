import WatchedTree.Settings.Source

/-!
# Fields of the settings

The eight fields under one type, what each makes of a value, and how values become settings: the
settings come out exactly if every field converts its own value, and each field is then that
conversion.
-/
namespace WatchedTree

section Outcomes

universe u v w

variable {Fault : Type u} {First : Type v} {Second : Type w}

theorem map_eq_ok_iff {first : Except Fault First} {change : First → Second}
    (injective : change.Injective) {value : First} :
    first.map change = .ok (change value) ↔ first = .ok value := by
  cases first with
  | error fault => simp [Except.map]
  | ok found => simp [Except.map, injective.eq_iff]

theorem exists_of_map_eq_ok {first : Except Fault First} {change : First → Second}
    (mapped : ∃ result, first.map change = .ok result) : ∃ value, first = .ok value := by
  obtain ⟨result, isResult⟩ := mapped
  cases first with
  | error fault => cases isResult
  | ok value => exact ⟨value, rfl⟩

theorem eq_ok_toOption (first : Except Fault First) (isOk : first.isOk = true) (other : First) :
    first = .ok (first.toOption.getD other) := by
  cases first with
  | error fault => cases isOk
  | ok value => rfl

variable {Next : Type v}

theorem bind_eq_ok_iff {first : Except Fault First} {next : First → Except Fault Next}
    {result : Next} :
    (first >>= next) = .ok result ↔ ∃ value, first = .ok value ∧ next value = .ok result := by
  cases first <;> simp [bind, Except.bind]

end Outcomes

/-! ## Fields -/

/-- What a field of the settings holds. -/
inductive Setting where
  | words (text : Text)
  | number (count : Nat)
  | flag (holds : Bool)
deriving DecidableEq, Repr

namespace Setting

/-- The value that a setting is written as. -/
def value : Setting → Value
  | words text => .text text
  | number count => .integer count
  | flag holds => .boolean holds

end Setting

/-- The fields of the settings. -/
inductive SettingsField where
  | connectString
  | sessionTimeout
  | connectionTimeout
  | sendRefreshEvents
  | refreshOnStart
  | sortChildren
  | weakValuesCapacity
  | softValuesCapacity
deriving DecidableEq, Repr

namespace SettingsField

/-- The section that a field belongs to. -/
def which : SettingsField → SettingsSection
  | connectString | sessionTimeout | connectionTimeout => .connection
  | sendRefreshEvents | refreshOnStart | sortChildren | weakValuesCapacity | softValuesCapacity =>
    .cache

/-- The name of a field in its section. -/
def name : SettingsField → Text
  | connectString => "connect_string".toList
  | sessionTimeout => "session_timeout_ms".toList
  | connectionTimeout => "connection_timeout_ms".toList
  | sendRefreshEvents => "send_refresh_events".toList
  | refreshOnStart => "refresh_on_start".toList
  | sortChildren => "sort_children".toList
  | weakValuesCapacity => "weak_values_capacity".toList
  | softValuesCapacity => "soft_values_capacity".toList

/-- The key that a field is reported under. -/
def key (field : SettingsField) : Text := field.which.key ++ '.' :: field.name

/-- What a field makes of a value. -/
def convert (field : SettingsField) (value : Value) : Except SettingsFault Setting :=
  match field with
  | connectString => (Value.toText field.key value).map .words
  | sessionTimeout | connectionTimeout | weakValuesCapacity | softValuesCapacity =>
    (Value.toUnsigned field.key value).map .number
  | sendRefreshEvents | refreshOnStart | sortChildren =>
    (Value.toBoolean field.key value).map .flag

/-- No field takes a table, whatever the table holds. -/
theorem convert_table (field : SettingsField) (fields others : List (Text × Value)) :
    field.convert (.table fields) = field.convert (.table others) := by
  cases field <;> rfl

end SettingsField

/-- Each field of the section is the conversion of its own value. -/
structure ConnectionConfig.Converts (config : ConnectionConfig) (held : SettingsField → Value) :
    Prop where
  connectString : Value.toText SettingsField.connectString.key (held .connectString) =
    .ok config.connectString
  sessionTimeout : Value.toUnsigned SettingsField.sessionTimeout.key (held .sessionTimeout) =
    .ok config.sessionTimeoutMillis
  connectionTimeout :
    Value.toUnsigned SettingsField.connectionTimeout.key (held .connectionTimeout) =
      .ok config.connectionTimeoutMillis

/-- Each field of the section is the conversion of its own value. -/
structure CacheConfig.Converts (config : CacheConfig) (held : SettingsField → Value) : Prop where
  sendRefreshEvents :
    Value.toBoolean SettingsField.sendRefreshEvents.key (held .sendRefreshEvents) =
      .ok config.sendRefreshEvents
  refreshOnStart : Value.toBoolean SettingsField.refreshOnStart.key (held .refreshOnStart) =
    .ok config.refreshOnStart
  sortChildren : Value.toBoolean SettingsField.sortChildren.key (held .sortChildren) =
    .ok config.sortChildren
  weakValuesCapacity :
    Value.toUnsigned SettingsField.weakValuesCapacity.key (held .weakValuesCapacity) =
      .ok config.weakValuesCapacity
  softValuesCapacity :
    Value.toUnsigned SettingsField.softValuesCapacity.key (held .softValuesCapacity) =
      .ok config.softValuesCapacity

namespace Settings

/-- What the settings hold in a field. -/
def get (settings : Settings) : SettingsField → Setting
  | .connectString => .words settings.connection.connectString
  | .sessionTimeout => .number settings.connection.sessionTimeoutMillis
  | .connectionTimeout => .number settings.connection.connectionTimeoutMillis
  | .sendRefreshEvents => .flag settings.cache.sendRefreshEvents
  | .refreshOnStart => .flag settings.cache.refreshOnStart
  | .sortChildren => .flag settings.cache.sortChildren
  | .weakValuesCapacity => .number settings.cache.weakValuesCapacity
  | .softValuesCapacity => .number settings.cache.softValuesCapacity

/-- The conversions of all fields, section by section. -/
theorem forall_convert_iff {held : SettingsField → Value} {settings : Settings} :
    (∀ field : SettingsField, field.convert (held field) = .ok (settings.get field)) ↔
      settings.connection.Converts held ∧ settings.cache.Converts held := by
  constructor
  · intro converts
    have number {first : Except SettingsFault Nat} {value : Nat}
        (converted : first.map Setting.number = .ok (.number value)) : first = .ok value :=
      (map_eq_ok_iff fun _ _ => Setting.number.inj).mp converted
    have flag {first : Except SettingsFault Bool} {value : Bool}
        (converted : first.map Setting.flag = .ok (.flag value)) : first = .ok value :=
      (map_eq_ok_iff fun _ _ => Setting.flag.inj).mp converted
    exact
      ⟨{ connectString :=
            (map_eq_ok_iff fun _ _ => Setting.words.inj).mp (converts .connectString)
         sessionTimeout := number (converts .sessionTimeout)
         connectionTimeout := number (converts .connectionTimeout) },
        { sendRefreshEvents := flag (converts .sendRefreshEvents)
          refreshOnStart := flag (converts .refreshOnStart)
          sortChildren := flag (converts .sortChildren)
          weakValuesCapacity := number (converts .weakValuesCapacity)
          softValuesCapacity := number (converts .softValuesCapacity) }⟩
  · rintro ⟨⟨string, session, connection⟩, ⟨send, start, sort, weak, soft⟩⟩ field
    cases field <;> simp [SettingsField.convert, get, Except.map, *]

/-- If every field converts, the conversions are settings. -/
theorem exists_get_iff {held : SettingsField → Value} :
    (∃ settings : Settings, ∀ field : SettingsField,
        field.convert (held field) = .ok (settings.get field)) ↔
      ∀ field : SettingsField, ∃ setting, field.convert (held field) = .ok setting := by
  constructor
  · rintro ⟨settings, converts⟩ field
    exact ⟨_, converts field⟩
  · intro converts
    obtain ⟨string, isString⟩ := exists_of_map_eq_ok (converts .connectString)
    obtain ⟨session, isSession⟩ := exists_of_map_eq_ok (converts .sessionTimeout)
    obtain ⟨connection, isConnection⟩ := exists_of_map_eq_ok (converts .connectionTimeout)
    obtain ⟨send, isSend⟩ := exists_of_map_eq_ok (converts .sendRefreshEvents)
    obtain ⟨start, isStart⟩ := exists_of_map_eq_ok (converts .refreshOnStart)
    obtain ⟨sort, isSort⟩ := exists_of_map_eq_ok (converts .sortChildren)
    obtain ⟨weak, isWeak⟩ := exists_of_map_eq_ok (converts .weakValuesCapacity)
    obtain ⟨soft, isSoft⟩ := exists_of_map_eq_ok (converts .softValuesCapacity)
    exact ⟨⟨⟨string, session, connection⟩, ⟨send, start, sort, weak, soft⟩⟩,
      forall_convert_iff.mpr
        ⟨⟨isString, isSession, isConnection⟩, isSend, isStart, isSort, isWeak, isSoft⟩⟩

/-- A field takes back what is written of it. -/
theorem convert_value (settings : Settings) (field : SettingsField) :
    field.convert (settings.get field).value = .ok (settings.get field) := by
  cases field <;> rfl

/-- No number is larger than what layering keeps. -/
structure IsLayerable (settings : Settings) : Prop where
  sessionTimeout : settings.connection.sessionTimeoutMillis ≤ SettingsFault.greatestInteger
  connectionTimeout : settings.connection.connectionTimeoutMillis ≤ SettingsFault.greatestInteger
  weakValues : settings.cache.weakValuesCapacity ≤ SettingsFault.greatestInteger
  softValues : settings.cache.softValuesCapacity ≤ SettingsFault.greatestInteger

end Settings

/-! ## Reading values -/

namespace ValueTable

/-- The fields of a section; a section that is no table has none. -/
def sectionFields (values : ValueTable) (which : SettingsSection) : ValueTable :=
  ((Table.get? values which.key).getD .nothing).fields

/-- The value of a field, by its section and its name there. -/
def held? (values : ValueTable) (which : SettingsSection) (name : Text) : Option Value :=
  Table.get? (values.sectionFields which) name

end ValueTable

namespace Value

/-- A field that its section holds is read from there. -/
theorem readField_of_get? {Result : Type} {which : SettingsSection} {value held : Value}
    {name : String} (found : Table.get? value.fields name.toList = some held) (place : Nat)
    (convert : Text → Value → Except SettingsFault Result) (fallback : Result) :
    value.readField which place name convert fallback =
      convert (which.key ++ '.' :: name.toList) held := by
  cases value with
  | table fields =>
      have isHeld : Table.get? fields name.toList = some held := found
      simp only [readField, field?, isHeld]
      rfl
  | _ => simp [fields] at found

end Value

/-- A section that holds one of its fields is there, and is read from the values. -/
theorem exists_section {values : ValueTable} {which : SettingsSection} {name : Text}
    {held : Value} (found : values.held? which name = some held) :
    ∃ value, Table.get? values which.key = some value ∧
      ∀ other, values.held? which other = Table.get? value.fields other := by
  cases isSection : Table.get? values which.key with
  | none => simp [ValueTable.held?, ValueTable.sectionFields, isSection, Value.fields] at found
  | some value =>
      exact ⟨value, rfl, fun other => by
        simp only [ValueTable.held?, ValueTable.sectionFields, isSection, Option.getD_some]⟩

section Sections

variable {value : Value} {held : SettingsField → Value}

theorem ConnectionConfig.ofValue_eq_ok_iff
    (found : ∀ field : SettingsField, field.which = .connection →
      Table.get? value.fields field.name = some (held field)) {result : ConnectionConfig} :
    ofValue value = .ok result ↔ result.Converts held := by
  simp only [ofValue, Value.readField_of_get? (found .connectString rfl),
    Value.readField_of_get? (found .sessionTimeout rfl),
    Value.readField_of_get? (found .connectionTimeout rfl), bind_eq_ok_iff]
  constructor
  · rintro ⟨text, isText, session, isSession, connection, isConnection, equal⟩
    cases equal
    exact ⟨isText, isSession, isConnection⟩
  · rintro ⟨isText, isSession, isConnection⟩
    exact ⟨_, isText, _, isSession, _, isConnection, rfl⟩

theorem CacheConfig.ofValue_eq_ok_iff
    (found : ∀ field : SettingsField, field.which = .cache →
      Table.get? value.fields field.name = some (held field)) {result : CacheConfig} :
    ofValue value = .ok result ↔ result.Converts held := by
  simp only [ofValue, Value.readField_of_get? (found .sendRefreshEvents rfl),
    Value.readField_of_get? (found .refreshOnStart rfl),
    Value.readField_of_get? (found .sortChildren rfl),
    Value.readField_of_get? (found .weakValuesCapacity rfl),
    Value.readField_of_get? (found .softValuesCapacity rfl), bind_eq_ok_iff]
  constructor
  · rintro ⟨send, isSend, start, isStart, sort, isSort, weak, isWeak, soft, isSoft, equal⟩
    cases equal
    exact ⟨isSend, isStart, isSort, isWeak, isSoft⟩
  · rintro ⟨isSend, isStart, isSort, isWeak, isSoft⟩
    exact ⟨_, isSend, _, isStart, _, isSort, _, isWeak, _, isSoft, rfl⟩

end Sections

namespace Settings

/-- Values that hold all fields make settings exactly if each field converts its own value. -/
theorem ofValues_eq_ok_iff {values : ValueTable} {held : SettingsField → Value}
    (found : ∀ field : SettingsField, values.held? field.which field.name = some (held field))
    {result : Settings} :
    ofValues values = .ok result ↔
      ∀ field : SettingsField, field.convert (held field) = .ok (result.get field) := by
  obtain ⟨connection, isConnection, inConnection⟩ := exists_section (found .connectString)
  obtain ⟨cache, isCache, inCache⟩ := exists_section (found .sortChildren)
  have foundConnection : ∀ field : SettingsField, field.which = .connection →
      Table.get? connection.fields field.name = some (held field) := by
    intro field belongs
    rw [← found field, belongs]
    exact (inConnection field.name).symm
  have foundCache : ∀ field : SettingsField, field.which = .cache →
      Table.get? cache.fields field.name = some (held field) := by
    intro field belongs
    rw [← found field, belongs]
    exact (inCache field.name).symm
  simp only [SettingsField.which] at isConnection isCache
  simp only [ofValues, readSection, isConnection, isCache, bind_eq_ok_iff]
  rw [forall_convert_iff, ← ConnectionConfig.ofValue_eq_ok_iff foundConnection,
    ← CacheConfig.ofValue_eq_ok_iff foundCache]
  constructor
  · rintro ⟨connection, connectionRead, cache, cacheRead, equal⟩
    cases equal
    exact ⟨connectionRead, cacheRead⟩
  · rintro ⟨connectionRead, cacheRead⟩
    exact ⟨_, connectionRead, _, cacheRead, rfl⟩

end Settings

end WatchedTree
