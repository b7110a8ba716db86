import WatchedTree.Proofs.Settings.Overlay

/-!
# Settings as overrides of their fields

A field takes the value of the highest layer that gives it one: the environment, else the file, else
the settings that are laid over. Nothing else has a say in it: neither what lies below that value,
nor any other field. Only a table without fields gives nothing, since there is nothing in it to lay.
-/
namespace WatchedTree

/-! ## Highest values -/

namespace Value

/-- Holds unless the value is a table without fields. -/
def counts : Value → Bool
  | table [] => false
  | _ => true

end Value

namespace SettingsField

/-- The value that a layer gives a field. -/
def given? (field : SettingsField) (layer : ValueTable) : Option Value :=
  (layer.assignments.get? (field.which, field.name)).filter Value.counts

/-- The value of a field in the highest layer that gives it one. -/
def highest (field : SettingsField) (environment file : ValueTable) (settings : Settings) : Value :=
  ((field.given? environment).or (field.given? file)).getD (settings.get field).value

theorem highest_of_some {field : SettingsField} {environment file : ValueTable} {value : Value}
    (given : (field.given? environment).or (field.given? file) = some value)
    (settings : Settings) : field.highest environment file settings = value := by
  rw [highest, given, Option.getD_some]

theorem highest_of_none {field : SettingsField} {environment file : ValueTable}
    (given : (field.given? environment).or (field.given? file) = none) (settings : Settings) :
    field.highest environment file settings = (settings.get field).value := by
  rw [highest, given, Option.getD_none]

end SettingsField

/-- What a field makes of two values laid over each other is what it makes of the upper one, if that
counts. -/
theorem SettingsField.convert_laid (field : SettingsField) (held value : Value) :
    field.convert (ValueTable.laid (some held) value) =
      field.convert (if value.counts then value else held) := by
  cases value with
  | table incoming =>
      cases incoming with
      | nil => rfl
      | cons first others =>
          have isTable :
              ValueTable.laid (some held) (.table (first :: others)) =
                .table (ValueTable.overlayFields held.fields (first :: others)) :=
            ValueTable.overlayEach_cons held first others
          rw [isTable]
          exact field.convert_table _ _
  | _ => rfl

namespace ValueTable

/-- After a plain layer a field holds what converts as the value it is given, or else as the value
it had. -/
theorem exists_held?_overlayAll {layer values : ValueTable} (plain : layer.IsPlain)
    {field : SettingsField} {held : Value}
    (found : values.held? field.which field.name = some held) :
    ∃ after, (overlayAll values layer).held? field.which field.name = some after ∧
      field.convert after = field.convert ((field.given? layer).getD held) := by
  rw [held?_overlayAll plain.leads, heldAfter_of_distinct plain.once, found]
  unfold SettingsField.given?
  cases layer.assignments.get? (field.which, field.name) with
  | none => exact ⟨held, rfl, rfl⟩
  | some value =>
      refine ⟨laid (some held) value, rfl, ?_⟩
      rw [field.convert_laid, Option.filter_some]
      cases value.counts <;> rfl

end ValueTable

/-! ## The layer below -/

theorem SettingsSection.ofText_key (which : SettingsSection) :
    PathStep.ofText which.key = [.key which.key] := by
  cases which <;> decide +kernel

theorem SettingsSection.named?_key (which : SettingsSection) : named? which.key = some which := by
  cases which <;> decide +kernel

namespace SettingsField

/-- All fields, section by section. -/
def all : List SettingsField :=
  [connectString, sessionTimeout, connectionTimeout, sendRefreshEvents, refreshOnStart,
    sortChildren, weakValuesCapacity, softValuesCapacity]

theorem mem_all (field : SettingsField) : field ∈ all := by
  cases field <;> decide

theorem lower_name (field : SettingsField) : Text.lower field.name = field.name := by
  have lowered : ∀ field ∈ all, Text.lower field.name = field.name := by decide +kernel
  exact lowered field field.mem_all

end SettingsField

namespace Settings

/-- The values that settings are written as, if they can be layered. -/
def written (settings : Settings) : ValueTable :=
  [SettingsSection.connection, .cache].map fun which =>
    (which.key, .table
      ((SettingsField.all.filter fun field => field.which = which).map fun field =>
        (field.name, (settings.get field).value)))

theorem toValues_eq_written {settings : Settings} (layerable : settings.IsLayerable) :
    settings.toValues = .ok settings.written := by
  simp only [toValues, numberValue, if_pos layerable.sessionTimeout,
    if_pos layerable.connectionTimeout, if_pos layerable.weakValues, if_pos layerable.softValues]
  rfl

/-- A section that is written names the fields that are written in it. -/
theorem assigned?_written (settings : Settings) (which : SettingsSection)
    (fields : List SettingsField) :
    ValueTable.assigned?
        (which.key, .table (fields.map fun field => (field.name, (settings.get field).value))) =
      some (fields.map fun field => ((which, field.name), (settings.get field).value)) := by
  simp only [ValueTable.assigned?, which.ofText_key, which.named?_key, List.map_map,
    Function.comp_def, SettingsField.lower_name]

/-- Written settings name every field once. -/
theorem assignments_written (settings : Settings) :
    settings.written.assignments =
      SettingsField.all.map fun field =>
        ((field.which, field.name), (settings.get field).value) := by
  simp only [ValueTable.assignments, written, List.map_cons, List.map_nil, List.flatMap_cons,
    List.flatMap_nil, assigned?_written, Option.getD_some]
  rfl

theorem isPlain_written (settings : Settings) : settings.written.IsPlain where
  leads := by
    simp only [written, List.mem_map]
    rintro entry ⟨which, -, rfl⟩
    rw [assigned?_written, Option.isSome_some]
  once := by
    rw [assignments_written, Table.Distinct, Table.keys, List.map_map]
    change (SettingsField.all.map fun field => (field.which, field.name)).Nodup
    decide +kernel

/-- Written settings, laid over nothing, hold what each field is. -/
theorem held?_written (settings : Settings) (field : SettingsField) :
    (ValueTable.overlayAll [] settings.written).held? field.which field.name =
      some (settings.get field).value := by
  have plain := settings.isPlain_written
  have member : ((field.which, field.name), (settings.get field).value) ∈
      settings.written.assignments := by
    rw [assignments_written]
    exact List.mem_map_of_mem field.mem_all
  rw [ValueTable.held?_overlayAll plain.leads, ValueTable.heldAfter_of_distinct plain.once,
    Table.get?_of_mem plain.once member]
  cases field <;> rfl

end Settings

/-! ## All layers -/

/-- Under a file and the environment a field holds what converts as the value of its highest
layer. -/
theorem Settings.exists_held? {environment file : ValueTable}
    (plainEnvironment : environment.IsPlain) (plainFile : file.IsPlain) (settings : Settings)
    (field : SettingsField) :
    ∃ after,
      (ValueTable.overlayAll
        (ValueTable.overlayAll (ValueTable.overlayAll [] settings.written) file)
        environment).held? field.which field.name = some after ∧
      field.convert after = field.convert (field.highest environment file settings) := by
  obtain ⟨middle, isMiddle, middleConverts⟩ :=
    ValueTable.exists_held?_overlayAll plainFile (settings.held?_written field)
  obtain ⟨after, isAfter, afterConverts⟩ :=
    ValueTable.exists_held?_overlayAll plainEnvironment isMiddle
  refine ⟨after, isAfter, afterConverts.trans ?_⟩
  unfold SettingsField.highest
  cases field.given? environment with
  | none => exact middleConverts
  | some value => rfl

/-- The layer of a file, if there is one. -/
def Surroundings.layerOf (surroundings : Surroundings) :
    Option FilePath → Except SettingsFault ValueTable
  | none => .ok []
  | some path => surroundings.fileLayer path

/-- An answer is what the fields make of the values in their highest layers. -/
structure IsByField (environment file : ValueTable) (settings : Settings)
    (answer : Except SettingsFault Settings) : Prop where
  /-- There are settings exactly if every field converts its value. -/
  succeeds : (∃ result, answer = .ok result) ↔ ∀ field : SettingsField, ∃ setting,
    field.convert (field.highest environment file settings) = .ok setting
  /-- Each field of them is that conversion. -/
  converts : ∀ result, answer = .ok result ↔ ∀ field : SettingsField,
    field.convert (field.highest environment file settings) = .ok (result.get field)

namespace Settings

section Layers

variable {surroundings : Surroundings} (plainEnvironment : surroundings.environment.layer.IsPlain)
variable {file : ValueTable} (plainFile : file.IsPlain)
variable {path : Option FilePath} (isFile : surroundings.layerOf path = .ok file)
include plainEnvironment plainFile isFile

theorem layered_eq_ok_iff {settings : Settings} (layerable : settings.IsLayerable)
    {result : Settings} :
    settings.layered surroundings path = .ok result ↔ ∀ field : SettingsField,
      field.convert (field.highest surroundings.environment.layer file settings) =
        .ok (result.get field) := by
  have isRead : settings.layered surroundings path =
      ofValues (ValueTable.overlayAll
        (ValueTable.overlayAll (ValueTable.overlayAll [] settings.written) file)
        surroundings.environment.layer) := by
    unfold layered
    rw [toValues_eq_written layerable]
    cases path with
    | none =>
        cases isFile
        rfl
    | some path =>
        have isFile : surroundings.fileLayer path = .ok file := isFile
        simp only [isFile]
        rfl
  have held := fun field => exists_held? plainEnvironment plainFile settings field
  choose after found same using held
  rw [isRead, ofValues_eq_ok_iff found]
  exact forall_congr' fun field => by rw [same field]

theorem isByField_layered {settings : Settings} (layerable : settings.IsLayerable) :
    IsByField surroundings.environment.layer file settings
      (settings.layered surroundings path) where
  succeeds := by
    simp only [layered_eq_ok_iff plainEnvironment plainFile isFile layerable]
    exact exists_get_iff
  converts := fun _ => layered_eq_ok_iff plainEnvironment plainFile isFile layerable

/-- The same layers over a result give it back. -/
theorem layered_again {settings result : Settings} (layerable : settings.IsLayerable)
    (isResult : settings.layered surroundings path = .ok result)
    (resultLayerable : result.IsLayerable) :
    result.layered surroundings path = .ok result := by
  rw [layered_eq_ok_iff plainEnvironment plainFile isFile layerable] at isResult
  rw [layered_eq_ok_iff plainEnvironment plainFile isFile resultLayerable]
  intro field
  cases given :
      (field.given? surroundings.environment.layer).or (field.given? file) with
  | none =>
      rw [SettingsField.highest_of_none given]
      exact result.convert_value field
  | some value =>
      rw [SettingsField.highest_of_some given, ← isResult field,
        SettingsField.highest_of_some given]

end Layers

theorem isLayerable_default : IsLayerable {} := by
  constructor <;> decide

end Settings

/-- Overriding settings by a file and the environment, and loading them over the defaults, both go
field by field; and an override has nothing left to do on its own result. -/
structure OverridesByField (surroundings : Surroundings) : Prop where
  withFile : ∀ (settings : Settings) path file, settings.IsLayerable →
    surroundings.fileLayer path = .ok file → file.IsPlain →
    IsByField surroundings.environment.layer file settings (settings.withFile surroundings path)
  load : ∀ file,
    surroundings.layerOf (surroundings.environment.get? Environment.fileVariable) = .ok file →
    file.IsPlain → IsByField surroundings.environment.layer file {} (Settings.load surroundings)
  again : ∀ (settings result : Settings) path file, settings.IsLayerable →
    surroundings.fileLayer path = .ok file → file.IsPlain →
    settings.withFile surroundings path = .ok result → result.IsLayerable →
    result.withFile surroundings path = .ok result

theorem overrides_by_field {surroundings : Surroundings}
    (plain : surroundings.environment.layer.IsPlain) : OverridesByField surroundings where
  withFile _ path file layerable isFile plainFile :=
    have isFile : surroundings.layerOf (some path) = .ok file := isFile
    Settings.isByField_layered plain plainFile isFile layerable
  load _ isFile plainFile :=
    Settings.isByField_layered plain plainFile isFile Settings.isLayerable_default
  again _ _ path file layerable isFile plainFile isResult resultLayerable :=
    have isFile : surroundings.layerOf (some path) = .ok file := isFile
    Settings.layered_again plain plainFile isFile layerable isResult resultLayerable

/-- An array in the place of a number, under a variable that names the same field. -/
def shadowed : Surroundings where
  environment := [("CURATOR__CONNECTION__SESSION_TIMEOUT_MS".toList, "3000".toList)]
  files := [("/o.toml".toList,
    "[connection]\nsession_timeout_ms = []\nconnection_timeout_ms = 2000\n".toList)]

theorem overrides_by_field_of_shadowed :
    shadowed.environment.layer.IsPlain ∧
      ∃ file, shadowed.fileLayer "/o.toml".toList = .ok file ∧ file.IsPlain ∧
        Settings.withFile {} shadowed "/o.toml".toList =
          .ok { connection :=
            { sessionTimeoutMillis := 3000, connectionTimeoutMillis := 2000 } } := by
  let file : ValueTable := (shadowed.fileLayer "/o.toml".toList).toOption.getD []
  have isFile : shadowed.fileLayer "/o.toml".toList = .ok file :=
    eq_ok_toOption _ (by decide +kernel) []
  have plainFile : file.IsPlain := ⟨by decide +kernel, by unfold Table.Distinct; decide +kernel⟩
  have plain : shadowed.environment.layer.IsPlain :=
    ⟨by decide +kernel, by unfold Table.Distinct; decide +kernel⟩
  have converts : ∀ field ∈ SettingsField.all,
      field.convert (field.highest shadowed.environment.layer file {}) =
        .ok (Settings.get
          { connection := { sessionTimeoutMillis := 3000, connectionTimeoutMillis := 2000 } }
          field) := by
    decide +kernel
  have byField :=
    (overrides_by_field plain).withFile {} _ file Settings.isLayerable_default isFile plainFile
  exact ⟨plain, file, isFile, plainFile,
    (byField.converts _).mpr fun field => converts field field.mem_all⟩

/-- A table without fields in the place of a number. -/
def emptyTable : Surroundings where
  files := [("/o.toml".toList, "[connection]\nsession_timeout_ms = \x7b\x7d\n".toList)]

/-- A key that leads to a place in a section. -/
def subscript : Surroundings where
  files := [("/o.toml".toList, "\"connection[0]\" = \"x\"\n".toList)]

/-- A table without fields is no number, and yet it does no harm. A key of a file is a path, and may
take the place of a section that the file does not have under its name. -/
theorem withFile_emptyTable_and_subscript :
    ((emptyTable.fileLayer "/o.toml".toList).toOption.map fun file =>
        (file.keys, (file.assignments.get? (.connection, SettingsField.sessionTimeout.name)).map
          SettingsField.sessionTimeout.convert)) =
      some (["connection".toList],
        some (.error (.wrongType .table .integer SettingsField.sessionTimeout.key))) ∧
    Settings.withFile {} emptyTable "/o.toml".toList = .ok {} ∧
    ((subscript.fileLayer "/o.toml".toList).toOption.map fun file => file.keys) =
      some ["connection[0]".toList] ∧
    Settings.withFile { connection := { sessionTimeoutMillis := 5 } } subscript
        "/o.toml".toList =
      .ok { connection := { connectString := ['x'] } } := by
  refine ⟨?_, ?_, ?_, ?_⟩ <;> decide +kernel

end WatchedTree
