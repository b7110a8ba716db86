import WatchedTree.Proofs.Settings.Fields
import WatchedTree.Proofs.Table.Keys

/-!
# Layers and the fields they name

An entry of a layer names fields of sections: all of one section by a table, or a single one by a
path of two keys. Laying a layer over values changes these fields and no others, each by the value
it is named with.
-/
namespace WatchedTree

namespace SettingsSection

/-- The section with a name in any case. -/
def named? (name : Text) : Option SettingsSection :=
  if Text.lower name = key .connection then some .connection
  else if Text.lower name = key .cache then some .cache
  else none

theorem key_injective : key.Injective := by
  intro which other same
  cases which <;> cases other <;> first | rfl | (revert same; decide)

theorem lower_of_named? {name : Text} {which : SettingsSection} (named : named? name = some which) :
    Text.lower name = which.key := by
  unfold named? at named
  split at named
  case isTrue isConnection =>
    cases named
    exact isConnection
  case isFalse =>
    split at named
    case isTrue isCache =>
      cases named
      exact isCache
    case isFalse => cases named

theorem lower_ne_of_named? {name : Text} (unnamed : named? name = none) (which : SettingsSection) :
    Text.lower name ≠ which.key := by
  intro same
  have different : key .cache ≠ key .connection := by decide
  cases which <;> simp [named?, same, different] at unnamed

end SettingsSection

/-! ## What an entry names -/

/-- Values by a section and the name of a field in it. -/
abbrev Assignments := Table (SettingsSection × Text) Value

namespace ValueTable

/-- The fields that an entry names, with their values. An entry that leads into a section in another
way has no meaning here; one that leads elsewhere names no field. -/
def assigned? (entry : Text × Value) : Option Assignments :=
  match PathStep.ofText entry.1 with
  | .key first :: path =>
    match SettingsSection.named? first, path, entry.2 with
    | none, _, _ => some []
    | some which, [], .table fields =>
      some (fields.map fun field => ((which, Text.lower field.1), field.2))
    | some which, [.key name], value => some [((which, Text.lower name), value)]
    | _, _, _ => none
  | _ => some []

/-- All fields that a layer names. -/
def assignments (layer : ValueTable) : Assignments :=
  layer.flatMap fun entry => (assigned? entry).getD []

/-- Every entry that leads into a section has a table for it, or a value for one field of it; and no
field is named twice, in whatever case. -/
structure IsPlain (layer : ValueTable) : Prop where
  leads : ∀ entry ∈ layer, (assigned? entry).isSome = true
  once : (assignments layer).Distinct

/-- A text leads to a key first. -/
theorem exists_ofText (text : Text) :
    ∃ first path, PathStep.ofText text = .key first :: path := by
  unfold PathStep.ofText
  cases taken : PathStep.takeKey? text with
  | none => exact ⟨text, [], rfl⟩
  | some pair =>
      cases steps : PathStep.stepsOf? (pair.2.length + 1) pair.2 with
      | none => exact ⟨text, [], by simp [steps]⟩
      | some path => exact ⟨pair.1, path, by simp [steps]⟩

/-! ## Laying one value -/

/-- What is held after a value is laid over what was held. -/
def laid (held : Option Value) : Value → Value
  | .table incoming => overlayEach (held.getD (.table [])) incoming
  | value => value

theorem overlay_eq (values : ValueTable) (key : Text) (value : Value) :
    overlay values key value =
      Table.put values (Text.lower key) (laid (Table.get? values (Text.lower key)) value) := by
  cases value <;> rfl

/-- Lays fields over the fields of a table. -/
def overlayFields (values : ValueTable) (incoming : List (Text × Value)) : ValueTable :=
  incoming.foldl (fun result field => overlay result field.1 field.2) values

/-- Whatever a table with a field is laid over becomes a table. -/
theorem overlayEach_cons (target : Value) (first : Text × Value) (others : List (Text × Value)) :
    overlayEach target (first :: others) =
      .table (overlayFields target.fields (first :: others)) := by
  induction others generalizing target first with
  | nil => rfl
  | cons second others inductionHypothesis =>
      rw [overlayEach, inductionHypothesis]
      rfl

theorem fields_overlayEach (target : Value) (incoming : List (Text × Value)) :
    (overlayEach target incoming).fields = overlayFields target.fields incoming := by
  cases incoming with
  | nil => rfl
  | cons first others =>
      rw [overlayEach_cons]
      rfl

/-- What is held under a name after each value that is laid there. -/
def heldAfter (key : SettingsSection × Text) (held : Option Value) (assigned : Assignments) :
    Option Value :=
  assigned.foldl (fun held pair => if pair.1 = key then some (laid held pair.2) else held) held

theorem get?_overlayFields (values : ValueTable) (incoming : List (Text × Value))
    (which : SettingsSection) (name : Text) :
    Table.get? (overlayFields values incoming) name =
      heldAfter (which, name) (Table.get? values name)
        (incoming.map fun field => ((which, Text.lower field.1), field.2)) := by
  induction incoming generalizing values with
  | nil => rfl
  | cons field others inductionHypothesis =>
      rw [overlayFields, List.foldl_cons, ← overlayFields, inductionHypothesis, overlay_eq,
        Table.get?_put, List.map_cons, heldAfter, heldAfter, List.foldl_cons]
      by_cases same : name = Text.lower field.1
      · simp [same]
      · simp [same, Ne.symm same]

/-! ## Laying one entry -/

/-- A value at the end of a path leaves what is under another key than the first one. -/
theorem get?_overlayAt_of_ne (value : Value) {first key : Text} (path : List PathStep)
    (values : ValueTable) (different : key ≠ Text.lower first) :
    Table.get? (overlayAt value (.key first :: path) (.table values)).fields key =
      Table.get? values key := by
  cases path with
  | nil =>
      rw [overlayAt, Value.fields, Value.fields, overlay_eq]
      exact Table.get?_put_of_ne values _ different
  | cons step path =>
      rw [overlayAt]
      · exact Table.get?_put_of_ne values _ different
      · simp

theorem sectionFields_put (values : ValueTable) (which other : SettingsSection) (value : Value) :
    sectionFields (Table.put values which.key value) other =
      if other = which then value.fields else values.sectionFields other := by
  simp only [sectionFields, Table.get?_put, SettingsSection.key_injective.eq_iff]
  by_cases same : other = which <;> simp [same]

/-- An entry lays fields over those of one section, and the layer names just these. -/
theorem exists_overlayAt_of_assigned? {entry : Text × Value} {assigned : Assignments}
    (isAssigned : assigned? entry = some assigned) (values : ValueTable) :
    ∃ which fields,
      assigned = fields.map (fun field => ((which, Text.lower field.1), field.2)) ∧
      ∀ other,
        sectionFields
          (overlayAt entry.2 (PathStep.ofText entry.1) (.table values)).fields other =
            if other = which then overlayFields (values.sectionFields which) fields
            else values.sectionFields other := by
  obtain ⟨first, path, isPath⟩ := exists_ofText entry.1
  simp only [assigned?, isPath] at isAssigned ⊢
  split at isAssigned
  case h_1 unnamed =>
    -- Elsewhere, no fields are laid over any section.
    cases isAssigned
    refine ⟨.connection, [], rfl, fun other => ?_⟩
    have different := (SettingsSection.lower_ne_of_named? unnamed other).symm
    rw [sectionFields, get?_overlayAt_of_ne _ _ _ different]
    split
    case isTrue same => rw [same]; rfl
    case isFalse => rfl
  case h_2 which fields named isTable =>
    cases isAssigned
    refine ⟨which, fields, rfl, fun other => ?_⟩
    have missingIsEmpty :
        ((Table.get? values which.key).getD (.table [])).fields = values.sectionFields which := by
      unfold sectionFields
      cases Table.get? values which.key <;> rfl
    rw [overlayAt, Value.fields, Value.fields, isTable, overlay_eq,
      SettingsSection.lower_of_named? named, sectionFields_put, laid, fields_overlayEach,
      missingIsEmpty]
  case h_3 which name named =>
    cases isAssigned
    refine ⟨which, [(name, entry.2)], rfl, fun other => ?_⟩
    rw [overlayAt, Value.fields, Value.fields, SettingsSection.lower_of_named? named,
      sectionFields_put]
    · rfl
    · simp
  case h_4 => cases isAssigned

/-! ## Laying a whole layer -/

theorem heldAfter_append (key : SettingsSection × Text) (held : Option Value)
    (assigned others : Assignments) :
    heldAfter key held (assigned ++ others) = heldAfter key (heldAfter key held assigned) others :=
  List.foldl_append

/-- Values under other names change nothing. -/
theorem heldAfter_of_not_mem {key : SettingsSection × Text} {assigned : Assignments}
    (missing : key ∉ assigned.keys) (held : Option Value) : heldAfter key held assigned = held := by
  induction assigned with
  | nil => rfl
  | cons pair others inductionHypothesis =>
      simp only [Table.keys, List.map_cons, List.mem_cons, not_or] at missing
      rw [heldAfter, List.foldl_cons, if_neg (Ne.symm missing.1)]
      exact inductionHypothesis missing.2

/-- If no field is named twice, the one value of a field is laid over what was held. -/
theorem heldAfter_of_distinct {assigned : Assignments} (distinct : assigned.Distinct)
    (key : SettingsSection × Text) (held : Option Value) :
    heldAfter key held assigned =
      match assigned.get? key with
      | none => held
      | some value => some (laid held value) := by
  induction assigned with
  | nil => rfl
  | cons pair others inductionHypothesis =>
      obtain ⟨fresh, othersDistinct⟩ := List.nodup_cons.mp distinct
      by_cases same : pair.1 = key
      · rw [heldAfter, List.foldl_cons, if_pos same, Table.get?, if_pos same]
        exact heldAfter_of_not_mem (same ▸ fresh) _
      · rw [heldAfter, List.foldl_cons, if_neg same, Table.get?, if_neg same]
        exact inductionHypothesis othersDistinct

/-- What a layer names is laid over what was held, one value after the other. -/
theorem held?_overlayAll {layer : ValueTable}
    (leads : ∀ entry ∈ layer, (assigned? entry).isSome = true) (values : ValueTable)
    (which : SettingsSection) (name : Text) :
    held? (overlayAll values layer) which name =
      heldAfter (which, name) (values.held? which name) (assignments layer) := by
  induction layer generalizing values with
  | nil => rfl
  | cons entry others inductionHypothesis =>
      obtain ⟨assigned, isAssigned⟩ :=
        Option.isSome_iff_exists.mp (leads entry List.mem_cons_self)
      obtain ⟨named, fields, areFields, inSections⟩ :=
        exists_overlayAt_of_assigned? isAssigned values
      have afterEntry :
          held? (overlayAt entry.2 (PathStep.ofText entry.1) (.table values)).fields which name =
            heldAfter (which, name) (values.held? which name) assigned := by
        rw [held?, inSections which, areFields]
        by_cases same : which = named
        · rw [if_pos same, same, get?_overlayFields]
          rfl
        · rw [if_neg same, heldAfter_of_not_mem]
          · rfl
          · simp [Table.keys, Ne.symm same]
      rw [overlayAll, List.foldl_cons, ← overlayAll,
        inductionHypothesis fun other member => leads other (List.mem_cons_of_mem _ member),
        afterEntry, assignments, assignments, List.flatMap_cons, isAssigned, Option.getD_some,
        heldAfter_append]

end ValueTable

end WatchedTree
