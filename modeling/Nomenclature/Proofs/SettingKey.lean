import Mathlib.Data.List.Basic
import Nomenclature.Configuration.Resolve
import Nomenclature.Proofs.Layers

/-!
# The keys of a configuration

Twenty keys are read from the merged layers, and each drives one field. Here a key is a datum: its
name, its standard value, the reader of its value and the field that it drives. Every fact about a
resolution that holds key by key is then one statement with one case for each key.
-/

namespace Nomenclature

inductive SettingKey where
  | scalars
  | strictScalars
  | defaultScalarType
  | namingConvention
  | typesPrefix
  | typesSuffix
  | skipTypename
  | nonOptionalTypename
  | omitOperationSuffix
  | dedupeOperationSuffix
  | fragmentVariableSuffix
  | fragmentVariablePrefix
  | externalFragments
  | fragmentImports
  | dedupeFragments
  | allowEnumStringTypes
  | inlineFragmentTypes
  | immutableTypes
  | useTypeImports
  | globalNamespace
  deriving DecidableEq, Repr

namespace SettingKey

def all : List SettingKey :=
  [scalars, strictScalars, defaultScalarType, namingConvention, typesPrefix, typesSuffix,
    skipTypename, nonOptionalTypename, omitOperationSuffix, dedupeOperationSuffix,
    fragmentVariableSuffix, fragmentVariablePrefix, externalFragments, fragmentImports,
    dedupeFragments, allowEnumStringTypes, inlineFragmentTypes, immutableTypes, useTypeImports,
    globalNamespace]

/-- The keys that are read once strictness and the naming convention are settled, in order. -/
def later : List SettingKey :=
  [scalars, defaultScalarType, typesPrefix, typesSuffix, skipTypename, nonOptionalTypename,
    omitOperationSuffix, dedupeOperationSuffix, fragmentVariableSuffix, fragmentVariablePrefix,
    externalFragments, fragmentImports, dedupeFragments, allowEnumStringTypes,
    inlineFragmentTypes, immutableTypes, useTypeImports, globalNamespace]

def name : SettingKey → String
  | scalars => "scalars"
  | strictScalars => "strictScalars"
  | defaultScalarType => "defaultScalarType"
  | namingConvention => "namingConvention"
  | typesPrefix => "typesPrefix"
  | typesSuffix => "typesSuffix"
  | skipTypename => "skipTypename"
  | nonOptionalTypename => "nonOptionalTypename"
  | omitOperationSuffix => "omitOperationSuffix"
  | dedupeOperationSuffix => "dedupeOperationSuffix"
  | fragmentVariableSuffix => "fragmentVariableSuffix"
  | fragmentVariablePrefix => "fragmentVariablePrefix"
  | externalFragments => "externalFragments"
  | fragmentImports => "fragmentImports"
  | dedupeFragments => "dedupeFragments"
  | allowEnumStringTypes => "allowEnumStringTypes"
  | inlineFragmentTypes => "inlineFragmentTypes"
  | immutableTypes => "immutableTypes"
  | useTypeImports => "useTypeImports"
  | globalNamespace => "globalNamespace"

/-- The value of a key in the standard table of defaults. -/
def standard : SettingKey → Value
  | scalars => .mapping false []
  | defaultScalarType => .text "any"
  | namingConvention => .text "pascalCase"
  | typesPrefix | typesSuffix | fragmentVariablePrefix => .text ""
  | fragmentVariableSuffix => .text "FragmentDoc"
  | externalFragments | fragmentImports => .list []
  | inlineFragmentTypes => .text "inline"
  | _ => .boolean false

/-- Reads the value of a key as the value of the field that the key drives. -/
def read (host : Host) (key : SettingKey) (value : Value) : Except Fault Value :=
  match key with
  | scalars => (ScalarTable.ofValue value).map ScalarTable.toValue
  | defaultScalarType => (Resolve.defaultScalarType value).map .text
  | namingConvention => (Convention.ofValue host value).map Convention.toValue
  | typesPrefix | typesSuffix | fragmentVariableSuffix | fragmentVariablePrefix =>
    (Setting.text value key.name).map .text
  | skipTypename => (Setting.boolean value key.name).map fun b => .boolean !b
  | externalFragments => do
    let listed ← Setting.list value key.name
    (Setting.items ExternalFragment.ofValue key.name 0 listed).map fun fragments =>
      .tuple (fragments.map ExternalFragment.toValue)
  | fragmentImports => do
    let listed ← Setting.list value key.name
    (Setting.items FragmentImport.ofValue key.name 0 listed).map fun imports =>
      .tuple (imports.map FragmentImport.toValue)
  | inlineFragmentTypes => (Resolve.fragmentTyping value).map .typing
  | _ => (Setting.boolean value key.name).map .boolean

theorem mem_all (key : SettingKey) : key ∈ all := by
  cases key <;> decide

theorem nodup_all : all.Nodup := by
  decide

theorem name_injective : Function.Injective name := by
  intro first second
  cases first <;> cases second <;> decide

/-- The keys are the two that are settled first, and the later ones. -/
theorem forall_of_later {P : SettingKey → Prop} (hstrict : P strictScalars)
    (hconvention : P namingConvention) (hlater : ∀ key ∈ later, P key) (key : SettingKey) :
    P key := by
  cases key with
  | strictScalars => exact hstrict
  | namingConvention => exact hconvention
  | _ => exact hlater _ (by decide)

theorem standardDefaults_eq :
    Layers.standardDefaults = all.map fun key => (.text key.name, key.standard) := rfl

/-- The standard table of defaults sets each key to its standard value. -/
theorem set?_standardDefaults (key : SettingKey) :
    Layers.set? Layers.standardDefaults (.text key.name) = some key.standard := by
  cases key <;> rfl

theorem hasKey_standardDefaults_iff (name : String) :
    Table.hasKey Layers.standardDefaults (.text name) = true ↔
      name ∈ all.map SettingKey.name := by
  rw [standardDefaults_eq]
  simp [Table.hasKey]

/-- Every standard value is accepted. -/
theorem read_standard (host : Host) (key : SettingKey) :
    ∃ field, key.read host key.standard = .ok field := by
  cases key <;> exact ⟨_, rfl⟩

end SettingKey

namespace Configuration

/-- The field that a key drives. -/
def field (c : Configuration) : SettingKey → Value
  | .scalars => c.scalars.toValue
  | .strictScalars => .boolean c.strictScalars
  | .defaultScalarType => .text c.defaultScalarType
  | .namingConvention => c.convention.toValue
  | .typesPrefix => .text c.typesPrefix
  | .typesSuffix => .text c.typesSuffix
  | .skipTypename => .boolean c.addTypename
  | .nonOptionalTypename => .boolean c.nonOptionalTypename
  | .omitOperationSuffix => .boolean c.omitOperationSuffix
  | .dedupeOperationSuffix => .boolean c.dedupeOperationSuffix
  | .fragmentVariableSuffix => .text c.fragmentVariableSuffix
  | .fragmentVariablePrefix => .text c.fragmentVariablePrefix
  | .externalFragments => .tuple (c.externalFragments.map ExternalFragment.toValue)
  | .fragmentImports => .tuple (c.fragmentImports.map FragmentImport.toValue)
  | .dedupeFragments => .boolean c.dedupeFragments
  | .allowEnumStringTypes => .boolean c.allowEnumStringTypes
  | .inlineFragmentTypes => .typing c.fragmentTyping
  | .immutableTypes => .boolean c.immutableTypes
  | .useTypeImports => .boolean c.useTypeImports
  | .globalNamespace => .boolean c.globalNamespace

/-- The fields of a configuration are those that the keys drive, and the extras. -/
theorem fields_eq (c : Configuration) :
    c.fields.map (·.2) = SettingKey.all.map c.field ++ [.mapping true c.extras] := rfl

end Configuration

theorem ScalarTypes.toValue_injective : Function.Injective ScalarTypes.toValue := by
  rintro ⟨⟩ ⟨⟩ h
  simpa [ScalarTypes.toValue] using h

theorem ScalarTable.toValue_injective : Function.Injective ScalarTable.toValue := by
  intro first second h
  refine List.map_injective_iff.2 ?_ (Value.mapping.inj h).2
  intro entry entry' hentry
  obtain ⟨hkey, htypes⟩ := Prod.mk.inj hentry
  exact Prod.ext hkey (ScalarTypes.toValue_injective htypes)

theorem Strategy.toValue_injective : Function.Injective Strategy.toValue := by
  intro first second h
  cases first <;> cases second <;> simp_all [Strategy.toValue]

theorem Convention.toValue_injective : Function.Injective Convention.toValue := by
  rintro ⟨types, enums, underscore⟩ ⟨types', enums', underscore'⟩ h
  obtain ⟨htypes, henums, rfl⟩ := Value.convention.inj h
  obtain rfl : types = types' := Strategy.toValue_injective htypes
  obtain rfl : enums = enums' := Strategy.toValue_injective henums
  rfl

theorem ExternalFragment.toValue_injective : Function.Injective ExternalFragment.toValue := by
  rintro ⟨⟩ ⟨⟩ h
  simpa [ExternalFragment.toValue] using h

theorem FragmentImport.toValue_injective : Function.Injective FragmentImport.toValue := by
  rintro ⟨⟩ ⟨⟩ h
  simpa [FragmentImport.toValue] using h

/-- A configuration is determined by the fields that the keys drive and by its extras. -/
theorem Configuration.ext_field {c d : Configuration} (hfield : ∀ key, c.field key = d.field key)
    (hextras : c.extras = d.extras) : c = d := by
  have hscalars := ScalarTable.toValue_injective (hfield .scalars)
  have hconvention := Convention.toValue_injective (hfield .namingConvention)
  have hfragments := List.map_injective_iff.2 ExternalFragment.toValue_injective
    (Value.tuple.inj (hfield .externalFragments))
  have himports := List.map_injective_iff.2 FragmentImport.toValue_injective
    (Value.tuple.inj (hfield .fragmentImports))
  cases c
  cases d
  simp only [Configuration.mk.injEq]
  simp only at hscalars hconvention hfragments himports hextras
  refine ⟨hscalars, ?_, ?_, hconvention, ?_, ?_, ?_, ?_, ?_, ?_, ?_, ?_, hfragments, himports,
    ?_, ?_, ?_, ?_, ?_, ?_, hextras⟩
  · exact Value.boolean.inj (hfield .strictScalars)
  · exact Value.text.inj (hfield .defaultScalarType)
  · exact Value.text.inj (hfield .typesPrefix)
  · exact Value.text.inj (hfield .typesSuffix)
  · exact Value.boolean.inj (hfield .skipTypename)
  · exact Value.boolean.inj (hfield .nonOptionalTypename)
  · exact Value.boolean.inj (hfield .omitOperationSuffix)
  · exact Value.boolean.inj (hfield .dedupeOperationSuffix)
  · exact Value.text.inj (hfield .fragmentVariableSuffix)
  · exact Value.text.inj (hfield .fragmentVariablePrefix)
  · exact Value.boolean.inj (hfield .dedupeFragments)
  · exact Value.boolean.inj (hfield .allowEnumStringTypes)
  · exact Choice.typing.inj (Value.choice.inj (hfield .inlineFragmentTypes))
  · exact Value.boolean.inj (hfield .immutableTypes)
  · exact Value.boolean.inj (hfield .useTypeImports)
  · exact Value.boolean.inj (hfield .globalNamespace)

end Nomenclature
