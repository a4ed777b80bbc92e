import Nomenclature.Configuration.Basic
import Nomenclature.Configuration.Layers
import Nomenclature.Report

/-!
# Resolution

A configuration is resolved from its layers: the layers are merged, strictness and the naming
convention are settled, what no default knows is put aside for plugins, and every other setting is
read in a fixed order, so that of several faults the first in that order is reported. Strict scalars
and a default type that a caller set exclude each other.
-/

namespace Nomenclature

namespace Resolve

/-- The value of a setting, which the defaults have to supply. -/
def setting (merged : Entries) (key : String) : Except Fault Value :=
  match Table.lookup? merged (.text key) with
  | some value => .ok value
  | none => .error (.missingKey (.text key))

def booleanSetting (merged : Entries) (key : String) : Except Fault Bool := do
  Setting.boolean (← setting merged key) key

def textSetting (merged : Entries) (key : String) : Except Fault String := do
  Setting.text (← setting merged key) key

def listSetting (merged : Entries) (key : String) : Except Fault (List Value) := do
  Setting.list (← setting merged key) key

/-- The type of scalars without one, which may not be blank. -/
def defaultScalarType (value : Value) : Except Fault String := do
  let type ← Setting.text value "defaultScalarType"
  if (Text.trimmed type.toList).isEmpty then throw (.config .emptyDefaultScalar)
  return type

def fragmentTyping (value : Value) : Except Fault FragmentTyping :=
  match value.asText?.bind FragmentTyping.ofTag? with
  | some typing => .ok typing
  | none => .error (.config (.invalidTyping value))

/-- What is settled before any other setting is read. -/
structure Settled where
  merged : Entries
  strictScalars : Bool
  convention : Convention

def settle (host : Host) (defaults raw overrides : Value) : Except Fault Settled := do
  let merged ← Layers.merged defaults raw overrides
  let strict ← booleanSetting merged "strictScalars"
  let explicit := Layers.sets raw "defaultScalarType" || Layers.sets overrides "defaultScalarType"
  if strict && explicit then throw (.config .strictWithDefault)
  let convention ← Convention.ofValue host (← setting merged "namingConvention")
  return ⟨merged, strict, convention⟩

/-- The settings that the table of defaults does not know. -/
def extras (defaults : Value) (merged : Entries) : Entries :=
  match defaults.asEntries? with
  | some known => merged.filter fun entry => !Table.hasKey known entry.1
  | none => merged

/-- Reads the settings that are left, in their order. -/
def read (settled : Settled) (extras : Entries) : Except Fault Configuration := do
  let m := settled.merged
  let scalars ← ScalarTable.ofValue (← setting m "scalars")
  let defaultType ← defaultScalarType (← setting m "defaultScalarType")
  let typesPrefix ← textSetting m "typesPrefix"
  let typesSuffix ← textSetting m "typesSuffix"
  let skipTypename ← booleanSetting m "skipTypename"
  let nonOptionalTypename ← booleanSetting m "nonOptionalTypename"
  let omitOperationSuffix ← booleanSetting m "omitOperationSuffix"
  let dedupeOperationSuffix ← booleanSetting m "dedupeOperationSuffix"
  let fragmentVariableSuffix ← textSetting m "fragmentVariableSuffix"
  let fragmentVariablePrefix ← textSetting m "fragmentVariablePrefix"
  let externalFragments ← Setting.items ExternalFragment.ofValue "externalFragments" 0
    (← listSetting m "externalFragments")
  let fragmentImports ← Setting.items FragmentImport.ofValue "fragmentImports" 0
    (← listSetting m "fragmentImports")
  let dedupeFragments ← booleanSetting m "dedupeFragments"
  let allowEnumStringTypes ← booleanSetting m "allowEnumStringTypes"
  let typing ← fragmentTyping (← setting m "inlineFragmentTypes")
  let immutableTypes ← booleanSetting m "immutableTypes"
  let useTypeImports ← booleanSetting m "useTypeImports"
  let globalNamespace ← booleanSetting m "globalNamespace"
  return {
    scalars := scalars
    strictScalars := settled.strictScalars
    defaultScalarType := defaultType
    convention := settled.convention
    typesPrefix := typesPrefix
    typesSuffix := typesSuffix
    addTypename := !skipTypename
    nonOptionalTypename := nonOptionalTypename
    omitOperationSuffix := omitOperationSuffix
    dedupeOperationSuffix := dedupeOperationSuffix
    fragmentVariableSuffix := fragmentVariableSuffix
    fragmentVariablePrefix := fragmentVariablePrefix
    externalFragments := externalFragments
    fragmentImports := fragmentImports
    dedupeFragments := dedupeFragments
    allowEnumStringTypes := allowEnumStringTypes
    fragmentTyping := typing
    immutableTypes := immutableTypes
    useTypeImports := useTypeImports
    globalNamespace := globalNamespace
    extras := Value.freezeEntries extras }

def conventionNote (convention : Convention) : Note :=
  .convention convention.typeNames.label convention.enumValues.label
    convention.transformUnderscore.displayed

/-- Resolves layers of configuration over a table of defaults. -/
def run (host : Host) (defaults raw overrides : Value) : Report Configuration :=
  match settle host defaults raw overrides with
  | .error fault => ⟨[], .error fault⟩
  | .ok settled =>
    let note := conventionNote settled.convention
    let extras := extras defaults settled.merged
    match Value.sorted? (extras.map (·.1)) with
    | none => ⟨[note], .error .unorderedKeys⟩
    | some [] => ⟨[note], read settled extras⟩
    | some keys => ⟨[note, .extraKeys keys], read settled extras⟩

end Resolve

/-- Resolves a raw configuration and overrides over the standard defaults. -/
def Configuration.resolve (host : Host) (raw overrides : Value) : Report Configuration :=
  Resolve.run host (.mapping true Layers.standardDefaults) raw overrides

end Nomenclature
