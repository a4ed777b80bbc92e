import Nomenclature.Fault
import Nomenclature.Value.Table

/-!
# Layers of configuration

Settings come in three layers: overrides, the raw configuration, and a table of defaults. The layers
are folded into one table, where the first layer that sets a key decides. A null sets nothing; every
other value does, the empty ones included.
-/

namespace Nomenclature.Layers

/-- The standard table of defaults. -/
def standardDefaults : Entries :=
  [(.text "scalars", .mapping false []),
    (.text "strictScalars", .boolean false),
    (.text "defaultScalarType", .text "any"),
    (.text "namingConvention", .text "pascalCase"),
    (.text "typesPrefix", .text ""),
    (.text "typesSuffix", .text ""),
    (.text "skipTypename", .boolean false),
    (.text "nonOptionalTypename", .boolean false),
    (.text "omitOperationSuffix", .boolean false),
    (.text "dedupeOperationSuffix", .boolean false),
    (.text "fragmentVariableSuffix", .text "FragmentDoc"),
    (.text "fragmentVariablePrefix", .text ""),
    (.text "externalFragments", .list []),
    (.text "fragmentImports", .list []),
    (.text "dedupeFragments", .boolean false),
    (.text "allowEnumStringTypes", .boolean false),
    (.text "inlineFragmentTypes", .text "inline"),
    (.text "immutableTypes", .boolean false),
    (.text "useTypeImports", .boolean false),
    (.text "globalNamespace", .boolean false)]

/-- A layer that counts as false is taken for an empty one. -/
def orEmpty (layer : Value) : Value :=
  if layer.isTruthy then layer else .mapping false []

def entries (layer : Value) : Except Fault Entries :=
  match layer.asEntries? with
  | some entries => .ok entries
  | none => .error (.config (.layerNotMapping layer.kindName))

/-- Takes an entry over unless it is null or its key is known. -/
def take (known : Entries) (entry : Value × Value) : Entries :=
  if entry.2.isNull || Table.hasKey known entry.1 then known else known ++ [entry]

/-- The settings of some layers, the first layer foremost. -/
def union (layers : List Entries) : Entries :=
  layers.foldl (fun known layer => layer.foldl take known) []

/-- The settings that overrides, a raw configuration and defaults come to. -/
def merged (defaults raw overrides : Value) : Except Fault Entries := do
  let first ← entries (orEmpty overrides)
  let second ← entries (orEmpty raw)
  let third ← entries defaults
  return union [first, second, third]

/-- Whether a layer sets a key. -/
def sets (layer : Value) (key : String) : Bool :=
  match (orEmpty layer).asEntries? with
  | some entries => !(Entries.named entries key).isNull
  | none => false

end Nomenclature.Layers
