import Nomenclature.Convention
import Nomenclature.Fragment
import Nomenclature.ScalarTypes
import Nomenclature.Sha256
import Nomenclature.Value.Frozen
import Nomenclature.Value.Document

/-!
# Configurations

A configuration holds every setting of a generation run, read and defaulted, and the settings of
plugins that are not known here. Its fields, as named values, are the one view from which its
equality, its canonical text and its fingerprint are taken.
-/

namespace Nomenclature

structure Configuration where
  scalars : ScalarTable
  strictScalars : Bool
  defaultScalarType : String
  convention : Convention
  typesPrefix : String
  typesSuffix : String
  addTypename : Bool
  nonOptionalTypename : Bool
  omitOperationSuffix : Bool
  dedupeOperationSuffix : Bool
  fragmentVariableSuffix : String
  fragmentVariablePrefix : String
  externalFragments : List ExternalFragment
  fragmentImports : List FragmentImport
  dedupeFragments : Bool
  allowEnumStringTypes : Bool
  fragmentTyping : FragmentTyping
  immutableTypes : Bool
  useTypeImports : Bool
  globalNamespace : Bool
  extras : Entries

namespace Configuration

/-- The fields of a configuration under the names by which they are asked for. -/
def fields (c : Configuration) : List (String × Value) :=
  [("scalars", c.scalars.toValue),
    ("strict_scalars", .boolean c.strictScalars),
    ("default_scalar_type", .text c.defaultScalarType),
    ("naming_convention", c.convention.toValue),
    ("types_prefix", .text c.typesPrefix),
    ("types_suffix", .text c.typesSuffix),
    ("add_typename", .boolean c.addTypename),
    ("non_optional_typename", .boolean c.nonOptionalTypename),
    ("omit_operation_suffix", .boolean c.omitOperationSuffix),
    ("dedupe_operation_suffix", .boolean c.dedupeOperationSuffix),
    ("fragment_variable_suffix", .text c.fragmentVariableSuffix),
    ("fragment_variable_prefix", .text c.fragmentVariablePrefix),
    ("external_fragments", .tuple (c.externalFragments.map ExternalFragment.toValue)),
    ("fragment_imports", .tuple (c.fragmentImports.map FragmentImport.toValue)),
    ("dedupe_fragments", .boolean c.dedupeFragments),
    ("allow_enum_string_types", .boolean c.allowEnumStringTypes),
    ("inline_fragment_types", .typing c.fragmentTyping),
    ("immutable_types", .boolean c.immutableTypes),
    ("use_type_imports", .boolean c.useTypeImports),
    ("global_namespace", .boolean c.globalNamespace),
    ("extras", .mapping true c.extras)]

/-- The setting under the name by which it is asked for. -/
def setting (c : Configuration) (name : String) : Except Fault Value :=
  match c.fields.lookup name with
  | some value => .ok value
  | none => .error .unknownSetting

def document (c : Configuration) : Document :=
  .object (c.fields.map fun field => (field.1, field.2.document))

/-- The canonical text of a configuration. -/
def canonical (c : Configuration) : String :=
  c.document.canonical

/-- The digest of the canonical text, by which configurations are told apart. -/
def fingerprint (c : Configuration) : String :=
  Sha256.hexDigest c.canonical.toUTF8.toList

/-- Equality field by field. -/
def sameAs (c d : Configuration) : Bool :=
  Value.sameItems (c.fields.map (·.2)) (d.fields.map (·.2))

end Configuration

end Nomenclature
