import Nomenclature.Binary64
import Nomenclature.Callable
import Nomenclature.Choice

/-!
# Configuration values

A configuration arrives as data of any shape: plain data, functions, syntax tree nodes, and settings
that were already built. Nothing is known about a value until it is looked at, so the looks that a
resolution takes are functions here: as a text, as the entries of a mapping, as the items of a list,
and whether it counts as false.

A real number that is undefined equals nothing but itself, so each such value carries the number of
its occurrence. Sets and mappings record whether they were frozen. A built setting holds values of
any kind, since building one checks nothing.

Left out are derived names and whole configurations as data of a plugin, and data of classes that
only a host program knows, members of its own enumerations included.
-/

namespace Nomenclature

inductive Value where
  | null
  | boolean (b : Bool)
  | integer (n : Int)
  | real (x : Binary64)
  | undefined (occurrence : Nat)
  | text (s : String)
  | bytes (bs : List UInt8)
  | list (items : List Value)
  | tuple (items : List Value)
  | set (frozen : Bool) (items : List Value)
  | mapping (frozen : Bool) (entries : List (Value × Value))
  | choice (c : Choice)
  | callable (f : Callable)
  | node (n : Node)
  | scalarTypes (input output : Value)
  | fragment (name onType definition isExternal importFrom : Value)
  | identifier (name kind : Value)
  | fragmentImport
      (baseDir baseOutputDir outputPath identifiers typeImport importPath scope : Value)
  | convention (typeNames enumValues transformUnderscore : Value)

instance : Inhabited Value :=
  ⟨.null⟩

/-- An alternative of fragment typing as a value. -/
@[match_pattern]
abbrev Value.typing (mode : FragmentTyping) : Value :=
  .choice (.typing mode)

/-- The entries of a mapping, in the order in which they were set. -/
abbrev Entries := List (Value × Value)

namespace Value

def isNull : Value → Bool
  | null => true
  | _ => false

/-- The value as a text. A choice is one too. -/
def asText? : Value → Option String
  | text s => some s
  | choice c => some c.tag
  | _ => none

def asEntries? : Value → Option Entries
  | mapping _ entries => some entries
  | _ => none

/-- The value as a sequence: a list or a tuple. -/
def asItems? : Value → Option (List Value)
  | list items => some items
  | tuple items => some items
  | _ => none

def asCallable? : Value → Option Callable
  | callable f => some f
  | _ => none

/-- Whether the value counts as true: null, zero and everything empty do not. -/
def isTruthy : Value → Bool
  | null => false
  | boolean b => b
  | integer n => n != 0
  | real x => !x.isZero
  | text s => !s.isEmpty
  | bytes bs => !bs.isEmpty
  | list items => !items.isEmpty
  | tuple items => !items.isEmpty
  | set _ items => !items.isEmpty
  | mapping _ entries => !entries.isEmpty
  | _ => true

/-- What a value consists of, if its parts have places: the items of a sequence, the characters of a
text, the codes of bytes. -/
def parts? : Value → Option (List Value)
  | text s => some (s.toList.map fun ch => text ch.toString)
  | choice c => some (c.tag.toList.map fun ch => text ch.toString)
  | bytes bs => some (bs.map fun code => integer code.toNat)
  | value => value.asItems?

/-- Whether a value is nothing but one: null, a number, or a plain function. -/
def isPlain : Value → Bool
  | null | boolean _ | integer _ | real _ | undefined _ => true
  | callable f => f.kindName == Callable.functionKind
  | _ => false

/-- The first of two values if it is set, else the second. -/
def orElse (first second : Value) : Value :=
  if first.isNull then second else first

/-- The names of the fields of built settings. -/
def scalarTypesFields : List String :=
  ["input", "output"]

def fragmentFields : List String :=
  ["name", "on_type", "node", "is_external", "import_from"]

def identifierFields : List String :=
  ["name", "kind"]

def fragmentImportFields : List String :=
  ["base_dir", "base_output_dir", "output_path", "identifiers", "type_import", "import_path",
    "namespace"]

def conventionFields : List String :=
  ["type_names", "enum_values", "transform_underscore"]

/-- The fields of a built setting by name. -/
def fields? : Value → Option (List (String × Value))
  | scalarTypes input output => some (scalarTypesFields.zip [input, output])
  | fragment name onType definition isExternal importFrom =>
    some (fragmentFields.zip [name, onType, definition, isExternal, importFrom])
  | identifier name kind => some (identifierFields.zip [name, kind])
  | fragmentImport baseDir baseOutputDir outputPath identifiers typeImport importPath scope =>
    some (fragmentImportFields.zip
      [baseDir, baseOutputDir, outputPath, identifiers, typeImport, importPath, scope])
  | convention typeNames enumValues transformUnderscore =>
    some (conventionFields.zip [typeNames, enumValues, transformUnderscore])
  | _ => none

/-- The name of the kind of a value, as a message shows it. -/
def kindName : Value → String
  | null => "NoneType"
  | boolean _ => "bool"
  | integer _ => "int"
  | real _ | undefined _ => "float"
  | text _ => "str"
  | bytes _ => "bytes"
  | list _ => "list"
  | tuple _ => "tuple"
  | set false _ => "set"
  | set true _ => "frozenset"
  | mapping false _ => "dict"
  | mapping true _ => "mappingproxy"
  | choice c => c.enumeration
  | callable f => f.kindName
  | node n => n.className
  | scalarTypes .. => "ParsedScalar"
  | fragment .. => "LoadedFragment"
  | identifier .. => "ImportIdentifier"
  | fragmentImport .. => "FragmentImport"
  | convention .. => "NamingConvention"

end Value

end Nomenclature
