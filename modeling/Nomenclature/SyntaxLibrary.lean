import Nomenclature.Node
import Nomenclature.Schema

/-!
# The library of nodes and schemas

Nodes and schemas are made elsewhere: a node brings its class, its text and its content along, and a
schema its type map. This is one way to make them from a description, for running the program on
described nodes and schemas. The classes, the parts that a kind has a place for, and the types that
a schema takes in beside the listed ones are those of the library in common use. No other
definition, and no theorem, depends on any of it.
-/

namespace Nomenclature

/-! ## Nodes -/

namespace NodeKind

def all : List NodeKind :=
  [operationDefinition, field, argument, fragmentSpread, fragmentDefinition, variableReference,
    directive, namedType, scalarTypeDefinition, objectTypeDefinition, fieldDefinition,
    inputValueDefinition, interfaceTypeDefinition, unionTypeDefinition, enumTypeDefinition,
    enumValueDefinition, inputObjectTypeDefinition, directiveDefinition, objectTypeExtension,
    enumTypeExtension, document, selectionSet, inlineFragment, variableDefinition, intValue,
    stringValue, enumValue, listValue, listType, nonNullType, schemaDefinition,
    operationTypeDefinition, name]

def ofTag? (s : String) : Option NodeKind :=
  all.find? fun kind => kind.tag == s

/-- The words of a tag run together, each with a capital. -/
def titleChars : List Char → List Char
  | [] => []
  | '_' :: c :: rest => c.toUpper :: titleChars rest
  | c :: rest => c :: titleChars rest

/-- Whether the kind has a class of its own for nodes that hold constants only. -/
def hasConstantClass : NodeKind → Bool
  | argument | directive | listValue => true
  | _ => false

/-- The class of the nodes of a kind, of two classes the one for constants. -/
def className (kind : NodeKind) : String :=
  (if kind.hasConstantClass then "Const" else "") ++
    String.ofList (titleChars ('_' :: kind.tag.toList)) ++ "Node"

/-- Whether nodes of the kind have a place for a name. -/
def carriesName : NodeKind → Bool
  | document | selectionSet | inlineFragment | variableDefinition | intValue | stringValue
  | enumValue | listValue | listType | nonNullType | schemaDefinition | operationTypeDefinition
  | name => false
  | _ => true

/-- Whether nodes of the kind have a place for an operation. -/
def carriesOperation : NodeKind → Bool
  | operationDefinition | operationTypeDefinition => true
  | _ => false

/-- Whether nodes of the kind have a place for a literal value. -/
def carriesValue : NodeKind → Bool
  | argument | intValue | stringValue | enumValue | name => true
  | _ => false

end NodeKind

/-- A node with those of the given parts that its kind has a place for. It is shown by its class. -/
def Node.ofParts (kind : NodeKind) (label : Option (Option String)) (operation : Option Operation)
    (literal : Option String) : Node where
  kind := kind
  label := if kind.carriesName then label else none
  operation := if kind.carriesOperation then operation else none
  className := kind.className
  shown := kind.className
  content := if kind.carriesValue then literal.toList else []

/-! ## Schemas -/

namespace TypeKind

def tag : TypeKind → String
  | scalar => "scalar"
  | object => "object"
  | interface => "interface"
  | input => "input"
  | enum => "enum"
  | union => "union"

def ofTag? (s : String) : Option TypeKind :=
  [scalar, object, interface, input, enum, union].find? fun kind => kind.tag == s

/-- Whether types of the kind refer to others. -/
def refers : TypeKind → Bool
  | scalar | enum => false
  | _ => true

end TypeKind

/-- A type that a schema lists, or that only others refer to. A declaration refers to declarations
before it and to the built-in scalars. -/
structure Declaration where
  kind : TypeKind
  name : String
  fields : List String
  listed : Bool

namespace TypeMap

/-- The scalars that queries for the schema itself rely on. -/
def introspectionScalars : List String :=
  ["String", "Boolean"]

def builtinScalars : List String :=
  ["String", "Int", "Float", "ID", "Boolean"]

/-- The names that a schema needs. One pass from the last declaration to the first finds them, given
those that later declarations need. -/
def needed (declarations : List Declaration) : List String :=
  declarations.foldr
    (fun declaration later =>
      if (declaration.listed || later.contains declaration.name) && declaration.kind.refers then
        declaration.fields ++ later
      else later)
    []

/-- The type map of a schema that is made of some declarations. -/
def ofDeclarations (declarations : List Declaration) : TypeMap :=
  let names := introspectionScalars ++ needed declarations
  let declared := declarations.filter fun declaration =>
    declaration.listed || names.contains declaration.name
  let builtin := builtinScalars.filter fun name =>
    names.contains name && !declared.any fun declaration => declaration.name == name
  declared.map (fun declaration => (declaration.name, declaration.kind)) ++
    builtin.map fun name => (name, TypeKind.scalar)

end TypeMap

end Nomenclature
