/-!
# Syntax tree nodes

The nodes of a query or schema document, as far as names are derived from them: the kind of a
node, its name if that kind carries one, and the operation of an operation definition.

Nodes are made by a library of their own, which also says how a node is shown and when two nodes are
equal. A node brings along what that library says: the name of its class, the text that shows it,
and whatever else tells it from other nodes, as texts that nothing here looks into. Nodes are equal
if they agree in all of it, so equal nodes have one name and are shown alike. Nothing more is taken
for granted about the library.
-/

namespace Nomenclature

inductive Operation where
  | query
  | mutation
  | subscription
  deriving DecidableEq, Repr

namespace Operation

def tag : Operation → String
  | query => "query"
  | mutation => "mutation"
  | subscription => "subscription"

/-- The operation as it ends a derived name. -/
def title : Operation → String
  | query => "Query"
  | mutation => "Mutation"
  | subscription => "Subscription"

end Operation

inductive NodeKind where
  | operationDefinition
  | field
  | argument
  | fragmentSpread
  | fragmentDefinition
  | variableReference
  | directive
  | namedType
  | scalarTypeDefinition
  | objectTypeDefinition
  | fieldDefinition
  | inputValueDefinition
  | interfaceTypeDefinition
  | unionTypeDefinition
  | enumTypeDefinition
  | enumValueDefinition
  | inputObjectTypeDefinition
  | directiveDefinition
  | objectTypeExtension
  | enumTypeExtension
  | document
  | selectionSet
  | inlineFragment
  | variableDefinition
  | intValue
  | stringValue
  | enumValue
  | listValue
  | listType
  | nonNullType
  | schemaDefinition
  | operationTypeDefinition
  | name
  deriving DecidableEq, Repr

namespace NodeKind

def tag : NodeKind → String
  | operationDefinition => "operation_definition"
  | field => "field"
  | argument => "argument"
  | fragmentSpread => "fragment_spread"
  | fragmentDefinition => "fragment_definition"
  | variableReference => "variable"
  | directive => "directive"
  | namedType => "named_type"
  | scalarTypeDefinition => "scalar_type_definition"
  | objectTypeDefinition => "object_type_definition"
  | fieldDefinition => "field_definition"
  | inputValueDefinition => "input_value_definition"
  | interfaceTypeDefinition => "interface_type_definition"
  | unionTypeDefinition => "union_type_definition"
  | enumTypeDefinition => "enum_type_definition"
  | enumValueDefinition => "enum_value_definition"
  | inputObjectTypeDefinition => "input_object_type_definition"
  | directiveDefinition => "directive_definition"
  | objectTypeExtension => "object_type_extension"
  | enumTypeExtension => "enum_type_extension"
  | document => "document"
  | selectionSet => "selection_set"
  | inlineFragment => "inline_fragment"
  | variableDefinition => "variable_definition"
  | intValue => "int_value"
  | stringValue => "string_value"
  | enumValue => "enum_value"
  | listValue => "list_value"
  | listType => "list_type"
  | nonNullType => "non_null_type"
  | schemaDefinition => "schema_definition"
  | operationTypeDefinition => "operation_type_definition"
  | name => "name"

end NodeKind

/-- A node. Its name is absent, present without a text, or present with one. -/
structure Node where
  kind : NodeKind
  label : Option (Option String)
  operation : Option Operation
  /-- The name of the class of the node. -/
  className : String
  /-- The text that shows the node. -/
  shown : String
  /-- The texts of all other parts. -/
  content : List String
  deriving DecidableEq, Repr

namespace Node

/-- The name of a node, empty where it has none. -/
def name (node : Node) : String :=
  match node.label with
  | some (some s) => s
  | _ => ""

def isOperationDefinition (node : Node) : Bool :=
  node.kind = .operationDefinition

end Node

/-- What a name is derived from: a text, a node, or something that has no name. -/
inductive NameSource where
  | text (s : String)
  | node (n : Node)
  | unnamed
  deriving DecidableEq, Repr

/-- The name categories that carry a strategy of their own. -/
inductive NameCategory where
  | typeNames
  | enumValues
  deriving DecidableEq, Repr

namespace NameCategory

def tag : NameCategory → String
  | typeNames => "typeNames"
  | enumValues => "enumValues"

/-- The name of the category, as a message shows it. -/
def title : NameCategory → String
  | typeNames => "TYPE_NAMES"
  | enumValues => "ENUM_VALUES"

end NameCategory

namespace NameSource

def name : NameSource → String
  | text s => s
  | node n => n.name
  | unnamed => ""

/-- Names of enum values are a category of their own, all others are type names. -/
def category : NameSource → NameCategory
  | node n => if n.kind = .enumValueDefinition then .enumValues else .typeNames
  | _ => .typeNames

end NameSource

end Nomenclature
