import Nomenclature.Value.Shown

/-!
# Faults

Everything that can go wrong, each cause with what its message needs. Most causes lie in the
configuration. A scalar without a type is a cause of its own, and so are the failures that a caller
can provoke outside the configuration: a key that is missing, as from a table of defaults; keys that
cannot be put in order; a strategy module named relative to nothing; a function that needs more than
a name; a node without an operation; a place that cannot be edited; a holding or a setting that is
asked for what it lacks; and a host function that fails.
-/

namespace Nomenclature

/-- What should have stood somewhere in the configuration. -/
inductive Expectation where
  | boolean
  | text
  | list
  | mapping
  | textOrMapping
  | namedFragment
  | object
  | identifier
  deriving DecidableEq, Repr

def Expectation.description : Expectation → String
  | boolean => "bool"
  | text => "string"
  | list => "list"
  | mapping => "mapping"
  | textOrMapping => "string or mapping"
  | namedFragment => "fragment with a name"
  | object => "object"
  | identifier => "identifier with kind 'type' or 'document'"

inductive ConfigFault where
  | expected (what : Expectation) (path : String)
  | layerNotMapping (kindName : String)
  | strictWithDefault
  | emptyDefaultScalar
  | incompleteScalar (path : String)
  | unknownConventionKeys (keys : List Value)
  | invalidConvention (value : Value)
  | unknownStrategy (strategy : String)
  | malformedReference (reference : String)
  | unloadableModule (home reason : String)
  | missingMember (reference : String)
  | memberNotCallable (reference : String)
  | invalidTyping (value : Value)
  | invalidDirection (direction : String)
  | notOperationDefinition
  | unknownNameKind (value : Value)

namespace ConfigFault

def message : ConfigFault → String
  | expected what path => "Expected " ++ what.description ++ " at " ++ path
  | layerNotMapping kindName => "Expected mapping for configuration, got " ++ kindName
  | strictWithDefault =>
    "strictScalars and defaultScalarType cannot be combined: " ++
      "strict mode never falls back to a default type"
  | emptyDefaultScalar => "defaultScalarType must not be empty"
  | incompleteScalar path => "Scalar mapping at " ++ path ++ " needs 'input' or 'output'"
  | unknownConventionKeys keys =>
    "Unknown keys " ++ (Value.list keys).shown ++ " at namingConvention"
  | invalidConvention value => "Invalid naming convention: " ++ value.shown
  | unknownStrategy strategy => "Unknown naming convention '" ++ strategy ++ "'"
  | malformedReference reference =>
    "Invalid naming convention reference '" ++ reference ++ "', expected 'module#function'"
  | unloadableModule home reason =>
    "Cannot load naming convention module '" ++ home ++ "': " ++ reason
  | missingMember reference => "Naming convention '" ++ reference ++ "' does not exist"
  | memberNotCallable reference => "Naming convention '" ++ reference ++ "' is not callable"
  | invalidTyping value =>
    "Invalid inlineFragmentTypes '" ++ value.displayed ++ "', expected one of: " ++
      commaSeparated (FragmentTyping.all.map FragmentTyping.tag)
  | invalidDirection direction =>
    "Invalid scalar direction '" ++ direction ++ "', expected 'input' or 'output'"
  | notOperationDefinition => "Operation names can only be derived from operation definitions"
  | unknownNameKind value => "Unknown name kind: " ++ value.shown

end ConfigFault

inductive Fault where
  | config (fault : ConfigFault)
  | unknownScalar (name : String)
  | missingKey (key : Value)
  | unorderedKeys
  | relativeModule
  | missingArgument
  | noOperation
  | indexOutOfRange
  | notContainer
  | notList
  | unusableKey
  | unsuitableHolding
  | unknownSetting
  | host (kind : String)

namespace Fault

/-- The text of a fault that has one. -/
def message? : Fault → Option String
  | config fault => some fault.message
  | unknownScalar name =>
    some ("Unknown scalar type '" ++ name ++
      "'. Please override it using the 'scalars' configuration field!")
  | missingKey key => some key.shown
  | _ => none

end Fault

end Nomenclature
