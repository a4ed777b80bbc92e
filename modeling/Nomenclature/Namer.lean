import Nomenclature.Configuration.Resolve
import Nomenclature.NameWriter
import Nomenclature.ScalarPolicy

/-!
# Namers

A namer derives every identifier of a generation run from one configuration. A name is joined with
its own affixes first, converted, and then wrapped in the configured ones. Operations and fragments
end in a suffix, which may be omitted altogether, or left off where the name ends in it already.
-/

namespace Nomenclature

/-- A derived name and what it is used for. -/
structure Name where
  value : String
  use : NameUse

/-- How a name is put together: affixes of its own, whether the configured ones are added, and a
policy and category that replace those which would hold. -/
structure NameOptions where
  useTypesPrefix : Bool
  useTypesSuffix : Bool
  lead : String
  tail : String
  transformUnderscore : Option Bool
  category : Option NameCategory

/-- No affixes of its own, the configured ones added. -/
def NameOptions.standard : NameOptions :=
  ⟨true, true, "", "", none, none⟩

/-- A configuration with what it takes to derive names from it. -/
structure Namer where
  configuration : Configuration
  writer : NameWriter
  policy : ScalarPolicy

namespace Namer

/-- The namer of a configuration, with a scalar policy of its own. -/
def ofConfiguration (host : Host) (c : Configuration) : Except Fault Namer := do
  let writer ← NameWriter.ofConvention host c.convention
  return ⟨c, writer, .ofConfiguration c⟩

/-- The namer with a scalar policy that it shares with others, if there is one to share. -/
def sharing (namer : Namer) (policy : Option ScalarPolicy) : Namer :=
  { namer with policy := policy.getD namer.policy }

def resolve (host : Host) (raw overrides : Value) : Except Fault Namer := do
  let c ← (Configuration.resolve host raw overrides).outcome
  ofConfiguration host c

/-- Whether a text ends in another one, letter case left aside. -/
def endsIn (s ending : String) : Bool :=
  (Text.lowerChars ending.toList).isSuffixOf (Text.lowerChars s.toList)

/-- Whether a text begins with another one, letter case left aside. -/
def beginsWith (s beginning : String) : Bool :=
  (Text.lowerChars beginning.toList).isPrefixOf (Text.lowerChars s.toList)

/-- An identifier put together under some options. -/
def identifier (host : Host) (namer : Namer) (source : NameSource) (options : NameOptions) :
    Except Fault String := do
  let category := options.category.getD source.category
  let joined := options.lead ++ source.name ++ options.tail
  let converted ← namer.writer.write host category joined options.transformUnderscore
  let head := if options.useTypesPrefix then namer.configuration.typesPrefix else ""
  let tail := if options.useTypesSuffix then namer.configuration.typesSuffix else ""
  return head ++ converted ++ tail

/-- The suffix of a name of an operation type. -/
def operationSuffix (namer : Namer) (source : NameSource) (operationType : String) : String :=
  if namer.configuration.omitOperationSuffix then ""
  else if namer.configuration.dedupeOperationSuffix && endsIn source.name operationType then ""
  else operationType

def fragmentWord : String :=
  "fragment"

def fragmentSuffix (namer : Namer) (source : NameSource) : String :=
  namer.operationSuffix source "Fragment"

def fragmentName (host : Host) (namer : Namer) (source : NameSource) : Except Fault String :=
  namer.identifier host source
    { NameOptions.standard with tail := namer.fragmentSuffix source, useTypesPrefix := false }

/-- The suffix of the variable that holds a fragment. Where the name says that it is a fragment
already, a suffix that says so again loses that word. -/
def fragmentVariableSuffix (namer : Namer) (source : NameSource) : String :=
  let suffix := namer.configuration.fragmentVariableSuffix
  if namer.configuration.omitOperationSuffix then ""
  else if namer.configuration.dedupeOperationSuffix && endsIn source.name fragmentWord &&
      beginsWith suffix fragmentWord then
    String.ofList (suffix.toList.drop fragmentWord.length)
  else suffix

/-- The name of the variable that holds the document of a fragment. -/
def fragmentVariableName (host : Host) (namer : Namer) (source : NameSource) :
    Except Fault String :=
  namer.identifier host source
    { NameOptions.standard with
      lead := namer.configuration.fragmentVariablePrefix
      tail := namer.fragmentVariableSuffix source
      useTypesPrefix := false }

/-- The operation of a source that has one. -/
def operation? : NameSource → Option Operation
  | .node n => n.operation
  | _ => none

def operationName (host : Host) (namer : Namer) (source : NameSource) : Except Fault String :=
  match operation? source with
  | none => .error .noOperation
  | some operation =>
    namer.identifier host source
      { NameOptions.standard with tail := namer.operationSuffix source operation.title }

def isOperationDefinition : NameSource → Bool
  | .node n => n.isOperationDefinition
  | _ => false

/-- The name of a source for a use. -/
def name (host : Host) (namer : Namer) (source : NameSource) (use : NameUse) :
    Except Fault Name := do
  let value ←
    match use with
    | .type =>
      namer.identifier host source { NameOptions.standard with category := some .typeNames }
    | .enumValue =>
      namer.identifier host source
        { NameOptions.standard with
          category := some .enumValues
          useTypesPrefix := false
          useTypesSuffix := false }
    | .fragment => namer.fragmentName host source
    | .fragmentVariable => namer.fragmentVariableName host source
    | .operation =>
      if isOperationDefinition source then namer.operationName host source
      else .error (.config .notOperationDefinition)
  return ⟨value, use⟩

/-- The kinds of the nodes among the ancestors of a node. -/
def ancestorKinds (ancestors : List NameSource) : List NodeKind :=
  ancestors.filterMap fun
    | .node n => some n.kind
    | _ => none

/-- The punctuation after a block, none unless a plugin adds it. -/
def closingPunctuation (_ : BlockKind) : String :=
  ""

/-- The output type of every scalar that the configuration maps. -/
def scalars (namer : Namer) : Entries :=
  namer.policy.table

def scalarType (namer : Namer) (name direction : String) : Except Fault Value :=
  namer.policy.typeAt name direction

end Namer

end Nomenclature
