import Nomenclature.Setting
import Nomenclature.Strategy
import Nomenclature.Value.Order

/-!
# Naming conventions

A convention gives a strategy to each category of names and says whether strategies see underscores.
It is written as one strategy for all categories, as a mapping, or as a convention built before. In
every form both strategies must resolve.
-/

namespace Nomenclature

structure Convention where
  typeNames : Strategy
  enumValues : Strategy
  transformUnderscore : Value

namespace Convention

def toValue (convention : Convention) : Value :=
  .convention convention.typeNames.toValue convention.enumValues.toValue
    convention.transformUnderscore

def strategyOf (convention : Convention) : NameCategory → Strategy
  | .typeNames => convention.typeNames
  | .enumValues => convention.enumValues

def underscoreKey : String :=
  "transformUnderscore"

/-- The keys that a convention may have. -/
def keys : List String :=
  [NameCategory.typeNames.tag, NameCategory.enumValues.tag, underscoreKey]

def isKey (key : Value) : Bool :=
  keys.any fun name => key.sameText name

/-- The convention with these parts, once both strategies resolve. -/
def ofParts (host : Host) (typeNames enumValues transformUnderscore : Value) :
    Except Fault Convention := do
  let (typeNames, _) ← Strategy.resolveValue host typeNames
  let (enumValues, _) ← Strategy.resolveValue host enumValues
  return ⟨typeNames, enumValues, transformUnderscore⟩

/-- The convention that a mapping describes. -/
def ofEntries (host : Host) (entries : Entries) : Except Fault Convention := do
  let unknown := (entries.map (·.1)).filter fun key => !isKey key
  match Value.sorted? unknown with
  | none => throw .unorderedKeys
  | some (key :: rest) => throw (.config (.unknownConventionKeys (key :: rest)))
  | some [] =>
    let strategy (category : NameCategory) :=
      (Entries.named entries category.tag).orElse Strategy.standard.toValue
    let transformUnderscore ← Setting.boolean
      (Entries.getD entries underscoreKey (.boolean false)) ("namingConvention." ++ underscoreKey)
    ofParts host (strategy .typeNames) (strategy .enumValues) (.boolean transformUnderscore)

def ofValue (host : Host) (value : Value) : Except Fault Convention :=
  match value with
  | .convention typeNames enumValues transformUnderscore =>
    ofParts host typeNames enumValues transformUnderscore
  | .mapping _ entries => ofEntries host entries
  | value =>
    if value.asText?.isSome || value.asCallable?.isSome then
      ofParts host value value (.boolean false)
    else .error (.config (.invalidConvention value))

end Convention

end Nomenclature
