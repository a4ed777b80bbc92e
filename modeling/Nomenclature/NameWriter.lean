import Nomenclature.Convention

/-!
# Name writers

A writer applies a convention to names. Each category has the function of its strategy, or none
where names are kept. A name goes through the function whole if underscores are transformed; if not,
it is split at underscores, every piece is written on its own, and the underscores are put back.
-/

namespace Nomenclature

structure NameWriter where
  convention : Convention
  typeNames : Option Callable
  enumValues : Option Callable

namespace NameWriter

/-- The function of a strategy, none for the one that keeps names. -/
def function (host : Host) (strategy : Strategy) : Except Fault (Option Callable) :=
  if strategy = Strategy.identity then .ok none else some <$> strategy.resolve host

def ofConvention (host : Host) (convention : Convention) : Except Fault NameWriter := do
  let typeNames ← function host convention.typeNames
  let enumValues ← function host convention.enumValues
  return ⟨convention, typeNames, enumValues⟩

def functionFor (writer : NameWriter) : NameCategory → Option Callable
  | .typeNames => writer.typeNames
  | .enumValues => writer.enumValues

/-- The text of what a function makes of a name. -/
def applied (host : Host) (f : Callable) (s : String) : Except Fault String := do
  let value ← host.apply f s
  return value.displayed

/-- The texts that a function makes of some names, up to the first fault. -/
def appliedEach (host : Host) (f : Callable) : List String → Except Fault (List String)
  | [] => .ok []
  | s :: rest => do
    let first ← applied host f s
    let others ← appliedEach host f rest
    return first :: others

/-- The pieces of a name between underscores. -/
def pieces (s : String) : List String :=
  (s.toList.splitOn '_').map String.ofList

/-- Names with underscores put between them. -/
def underscored (parts : List String) : String :=
  "_".intercalate parts

/-- Writes a name by a function under an underscore policy. -/
def writeText (host : Host) (f : Callable) (transformUnderscore : Bool) (s : String) :
    Except Fault String :=
  if transformUnderscore then applied host f s
  else do
    let parts ← appliedEach host f (pieces s)
    return underscored parts

/-- Writes a name as one of a category; the policy of the convention holds unless another one is
given. -/
def write (host : Host) (writer : NameWriter) (category : NameCategory)
    (name : String) (transformUnderscore : Option Bool) : Except Fault String :=
  match writer.functionFor category with
  | none => .ok name
  | some f =>
    let policy := transformUnderscore.getD writer.convention.transformUnderscore.isTruthy
    writeText host f policy name

/-- Writes the name of a source as one of the category it belongs to. -/
def writeSource (host : Host) (writer : NameWriter) (source : NameSource)
    (transformUnderscore : Option Bool) : Except Fault String :=
  writer.write host source.category source.name transformUnderscore

end NameWriter

end Nomenclature
