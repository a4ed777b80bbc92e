import Nomenclature.Setting

/-!
# Scalar types

Each scalar has a target type for input positions and one for output positions. The configuration
gives both at once as a text, or either in a mapping, where a side that is not set takes the type of
the other. The built-in scalars have types from the start, which the configuration may replace.
-/

namespace Nomenclature

inductive Direction where
  | input
  | output
  deriving DecidableEq, Repr

namespace Direction

def tag : Direction → String
  | input => "input"
  | output => "output"

def ofTag? (s : String) : Option Direction :=
  if s = input.tag then some input
  else if s = output.tag then some output
  else none

end Direction

structure ScalarTypes where
  input : Value
  output : Value

namespace ScalarTypes

/-- The same type in both positions. -/
def both (type : String) : ScalarTypes :=
  ⟨.text type, .text type⟩

def toward (types : ScalarTypes) : Direction → Value
  | .input => types.input
  | .output => types.output

def toValue (types : ScalarTypes) : Value :=
  .scalarTypes types.input types.output

/-- The types of a mapping, each side that is not set taken from the other. -/
def ofEntries (entries : Entries) (path : String) : Except Fault ScalarTypes := do
  let input := Entries.named entries Direction.input.tag
  let output := Entries.named entries Direction.output.tag
  if input.isNull && output.isNull then
    throw (.config (.incompleteScalar path))
  let input ← Setting.text (input.orElse output) (path ++ ".input")
  let output ← Setting.text (output.orElse (.text input)) (path ++ ".output")
  return ⟨.text input, .text output⟩

def ofValue (value : Value) (path : String) : Except Fault ScalarTypes :=
  match value with
  | .scalarTypes input output => .ok ⟨input, output⟩
  | .mapping _ entries => ofEntries entries path
  | value =>
    match value.asText? with
    | some type => .ok (both type)
    | none => .error (.config (.expected .textOrMapping path))

end ScalarTypes

/-- The types of scalars, by the name of the scalar. -/
abbrev ScalarTable := Table ScalarTypes

namespace ScalarTable

/-- The built-in scalars and the types they have unless the configuration says otherwise. -/
def builtin : ScalarTable :=
  [(.text "ID", .both "string"), (.text "String", .both "string"),
    (.text "Boolean", .both "boolean"), (.text "Int", .both "number"),
    (.text "Float", .both "number")]

/-- Lays configured entries over known ones, up to the first that is refused. -/
def overlay (known : ScalarTable) : Entries → Except Fault ScalarTable
  | [] => .ok known
  | (name, entry) :: rest => do
    let types ← ScalarTypes.ofValue entry ("scalars." ++ name.displayed)
    overlay (Table.put name types known) rest

def ofValue (value : Value) : Except Fault ScalarTable :=
  match value.asEntries? with
  | some entries => overlay builtin entries
  | none => .error (.config (.expected .mapping "scalars"))

def toValue (table : ScalarTable) : Value :=
  .mapping true (table.map fun entry => (entry.1, entry.2.toValue))

end ScalarTable

end Nomenclature
