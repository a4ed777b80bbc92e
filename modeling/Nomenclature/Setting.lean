import Nomenclature.Fault
import Nomenclature.Text.Blank
import Nomenclature.Text.Integer
import Nomenclature.Value.Table

/-!
# Reading a setting

A setting is accepted in the forms its kind allows and refused with its path otherwise. A boolean
may be written as a word in any case and with blanks around it.
-/

namespace Nomenclature.Setting

def trueWords : List String :=
  ["1", "true", "yes", "on", "y", "t"]

def falseWords : List String :=
  ["0", "false", "no", "off", "n", "f"]

/-- What a word says as a boolean. -/
def booleanWord? (s : String) : Option Bool :=
  let word := String.ofList (Text.lowerChars (Text.trimmed s.toList))
  if word ∈ trueWords then some true
  else if word ∈ falseWords then some false
  else none

def boolean (value : Value) (path : String) : Except Fault Bool :=
  let refused := Except.error (.config (.expected .boolean path))
  match value with
  | .boolean b => .ok b
  | value =>
    match value.asText? with
    | some s =>
      match booleanWord? s with
      | some b => .ok b
      | none => refused
    | none => refused

/-- A setting that is a text. A choice is taken for the text that it is: both count as the same and
are written alike in a canonical text. What is left out is that a name to which a choice is joined
shows it by its title. -/
def text (value : Value) (path : String) : Except Fault String :=
  match value.asText? with
  | some s => .ok s
  | none => .error (.config (.expected .text path))

def list (value : Value) (path : String) : Except Fault (List Value) :=
  match value.asItems? with
  | some items => .ok items
  | none => .error (.config (.expected .list path))

/-- Reads the items of a list from an index on, each at the path of the list and its index. -/
def items {α : Type} (read : Value → String → Except Fault α) (path : String) :
    Nat → List Value → Except Fault (List α)
  | _, [] => .ok []
  | index, item :: rest => do
    let first ← read item (path ++ "." ++ Text.integer index)
    let others ← items read path (index + 1) rest
    return first :: others

end Nomenclature.Setting
