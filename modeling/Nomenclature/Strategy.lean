import Nomenclature.Host

/-!
# Naming strategies

A strategy says how names are written: by the name of a built-in case style, plain or qualified by
one of two customary modules, by a reference `module#function` to a host module, or by a function
itself. Resolving a strategy yields the function that it stands for, and a function is applied to
one name at a time.
-/

namespace Nomenclature

inductive Strategy where
  | named (name : String)
  | function (f : Callable)
  deriving DecidableEq, Repr

namespace Strategy

/-- The strategy of a category that nothing was said about. -/
def standard : Strategy :=
  named CaseStyle.pascal.name

/-- The strategy that leaves names as they are. -/
def identity : Strategy :=
  named CaseStyle.keep.name

/-- Modules whose functions are the built-in case styles. -/
def styleModules : List String :=
  ["change-case-all", "change-case"]

def toValue : Strategy → Value
  | named name => .text name
  | function f => .callable f

def label : Strategy → String
  | named name => name
  | function f => f.label

/-- A value as a strategy: a function or a text that is not empty. A choice is a text, but no
strategy goes by its tag. -/
def ofValue (value : Value) : Except Fault Strategy :=
  match value with
  | .callable f => .ok (function f)
  | .text name =>
    if name.isEmpty then .error (.config (.invalidConvention value)) else .ok (named name)
  | .choice _ => .error (.config (.unknownStrategy value.displayed))
  | _ => .error (.config (.invalidConvention value))

def style (name shown : String) : Except Fault Callable :=
  match CaseStyle.ofName? name with
  | some style => .ok (.style style)
  | none => .error (.config (.unknownStrategy shown))

/-- The function that a name or reference stands for. -/
def resolveName (host : Host) (name : String) : Except Fault Callable :=
  match name.toList.span (· != '#') with
  | (_, []) => style name name
  | (home, _ :: member) =>
    if home.isEmpty || member.isEmpty then .error (.config (.malformedReference name))
    else if String.ofList home ∈ styleModules then style (String.ofList member) name
    else host.function (String.ofList home) (String.ofList member)

def resolve (host : Host) : Strategy → Except Fault Callable
  | named name => resolveName host name
  | function f => .ok f

/-- The function that a value stands for as a strategy. -/
def resolveValue (host : Host) (value : Value) : Except Fault (Strategy × Callable) := do
  let strategy ← ofValue value
  let f ← strategy.resolve host
  return (strategy, f)

end Strategy

/-- What a function makes of a name. -/
def Host.apply (host : Host) : Callable → String → Except Fault Value
  | .style style, s => .ok (.text (style.write s))
  | .tool tool, s =>
    match tool with
    | .capitalize => .ok (.text (String.ofList (CaseStyle.capitalize s.toList)))
    | .words => .ok (.list ((Word.ofText s).map .text))
    | .label => .ok (.text s)
    | .resolution => do
      let (_, f) ← Strategy.resolveValue host (.text s)
      return .callable f
    | .loading => .error .missingArgument
  | .host f, s => host.call f s

end Nomenclature
