import Nomenclature.CaseStyle

/-!
# Functions as configuration values

A naming strategy may be given as a function instead of by name. Such a function is a built-in case
style, a tool from the module of the case styles, or a function of a host module, known by the
module and member where it is found. What a host function computes is the host's business, and so is
how it presents itself in texts.
-/

namespace Nomenclature

structure HostFunction where
  home : String
  member : String
  /-- The text that stands for the function in a rendering. -/
  label : String
  /-- The text that shows the function in a message. -/
  shown : String
  /-- The name of the kind of thing that the function is. -/
  kindName : String
  deriving DecidableEq, Repr

/-- What the module of the case styles offers beside them. -/
inductive CaseTool where
  | capitalize
  | words
  | label
  | resolution
  | loading
  deriving DecidableEq, Repr

inductive Callable where
  | style (style : CaseStyle)
  | tool (tool : CaseTool)
  | host (f : HostFunction)
  deriving DecidableEq, Repr

/-- The module under which the built-in styles are labelled. -/
def builtinModule : String :=
  "visitor_common.casing"

namespace CaseStyle

/-- The function of a style within its module. -/
def functionName : CaseStyle → String
  | pascal => "pascal_case"
  | camel => "camel_case"
  | constant => "constant_case"
  | snake => "snake_case"
  | param => "param_case"
  | dot => "dot_case"
  | path => "path_case"
  | spaced => "no_case"
  | capital => "capital_case"
  | header => "header_case"
  | sentence => "sentence_case"
  | lower => "lower_case"
  | upper => "upper_case"
  | lowerFirst => "lower_case_first"
  | upperFirst => "upper_case_first"
  | keep => "keep"

end CaseStyle

namespace CaseTool

def all : List CaseTool :=
  [capitalize, words, label, resolution, loading]

/-- The function of a tool within the module of the styles. -/
def functionName : CaseTool → String
  | capitalize => "_cap"
  | words => "split_words"
  | label => "strategy_label"
  | resolution => "resolve_strategy"
  | loading => "_import_strategy"

end CaseTool

namespace Callable

/-- The functions of the module of the styles, by their names there. -/
def builtins : List (String × Callable) :=
  (CaseStyle.all.map fun s => (s.functionName, style s)) ++
    CaseTool.all.map fun t => (t.functionName, tool t)

def builtinLabel (functionName : String) : String :=
  builtinModule ++ "#" ++ functionName

/-- The text that stands for a function in a rendering. -/
def label : Callable → String
  | style s => builtinLabel s.functionName
  | tool t => builtinLabel t.functionName
  | host f => f.label

def builtinShown (functionName : String) : String :=
  "<function " ++ functionName ++ ">"

/-- The text that shows a function in a message. -/
def shown : Callable → String
  | style s => builtinShown s.functionName
  | tool t => builtinShown t.functionName
  | host f => f.shown

/-- The kind of every function that is nothing but one. -/
def functionKind : String :=
  "function"

def kindName : Callable → String
  | host f => f.kindName
  | _ => functionKind

end Callable

end Nomenclature
