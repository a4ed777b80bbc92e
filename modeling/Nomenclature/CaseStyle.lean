import Nomenclature.Word

/-!
# Case styles

The sixteen built-in ways to write an identifier. Eleven of them work on the words of the
identifier and join them again; five change letters in place, `keep` changing none.
-/

namespace Nomenclature

inductive CaseStyle where
  | pascal
  | camel
  | constant
  | snake
  | param
  | dot
  | path
  | spaced
  | capital
  | header
  | sentence
  | lower
  | upper
  | lowerFirst
  | upperFirst
  | keep
  deriving DecidableEq, Repr

namespace CaseStyle

open Text

def all : List CaseStyle :=
  [pascal, camel, constant, snake, param, dot, path, spaced, capital, header, sentence, lower,
    upper, lowerFirst, upperFirst, keep]

/-- The name under which a configuration selects the style. -/
def name : CaseStyle → String
  | pascal => "pascalCase"
  | camel => "camelCase"
  | constant => "constantCase"
  | snake => "snakeCase"
  | param => "paramCase"
  | dot => "dotCase"
  | path => "pathCase"
  | spaced => "noCase"
  | capital => "capitalCase"
  | header => "headerCase"
  | sentence => "sentenceCase"
  | lower => "lowerCase"
  | upper => "upperCase"
  | lowerFirst => "lowerCaseFirst"
  | upperFirst => "upperCaseFirst"
  | keep => "keep"

def ofName? (s : String) : Option CaseStyle :=
  all.find? fun style => style.name == s

/-- Writes the first character in upper case and leaves the rest. -/
def upperInitial : List Char → List Char
  | [] => []
  | c :: rest => upperChars [c] ++ rest

/-- Writes the first character in lower case and leaves the rest. -/
def lowerInitial : List Char → List Char
  | [] => []
  | c :: rest => lowerChars [c] ++ rest

/-- A word with its first letter in upper case and the others in lower case. -/
def capitalize : List Char → List Char
  | [] => []
  | c :: rest => upperChars [c] ++ lowerChars rest

def apply (style : CaseStyle) (cs : List Char) : List Char :=
  let words := Word.ofChars cs
  let joined (separator : Char) (f : List Char → List Char) := [separator].intercalate (words.map f)
  match style with
  | pascal => (words.map capitalize).flatten
  | camel =>
    match words with
    | [] => []
    | word :: rest => lowerChars word ++ (rest.map capitalize).flatten
  | constant => joined '_' upperChars
  | snake => joined '_' lowerChars
  | param => joined '-' lowerChars
  | dot => joined '.' lowerChars
  | path => joined '/' lowerChars
  | spaced => joined ' ' lowerChars
  | capital => joined ' ' capitalize
  | header => joined '-' capitalize
  | sentence => upperInitial (joined ' ' lowerChars)
  | lower => lowerChars cs
  | upper => upperChars cs
  | lowerFirst => lowerInitial cs
  | upperFirst => upperInitial cs
  | keep => cs

/-- The identifier written in the style. -/
def write (style : CaseStyle) (s : String) : String :=
  String.ofList (style.apply s.toList)

end CaseStyle

end Nomenclature
