import Nomenclature.Document
import Nomenclature.Value.Basic

/-!
# Values as messages show them

The text that stands for a value in a message: numbers in full, texts between quotation marks,
containers with their items. A value that is itself a text may also be displayed bare.
-/

namespace Nomenclature

/-- Real numbers in a message. -/
def shownLayout : Decimal.Layout :=
  ⟨-4, 15, 2, "inf", "nan"⟩

def commaSeparated (parts : List String) : String :=
  ", ".intercalate parts

def inBrackets (parts : List String) : String :=
  "[" ++ commaSeparated parts ++ "]"

def inBraces (parts : List String) : String :=
  "\x7b" ++ commaSeparated parts ++ "\x7d"

/-- A tuple of one item keeps its comma. -/
def inParentheses : List String → String
  | [part] => "(" ++ part ++ ",)"
  | parts => "(" ++ commaSeparated parts ++ ")"

def shownBoolean (b : Bool) : String :=
  if b then "True" else "False"

/-- The fields of a built setting, each with its name. -/
def shownFields (title : String) (fields : List (String × String)) : String :=
  title ++ "(" ++ commaSeparated (fields.map fun field => field.1 ++ "=" ++ field.2) ++ ")"

/-- A choice by its enumeration and its title. -/
def shownChoice (c : Choice) : String :=
  c.enumeration ++ "." ++ c.title

namespace Value

mutual

def shown : Value → String
  | .null => "None"
  | .boolean b => shownBoolean b
  | .integer n => Text.integer n
  | .real x => Decimal.text shownLayout x
  | .undefined _ => "nan"
  | .text s => Text.quoted s
  | .bytes bs => Text.quotedBytes bs
  | .list items => inBrackets (shownItems items)
  | .tuple items => inParentheses (shownItems items)
  | .set frozen items =>
    let parts := shownItems items
    if frozen then "frozenset(" ++ (if parts.isEmpty then "" else inBraces parts) ++ ")"
    else if parts.isEmpty then "set()"
    else inBraces parts
  | .mapping frozen entries =>
    let body := inBraces (shownEntries entries)
    if frozen then "mappingproxy(" ++ body ++ ")" else body
  | .choice c => "<" ++ shownChoice c ++ ": " ++ Text.quoted c.tag ++ ">"
  | .callable f => f.shown
  | .node n => n.shown
  | .scalarTypes input output =>
    shownFields "ParsedScalar" (scalarTypesFields.zip [input.shown, output.shown])
  | .fragment name onType definition isExternal importFrom =>
    shownFields "LoadedFragment" (fragmentFields.zip
      [name.shown, onType.shown, definition.shown, isExternal.shown, importFrom.shown])
  | .identifier name kind =>
    shownFields "ImportIdentifier" (identifierFields.zip [name.shown, kind.shown])
  | .fragmentImport baseDir baseOutputDir outputPath identifiers typeImport importPath scope =>
    shownFields "FragmentImport" (fragmentImportFields.zip
      [baseDir.shown, baseOutputDir.shown, outputPath.shown, identifiers.shown, typeImport.shown,
        importPath.shown, scope.shown])
  | .convention typeNames enumValues transformUnderscore =>
    shownFields "NamingConvention" (conventionFields.zip
      [typeNames.shown, enumValues.shown, transformUnderscore.shown])

def shownItems : List Value → List String
  | [] => []
  | item :: rest => item.shown :: shownItems rest

def shownEntries : List (Value × Value) → List String
  | [] => []
  | (key, value) :: rest => (key.shown ++ ": " ++ value.shown) :: shownEntries rest

end

/-- A text and a choice bare, a mapping as if it were not frozen, any other value as it is shown. -/
def displayed : Value → String
  | text s => s
  | choice c => shownChoice c
  | mapping _ entries => (mapping false entries).shown
  | value => value.shown

end Value

namespace Document

mutual

/-- A document as a message shows it. -/
def shown : Document → String
  | .null => "None"
  | .boolean b => shownBoolean b
  | .integer n => Text.integer n
  | .real x => Decimal.text shownLayout x
  | .text s => Text.quoted s
  | .array items => inBrackets (shownItems items)
  | .object members => inBraces (shownMembers members)

def shownItems : List Document → List String
  | [] => []
  | item :: rest => item.shown :: shownItems rest

def shownMembers : List (String × Document) → List String
  | [] => []
  | (key, value) :: rest => (Text.quoted key ++ ": " ++ value.shown) :: shownMembers rest

end

end Document

end Nomenclature
