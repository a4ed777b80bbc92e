import Nomenclature.Sorting.Insertion
import Nomenclature.Value.Shown

/-!
# Values as documents

Every value has a document, the plain data behind its canonical text. Sequences become arrays, a set
becomes the array of its items in the order of the texts that show them, and a mapping becomes an
object whose keys are displayed; where two keys are displayed alike the later one counts. A built
setting is the object of its fields, a function its label, and bytes and nodes are the texts that
show them.
-/

namespace Nomenclature

/-- The number that is none. -/
def Binary64.nan : Binary64 :=
  ⟨0x7FF8000000000000⟩

namespace Value

mutual

def document : Value → Document
  | .null => .null
  | .boolean b => .boolean b
  | .integer n => .integer n
  | .real x => .real x
  | .undefined _ => .real .nan
  | .text s => .text s
  | .bytes bs => .text (Text.quotedBytes bs)
  | .list items => .array (documentItems items)
  | .tuple items => .array (documentItems items)
  | .set _ items =>
    .array (sortedBy (fun a b => decide (a.shown ≤ b.shown)) (documentItems items))
  | .mapping _ entries => .ofMembers (documentEntries entries)
  | .choice c => .text c.tag
  | .callable f => .text f.label
  | .node n => .text n.shown
  | .scalarTypes input output => .object (scalarTypesFields.zip [input.document, output.document])
  | .fragment name onType definition isExternal importFrom =>
    .object (fragmentFields.zip
      [name.document, onType.document, definition.document, isExternal.document,
        importFrom.document])
  | .identifier name kind => .object (identifierFields.zip [name.document, kind.document])
  | .fragmentImport baseDir baseOutputDir outputPath identifiers typeImport importPath scope =>
    .object (fragmentImportFields.zip
      [baseDir.document, baseOutputDir.document, outputPath.document, identifiers.document,
        typeImport.document, importPath.document, scope.document])
  | .convention typeNames enumValues transformUnderscore =>
    .object (conventionFields.zip
      [typeNames.document, enumValues.document, transformUnderscore.document])

def documentItems : List Value → List Document
  | [] => []
  | item :: rest => item.document :: documentItems rest

def documentEntries : List (Value × Value) → List (String × Document)
  | [] => []
  | (key, value) :: rest => (key.displayed, value.document) :: documentEntries rest

end

end Value

end Nomenclature
