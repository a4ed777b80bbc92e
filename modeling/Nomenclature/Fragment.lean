import Nomenclature.Setting

/-!
# Fragments from elsewhere

Fragments that are defined outside the document at hand, and where generated fragment identifiers
must be imported from. Both may be given as mappings or built before; an import may keep its path,
namespace and identifiers in a nested section.
-/

namespace Nomenclature

/-- A fragment defined outside the document at hand. -/
structure ExternalFragment where
  name : Value
  onType : Value
  definition : Value
  isExternal : Value
  importFrom : Value

namespace ExternalFragment

def toValue (fragment : ExternalFragment) : Value :=
  .fragment fragment.name fragment.onType fragment.definition fragment.isExternal
    fragment.importFrom

def ofEntries (entries : Entries) (path : String) : Except Fault ExternalFragment := do
  let name ← Setting.text (Entries.named entries "name") (path ++ ".name")
  let onType ← Setting.text (Entries.either entries "onType" "on_type" (.text ""))
    (path ++ ".onType")
  let isExternal ← Setting.boolean
    (Entries.either entries "isExternal" "is_external" (.boolean false)) (path ++ ".isExternal")
  return ⟨.text name, .text onType, Entries.named entries "node", .boolean isExternal,
    Entries.either entries "importFrom" "import_from" .null⟩

def ofValue (value : Value) (path : String) : Except Fault ExternalFragment :=
  match value with
  | .fragment name onType definition isExternal importFrom =>
    .ok ⟨name, onType, definition, isExternal, importFrom⟩
  | .mapping _ entries =>
    if (Entries.named entries "name").isTruthy then ofEntries entries path
    else .error (.config (.expected .namedFragment path))
  | _ => .error (.config (.expected .namedFragment path))

end ExternalFragment

/-- An identifier that an import brings in: the type of a fragment or its document. -/
structure ImportedIdentifier where
  name : Value
  kind : Value

namespace ImportedIdentifier

def toValue (identifier : ImportedIdentifier) : Value :=
  .identifier identifier.name identifier.kind

def isKind (value : Value) : Bool :=
  value.sameText "type" || value.sameText "document"

def ofValue (value : Value) (path : String) : Except Fault ImportedIdentifier :=
  match value with
  | .identifier name kind => .ok ⟨name, kind⟩
  | .mapping _ entries => do
    let kind := Entries.named entries "kind"
    if isKind kind then
      let name ← Setting.text (Entries.named entries "name") (path ++ ".name")
      return ⟨.text name, kind⟩
    else throw (.config (.expected .identifier path))
  | _ => .error (.config (.expected .identifier path))

end ImportedIdentifier

/-- Where generated fragment identifiers are imported from. -/
structure FragmentImport where
  baseDir : Value
  baseOutputDir : Value
  outputPath : Value
  identifiers : Value
  typeImport : Value
  importPath : Value
  scope : Value

namespace FragmentImport

def toValue (entry : FragmentImport) : Value :=
  .fragmentImport entry.baseDir entry.baseOutputDir entry.outputPath entry.identifiers
    entry.typeImport entry.importPath entry.scope

/-- The nested section of an import; one that counts as false is empty. -/
def nested (entries : Entries) (path : String) : Except Fault Entries :=
  let place := Entries.named entries "importSource"
  if place.isTruthy then
    match place.asEntries? with
    | some nested => .ok nested
    | none => .error (.config (.expected .object (path ++ ".importSource")))
  else .ok []

def ofEntries (entries : Entries) (path : String) : Except Fault FragmentImport := do
  let inner ← nested entries path
  let space := (Entries.named entries "namespace").orElse (Entries.named inner "namespace")
  let scope ←
    if space.isNull then .ok .null
    else Value.text <$> Setting.text space (path ++ ".importSource.namespace")
  let listed ← Setting.list
    ((Entries.named entries "identifiers").orElse (Entries.getD inner "identifiers" (.list [])))
    path
  let identifiers ← Setting.items ImportedIdentifier.ofValue (path ++ ".identifiers") 0 listed
  let baseDir ← Setting.text (Entries.getD entries "baseDir" (.text "")) (path ++ ".baseDir")
  let baseOutputDir ← Setting.text (Entries.getD entries "baseOutputDir" (.text ""))
    (path ++ ".baseOutputDir")
  let outputPath ← Setting.text (Entries.getD entries "outputPath" (.text ""))
    (path ++ ".outputPath")
  let importPath ← Setting.text
    ((Entries.named entries "importPath").orElse (Entries.getD inner "path" (.text "")))
    (path ++ ".importSource.path")
  let typeImport ← Setting.boolean
    (Entries.either entries "typeImport" "typesImport" (.boolean false)) (path ++ ".typeImport")
  return ⟨.text baseDir, .text baseOutputDir, .text outputPath,
    .tuple (identifiers.map ImportedIdentifier.toValue), .boolean typeImport, .text importPath,
    scope⟩

def ofValue (value : Value) (path : String) : Except Fault FragmentImport :=
  match value with
  | .fragmentImport baseDir baseOutputDir outputPath identifiers typeImport importPath scope =>
    .ok ⟨baseDir, baseOutputDir, outputPath, identifiers, typeImport, importPath, scope⟩
  | .mapping _ entries => ofEntries entries path
  | _ => .error (.config (.expected .object path))

end FragmentImport

end Nomenclature
