import Nomenclature.Value.Basic

/-!
# Values as keys

A mapping finds its entries, and a set its items, only under values that never change. Lists,
mappings and sets that are not frozen can change, so they are no keys, and neither is what holds one
of them.
-/

namespace Nomenclature.Value

mutual

def isKey : Value → Bool
  | .list _ => false
  | .tuple items => areKeys items
  | .set frozen _ => frozen
  | .mapping .. => false
  | .scalarTypes input output => input.isKey && output.isKey
  | .fragment name onType definition isExternal importFrom =>
    name.isKey && onType.isKey && definition.isKey && isExternal.isKey && importFrom.isKey
  | .identifier name kind => name.isKey && kind.isKey
  | .fragmentImport baseDir baseOutputDir outputPath identifiers typeImport importPath scope =>
    baseDir.isKey && baseOutputDir.isKey && outputPath.isKey && identifiers.isKey &&
      typeImport.isKey && importPath.isKey && scope.isKey
  | .convention typeNames enumValues transformUnderscore =>
    typeNames.isKey && enumValues.isKey && transformUnderscore.isKey
  | _ => true

def areKeys : List Value → Bool
  | [] => true
  | item :: rest => item.isKey && areKeys rest

end

end Nomenclature.Value
