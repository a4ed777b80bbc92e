import Nomenclature.Value.Basic

/-!
# Frozen values

Freezing makes a value safe to share: mappings and sets become read-only, lists become tuples, and
so do their contents. What is not a container stays as it is, built settings included.
-/

namespace Nomenclature.Value

mutual

def freeze : Value → Value
  | .mapping _ entries => .mapping true (freezeEntries entries)
  | .list items => .tuple (freezeItems items)
  | .tuple items => .tuple (freezeItems items)
  | .set _ items => .set true (freezeItems items)
  | value => value

def freezeItems : List Value → List Value
  | [] => []
  | item :: rest => item.freeze :: freezeItems rest

def freezeEntries : List (Value × Value) → List (Value × Value)
  | [] => []
  | (key, value) :: rest => (key, value.freeze) :: freezeEntries rest

end

end Nomenclature.Value
