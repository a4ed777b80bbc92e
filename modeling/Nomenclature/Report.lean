import Nomenclature.Fault

/-!
# Reports

What a computation yields together with the notes that it made on the way. Notes made before a fault
stay.
-/

namespace Nomenclature

inductive Note where
  | convention (typeNames enumValues transformUnderscore : String)
  | extraKeys (keys : List Value)
  | unmappedScalar (name type : String)

def Note.text : Note → String
  | convention typeNames enumValues transformUnderscore =>
    "Naming convention: typeNames=" ++ typeNames ++ " enumValues=" ++ enumValues ++
      " transformUnderscore=" ++ transformUnderscore
  | extraKeys keys => "Plugin-specific configuration keys: " ++ (Value.list keys).shown
  | unmappedScalar name type => "Scalar '" ++ name ++ "' has no mapping, using '" ++ type ++ "'"

structure Report (α : Type) where
  notes : List Note
  outcome : Except Fault α

end Nomenclature
