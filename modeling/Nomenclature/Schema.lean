import Nomenclature.Sorting.Insertion

/-!
# Schemas

The types that a schema defines, by name. Which types these are is settled where the schema is made;
here a schema is given by its type map, and only whether a type is a scalar matters.
-/

namespace Nomenclature

inductive TypeKind where
  | scalar
  | object
  | interface
  | input
  | enum
  | union
  deriving DecidableEq, Repr

/-- The types of a schema by name. -/
abbrev TypeMap := List (String × TypeKind)

namespace TypeMap

/-- The types in the order of their names. -/
def sorted (types : TypeMap) : TypeMap :=
  sortedBy (fun a b => decide (a.1 ≤ b.1)) types

end TypeMap

end Nomenclature
