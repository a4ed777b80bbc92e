import Nomenclature.Configuration.Basic
import Nomenclature.Report
import Nomenclature.Schema

/-!
# Scalar policies

A policy answers which type a scalar has. A scalar with an entry has the type of the entry; any
other has the default type, unless the policy is strict, when asking for it is a fault.
-/

namespace Nomenclature

structure ScalarPolicy where
  scalars : ScalarTable
  strict : Bool
  defaultType : String

namespace ScalarPolicy

/-- The type of a scalar about which nothing is known. -/
def anyType : String :=
  "any"

/-- The policy of a table; an empty default type gives way to the type of anything. -/
def ofTable (scalars : ScalarTable) (strict : Bool) (defaultType : String) : ScalarPolicy :=
  ⟨scalars, strict, if defaultType.isEmpty then anyType else defaultType⟩

def ofConfiguration (c : Configuration) : ScalarPolicy :=
  ofTable c.scalars c.strictScalars c.defaultScalarType

/-- The output type of every scalar with an entry. -/
def table (policy : ScalarPolicy) : Entries :=
  policy.scalars.map fun entry => (entry.1, entry.2.output)

def has (policy : ScalarPolicy) (name : String) : Bool :=
  Table.hasKey policy.scalars (.text name)

def typeToward (policy : ScalarPolicy) (name : String) (direction : Direction) :
    Except Fault Value :=
  match Table.lookup? policy.scalars (.text name) with
  | some types => .ok (types.toward direction)
  | none => if policy.strict then .error (.unknownScalar name) else .ok (.text policy.defaultType)

/-- The type of a scalar in a direction given by its tag. -/
def typeAt (policy : ScalarPolicy) (name direction : String) : Except Fault Value :=
  match Direction.ofTag? direction with
  | some direction => policy.typeToward name direction
  | none => .error (.config (.invalidDirection direction))

/-- Checks that every name has a type; the first without one is the fault. -/
def validate (policy : ScalarPolicy) : List String → Except Fault Unit
  | [] => .ok ()
  | name :: rest =>
    if !policy.strict || policy.has name then policy.validate rest else .error (.unknownScalar name)

/-- Adds the scalars among some types to a table of output types. -/
def cover (policy : ScalarPolicy) (known : Entries) : TypeMap → Report Entries
  | [] => ⟨[], .ok known⟩
  | (name, kind) :: rest =>
    if kind != .scalar || Table.hasKey known (.text name) then policy.cover known rest
    else
      match policy.typeToward name .output with
      | .error fault => ⟨[], .error fault⟩
      | .ok type =>
        let others := policy.cover (known ++ [(.text name, type)]) rest
        ⟨.unmappedScalar name type.displayed :: others.notes, others.outcome⟩

/-- The output types of the policy together with those of every scalar of a schema. -/
def coverSchema (policy : ScalarPolicy) (types : TypeMap) : Report Entries :=
  policy.cover policy.table types.sorted

end ScalarPolicy

end Nomenclature
