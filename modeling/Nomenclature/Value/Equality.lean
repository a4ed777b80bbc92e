import Nomenclature.Value.Basic

/-!
# Equality of values

When two values count as the same. Numbers of any kind are compared by their exact quantity, with
the truth values as one and zero. Sequences agree item by item and only with their own kind; sets
and mappings agree when each holds what the other holds, regardless of order and of being frozen.
Built settings agree field by field, functions only with themselves.
-/

namespace Nomenclature

/-- What a number amounts to. -/
inductive Quantity where
  | finite (r : Rat)
  | infinite (negative : Bool)
  | undefined
  deriving DecidableEq

def Binary64.quantity (x : Binary64) : Quantity :=
  if x.isFinite then .finite x.toRat
  else if x.isNaN then .undefined
  else .infinite x.negative

namespace Value

/-- The quantity of a number. -/
def quantity? : Value → Option Quantity
  | boolean b => some (.finite (if b then 1 else 0))
  | integer n => some (.finite n)
  | real x => some x.quantity
  | _ => none

/-- Equality of a number with any value. -/
def sameQuantity (q : Quantity) (other : Value) : Bool :=
  other.quantity? == some q

/-- Equality of a text with any value. -/
def sameText (s : String) (other : Value) : Bool :=
  other.asText? == some s

mutual

def sameAs : Value → Value → Bool
  | .null, y => y.isNull
  | .boolean b, y => y.sameQuantity (.finite (if b then 1 else 0))
  | .integer n, y => y.sameQuantity (.finite n)
  | .real x, y => y.sameQuantity x.quantity
  | .undefined i, y =>
    match y with
    | .undefined j => i == j
    | _ => false
  | .text s, y => y.sameText s
  | .choice c, y => y.sameText c.tag
  | .bytes bs, y =>
    match y with
    | .bytes cs => bs == cs
    | _ => false
  | .list items, y =>
    match y with
    | .list others => sameItems items others
    | _ => false
  | .tuple items, y =>
    match y with
    | .tuple others => sameItems items others
    | _ => false
  | .set _ items, y =>
    match y with
    | .set _ others =>
      allAmong items others && others.all fun other => anySame items other
    | _ => false
  | .mapping _ entries, y =>
    match y with
    | .mapping _ others =>
      entriesAmong entries others && others.all fun other => anyEntry entries other
    | _ => false
  | .callable f, y =>
    match y with
    | .callable g => f == g
    | _ => false
  | .node n, y =>
    match y with
    | .node m => n == m
    | _ => false
  | .scalarTypes input output, y =>
    match y with
    | .scalarTypes input' output' => input.sameAs input' && output.sameAs output'
    | _ => false
  | .fragment name onType definition isExternal importFrom, y =>
    match y with
    | .fragment name' onType' definition' isExternal' importFrom' =>
      name.sameAs name' && onType.sameAs onType' && definition.sameAs definition' &&
        isExternal.sameAs isExternal' && importFrom.sameAs importFrom'
    | _ => false
  | .identifier name kind, y =>
    match y with
    | .identifier name' kind' => name.sameAs name' && kind.sameAs kind'
    | _ => false
  | .fragmentImport baseDir baseOutputDir outputPath identifiers typeImport importPath scope, y =>
    match y with
    | .fragmentImport baseDir' baseOutputDir' outputPath' identifiers' typeImport' importPath'
        scope' =>
      baseDir.sameAs baseDir' && baseOutputDir.sameAs baseOutputDir' &&
        outputPath.sameAs outputPath' && identifiers.sameAs identifiers' &&
        typeImport.sameAs typeImport' && importPath.sameAs importPath' && scope.sameAs scope'
    | _ => false
  | .convention typeNames enumValues transformUnderscore, y =>
    match y with
    | .convention typeNames' enumValues' transformUnderscore' =>
      typeNames.sameAs typeNames' && enumValues.sameAs enumValues' &&
        transformUnderscore.sameAs transformUnderscore'
    | _ => false
termination_by structural x => x

/-- Equality item by item. -/
def sameItems : List Value → List Value → Bool
  | [], others => others.isEmpty
  | item :: rest, others =>
    match others with
    | [] => false
    | other :: others => item.sameAs other && sameItems rest others
termination_by structural x => x

/-- Whether every item equals one of the others. -/
def allAmong : List Value → List Value → Bool
  | [], _ => true
  | item :: rest, others => others.any (fun other => item.sameAs other) && allAmong rest others
termination_by structural x => x

/-- Whether one of the items equals another value. -/
def anySame : List Value → Value → Bool
  | [], _ => false
  | item :: rest, other => item.sameAs other || anySame rest other
termination_by structural x => x

/-- Whether every entry has its equal, key and value, among the others. -/
def entriesAmong : List (Value × Value) → List (Value × Value) → Bool
  | [], _ => true
  | (key, value) :: rest, others =>
    others.any (fun other => key.sameAs other.1 && value.sameAs other.2) &&
      entriesAmong rest others
termination_by structural x => x

/-- Whether one of the entries equals another entry, key and value. -/
def anyEntry : List (Value × Value) → Value × Value → Bool
  | [], _ => false
  | (key, value) :: rest, other =>
    (key.sameAs other.1 && value.sameAs other.2) || anyEntry rest other
termination_by structural x => x

end

end Value

end Nomenclature
