import Nomenclature.Sorting.Adaptive
import Nomenclature.Sorting.Insertion
import Nomenclature.Value.Equality

/-!
# Order of values

Numbers are ordered by quantity, texts by their code points, bytes by their codes, sequences of one
kind by the first place where they differ, and sets by inclusion. Nothing else has an order, so a
list of keys can be sorted only if those of them that are compared have one. An undefined number is
below no number and above none, and of two sets neither need be below the other.
-/

namespace Nomenclature

/-- Whether a quantity is below another; an undefined one is neither below nor above any. -/
def Quantity.below : Quantity → Quantity → Bool
  | .finite a, .finite b => a < b
  | .finite _, .infinite negative => !negative
  | .infinite negative, .finite _ => negative
  | .infinite a, .infinite b => a && !b
  | _, _ => false

namespace Value

/-- The place of a number in the order of numbers. -/
def rank? : Value → Option Quantity
  | undefined _ => some .undefined
  | value => value.quantity?

/-- The order of values that hold no others. -/
def belowAtom? (x y : Value) : Option Bool :=
  match x.rank?, y.rank? with
  | some a, some b => some (a.below b)
  | _, _ =>
    match x.asText?, y.asText? with
    | some s, some t => some (s < t)
    | _, _ =>
      match x, y with
      | bytes bs, bytes cs => some (bs < cs)
      | _, _ => none

mutual

/-- Whether a value comes before another, if the two are comparable. -/
def below? : Value → Value → Option Bool
  | .list items, y =>
    match y with
    | .list others => belowItems? items others
    | _ => none
  | .tuple items, y =>
    match y with
    | .tuple others => belowItems? items others
    | _ => none
  | .set _ items, y =>
    match y with
    | .set _ others => some (items.length < others.length && allAmong items others)
    | _ => none
  | x, y => belowAtom? x y
termination_by structural x => x

def belowItems? : List Value → List Value → Option Bool
  | [], others => some (!others.isEmpty)
  | item :: rest, others =>
    match others with
    | [] => some false
    | other :: others =>
      if item.sameAs other then belowItems? rest others else item.below? other
termination_by structural x => x

end

/-- The values in order, if those of them that are compared have one. Texts have one order only, so
the plainest way to sort them is as good as any. -/
def sorted? (values : List Value) : Option (List Value) :=
  if values.all fun value => value.asText?.isSome then
    some (sortedBy (fun a b => b.below? a != some true) values)
  else Sorting.sortedBy? below? values

end Value

end Nomenclature
