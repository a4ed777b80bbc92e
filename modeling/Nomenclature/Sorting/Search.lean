/-!
# Searching ordered entries

How many entries at one end of a list pass a test, on the understanding that those that pass stand
before those that fail. Not every entry is tested, and where the understanding does not hold the
number depends on which are, so the order of the tests is part of the definition. A test may have no
answer, and then the search has none.

Entries are seen from an end: a search from the back gets them in reverse.
-/

namespace Nomenclature.Sorting

variable {α : Type}

/-- The end of a list from which its entries are seen. -/
inductive Side where
  | front
  | back
  deriving DecidableEq, Repr

/-- The number of entries seen before the middle one. Of two in the middle it is the later one in
the list. -/
def Side.middle : Side → Nat → Nat
  | .front, count => count / 2
  | .back, count => (count - 1) / 2

/-- Finds the number by bisection, with a bound on the number of entries. -/
def bisect? (side : Side) (passes? : α → Option Bool) : Nat → List α → Option Nat
  | 0, _ => some 0
  | bound + 1, entries =>
    let half := side.middle entries.length
    match entries.drop half with
    | [] => some 0
    | middle :: after => do
      if ← passes? middle then
        let more ← bisect? side passes? bound after
        return half + 1 + more
      else bisect? side passes? bound (entries.take half)

/-- Goes on from a number of entries that passed: each test doubles that number, and the entries
before the first that fails are bisected. -/
def gallopOn? (side : Side) (passes? : α → Option Bool) : Nat → Nat → List α → Option Nat
  | 0, passed, _ => some passed
  | bound + 1, passed, rest =>
    match rest.drop (passed - 1) with
    | [] => do
      let more ← bisect? side passes? rest.length rest
      return passed + more
    | entry :: after => do
      if ← passes? entry then gallopOn? side passes? bound (2 * passed) after
      else
        let near := rest.take (passed - 1)
        let more ← bisect? side passes? near.length near
        return passed + more

/-- Finds the number by tests that lie ever farther apart, which is fast where few entries pass. -/
def gallop? (side : Side) (passes? : α → Option Bool) : List α → Option Nat
  | [] => some 0
  | entry :: rest => do
    if ← passes? entry then gallopOn? side passes? rest.length 1 rest else return 0

end Nomenclature.Sorting
