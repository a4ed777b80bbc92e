import Nomenclature.Sorting.Run

/-!
# Merging two runs

Two adjacent runs are merged entry by entry, and where one of them wins many times in a row, by
stretches that are found by galloping. How many wins in a row it takes is the patience: it falls
while galloping pays, and rises when that ends. What stands in its place already at the outer ends
of the runs is left alone, and the merge starts at the end where the shorter run lies.

Seen from that end, the heads of the runs are compared. The run that holds its ground is the one
whose head comes first where neither is to come before the other: from the front the earlier run,
from the back the later one. Its last entry ends the merge. The other run gives way.
-/

namespace Nomenclature.Sorting

variable {α : Type}

/-- A merge from one end. The comparison is as seen from there: whether one entry is to come before
another. -/
structure Merge (α : Type) where
  side : Side
  before? : Comparison α

/-- How a merge goes on: entry by entry, after one of the runs has won a number of times in a row,
or by galloping. -/
inductive Pace where
  | stepping (yieldingWon : Bool) (streak : Nat)
  | galloping

/-- What a merge puts out next, and what is left of the two runs. -/
structure Stretch (α : Type) where
  out : List α
  holding : List α
  yielding : List α
  /-- Whether the run that gives way has won. -/
  yieldingWon : Bool
  /-- How many entries galloping has found in one of the runs. -/
  found : Nat

/-- What is left when no comparison is needed any more. -/
def settled? : List α → List α → Option (List α)
  | [], yielding => some yielding
  | holding, [] => some holding
  | [last], yielding => some (yielding ++ [last])
  | _, _ => none

/-- The patience to begin with. To find so many entries in one of the runs makes a gallop pay. -/
def standardPatience : Nat :=
  7

/-- The pace after a stretch, and the patience that goes with it. -/
def Pace.after (stretch : Stretch α) (patience : Nat) : Pace → Pace × Nat
  | stepping yieldingWon streak =>
    let streak := if stretch.yieldingWon = yieldingWon then streak + 1 else 1
    (if patience ≤ streak then galloping else stepping stretch.yieldingWon streak, patience)
  | galloping =>
    if standardPatience ≤ stretch.found then (galloping, max 1 (patience - 1))
    else (stepping false 0, patience + 1)

namespace Merge

/-- The head of a run that wins over the other head. -/
def step? (m : Merge α) : List α → List α → Option (Stretch α)
  | x :: holding, y :: yielding => do
    if ← m.before? y x then return ⟨[y], x :: holding, yielding, true, 0⟩
    else return ⟨[x], holding, y :: yielding, false, 0⟩
  | holding, yielding => some ⟨[], holding, yielding, false, 0⟩

/-- All that comes before the head of the run that gives way, and that head. -/
def holdingStretch? (m : Merge α) (holding : List α) : List α → Option (Stretch α)
  | [] => some ⟨[], holding, [], false, 0⟩
  | y :: yielding => do
    let found ← gallop? m.side (m.before?.isNot y) holding
    return ⟨holding.take found ++ [y], holding.drop found, yielding, true, found⟩

/-- All that comes before the head of the run that holds its ground, and that head. -/
def yieldingStretch? (m : Merge α) (yielding : List α) : List α → Option (Stretch α)
  | [] => some ⟨[], [], yielding, false, 0⟩
  | x :: holding => do
    let found ← gallop? m.side (m.before? · x) yielding
    return ⟨yielding.take found ++ [x], holding, yielding.drop found, false, found⟩

/-- The stretch with which a gallop begins: it is taken from the earlier run. -/
def firstStretch? (m : Merge α) (holding yielding : List α) : Option (Stretch α) :=
  match m.side with
  | .front => m.holdingStretch? holding yielding
  | .back => m.yieldingStretch? yielding holding

def secondStretch? (m : Merge α) (holding yielding : List α) : Option (Stretch α) :=
  match m.side with
  | .front => m.yieldingStretch? yielding holding
  | .back => m.holdingStretch? holding yielding

/-- A stretch of each run, unless the first leaves nothing to compare. -/
def gallopStretch? (m : Merge α) (holding yielding : List α) : Option (Stretch α) := do
  let first ← m.firstStretch? holding yielding
  if (settled? first.holding first.yielding).isSome then return first
  else
    let second ← m.secondStretch? first.holding first.yielding
    return { second with out := first.out ++ second.out, found := max first.found second.found }

def stretch? (m : Merge α) (holding yielding : List α) : Pace → Option (Stretch α)
  | .stepping .. => m.step? holding yielding
  | .galloping => m.gallopStretch? holding yielding

/-- Merges what is left of two runs, with a bound on the number of entries. Of two patiences the
first holds if the merge is over, the second if it goes on. Yields the patience in the end, too. -/
def goOn? (m : Merge α) : Nat → Pace → Nat → Nat → List α → List α → Option (List α × Nat)
  | 0, _, patience, _, holding, yielding => some (holding ++ yielding, patience)
  | bound + 1, pace, patience, next, holding, yielding =>
    match settled? holding yielding with
    | some rest => some (rest, patience)
    | none => do
      let stretch ← m.stretch? holding yielding pace
      let (pace, later) := pace.after stretch next
      let (rest, left) ← m.goOn? bound pace next later stretch.holding stretch.yielding
      return (stretch.out ++ rest, left)

/-- Merges two runs of which the one that gives way is known to have the first entry. -/
def run? (m : Merge α) (patience : Nat) (holding : List α) : List α → Option (List α × Nat)
  | [] => some (holding, patience)
  | y :: yielding => do
    let (rest, left) ← m.goOn? (holding.length + yielding.length) (.stepping false 0)
      patience patience holding yielding
    return (y :: rest, left)

end Merge

/-- Merges two runs from the front, the earlier one holding its ground. -/
def mergeFront? (below? : Comparison α) (patience : Nat) (earlier later : List α) :
    Option (List α × Nat) :=
  Merge.run? ⟨.front, below?⟩ patience earlier later

/-- Merges two runs from the back, the later one holding its ground. -/
def mergeBack? (below? : Comparison α) (patience : Nat) (earlier later : List α) :
    Option (List α × Nat) := do
  let (merged, left) ←
    Merge.run? ⟨.back, fun x y => below? y x⟩ patience later.reverse earlier.reverse
  return (merged.reverse, left)

/-- Merges two runs from the end where the shorter one lies. -/
def mergeShorter? (below? : Comparison α) (patience : Nat) (earlier later : List α) :
    Option (List α × Nat) :=
  if earlier.length ≤ later.length then mergeFront? below? patience earlier later
  else mergeBack? below? patience earlier later

/-- Merges two runs without what is in its place already at the end of the later one: the entries
that are not below the last of the earlier one. -/
def mergeBefore? (below? : Comparison α) (patience : Nat) (earlier later : List α) :
    Option (List α × Nat) :=
  match earlier.getLast? with
  | none => some (later, patience)
  | some x => do
    let count ← gallop? .back (below?.isNot · x) later.reverse
    let place := later.length - count
    if place = 0 then return (earlier ++ later, patience)
    else
      let (merged, left) ← mergeShorter? below? patience earlier (later.take place)
      return (merged ++ later.drop place, left)

/-- Merges two adjacent runs. Entries of the earlier one that the first of the later one is not
below are in their places already. -/
def mergeRuns? (below? : Comparison α) (patience : Nat) (earlier : List α) :
    List α → Option (List α × Nat)
  | [] => some (earlier, patience)
  | y :: later => do
    let place ← gallop? .front (below?.isNot y) earlier
    let (merged, left) ← mergeBefore? below? patience (earlier.drop place) (y :: later)
    return (earlier.take place ++ merged, left)

end Nomenclature.Sorting
