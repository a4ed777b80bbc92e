import Nomenclature.Sorting.Search

/-!
# Runs

A run is a stretch of entries that are in order as they stand, or in strictly descending order, when
it is turned around. A run that is too short is extended by putting the entries after it in their
places.
-/

namespace Nomenclature.Sorting

variable {α : Type}

/-- A comparison, which may have no answer: whether one entry is below another. -/
abbrev Comparison (α : Type) := α → α → Option Bool

/-- The opposite answer. -/
def Comparison.isNot (below? : Comparison α) (x y : α) : Option Bool :=
  (below? x y).map not

/-- The entries that carry a run on after its last one, and those that follow the run. A run
descends as long as each entry is below the one before, and ascends as long as none is. -/
def runAfter? (below? : Comparison α) (descending : Bool) (last : α) :
    List α → Option (List α × List α)
  | [] => some ([], [])
  | x :: rest => do
    if (← below? x last) = descending then
      let (run, others) ← runAfter? below? descending x rest
      return (x :: run, others)
    else return ([], x :: rest)

/-- The run that some entries begin with, in ascending order, and the entries that follow it. -/
def firstRun? (below? : Comparison α) : List α → Option (List α × List α)
  | x :: y :: rest => do
    let descending ← below? y x
    let (run, others) ← runAfter? below? descending y rest
    let run := x :: y :: run
    return (if descending then run.reverse else run, others)
  | entries => some (entries, [])

/-- Puts an entry in its place, after all that it is not below. -/
def insertBisecting? (below? : Comparison α) (x : α) (run : List α) : Option (List α) := do
  let place ← bisect? .front (below?.isNot x) run.length run
  return run.take place ++ x :: run.drop place

/-- Puts some entries in their places in a run, one after the other. -/
def insertEach? (below? : Comparison α) (run : List α) : List α → Option (List α)
  | [] => some run
  | x :: rest => do
    let run ← insertBisecting? below? x run
    insertEach? below? run rest

/-- The first run of some entries, extended to a least length where there are entries enough, and
the entries that follow it. -/
def extendedRun? (below? : Comparison α) (least : Nat) (entries : List α) :
    Option (List α × List α) := do
  let (run, others) ← firstRun? below? entries
  let missing := least - run.length
  let run ← insertEach? below? run (others.take missing)
  return (run, others.drop missing)

end Nomenclature.Sorting
