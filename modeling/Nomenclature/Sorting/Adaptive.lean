import Nomenclature.Sorting.Merge

/-!
# Adaptive sorting

Sorting under a comparison that may have no answer for two entries, in which case nothing is sorted,
and whose answers may contradict each other, in which case the outcome depends on what is compared.
Therefore the comparisons are fixed: the entries are split into runs, and adjacent runs are merged.

Runs wait on a stack until they are merged. The boundary of two runs has a depth: halve the list,
the halves, and so on, and count the halvings until the middles of the two runs lie in different
parts. Boundaries that lie deeper than the newest one are merged away first.
-/

namespace Nomenclature.Sorting

variable {α : Type}

/-- A length halved until it is below 64, and one more if a half was ever rounded down, with a bound
on the number of halvings. -/
def halvedLength : Nat → Nat → Nat → Nat
  | 0, length, carry => length + carry
  | bound + 1, length, carry =>
    if length < 64 then length + carry
    else halvedLength bound (length / 2) (if length % 2 = 1 then 1 else carry)

/-- The length that the runs of a list are extended to: fewer than 64 entries are one run, and more
are split into runs of 32 to 64, so that their number is a power of two or just below one. -/
def leastRunLength (count : Nat) : Nat :=
  halvedLength count count 0

/-- The number of halvings of a list that it takes to part two places, given doubled, with a bound
on that number. -/
def partingDepth (count : Nat) : Nat → Nat → Nat → Nat
  | 0, _, _ => 0
  | bound + 1, near, far =>
    if count ≤ near then partingDepth count bound (2 * (near - count)) (2 * (far - count)) + 1
    else if count ≤ far then 1
    else partingDepth count bound (2 * near) (2 * far) + 1

/-- The depth of the boundary between two adjacent runs of a list, the first of which begins at a
place. -/
def boundaryDepth (count start first second : Nat) : Nat :=
  let near := 2 * start + first
  partingDepth count count near (near + first + second)

/-- A run that waits to be merged, with the depth of the boundary before it. -/
structure WaitingRun (α : Type) where
  entries : List α
  depth : Nat

/-- The entries of a stack, in the order of the list. -/
def stackEntries (stack : List (WaitingRun α)) : List α :=
  (stack.map (·.entries)).reverse.flatten

/-- Merges the last run with those before it as long as their boundary lies deeper than a new
one. -/
def collapse? (below? : Comparison α) (depth : Nat) (last : WaitingRun α) :
    List (WaitingRun α) → Nat → Option (List (WaitingRun α) × Nat)
  | [], patience => some ([last], patience)
  | run :: earlier, patience =>
    if depth < last.depth then do
      let (merged, patience) ← mergeRuns? below? patience run.entries last.entries
      collapse? below? depth ⟨merged, run.depth⟩ earlier patience
    else some (last :: run :: earlier, patience)

/-- Puts a new run on the stack of a list, whose last run stands first. -/
def push? (below? : Comparison α) (count : Nat) (new : List α) (patience : Nat) :
    List (WaitingRun α) → Option (List (WaitingRun α) × Nat)
  | [] => some ([⟨new, 0⟩], patience)
  | last :: earlier => do
    let start := (stackEntries earlier).length
    let depth := boundaryDepth count start last.entries.length new.length
    let (stack, patience) ← collapse? below? depth last earlier patience
    return (⟨new, depth⟩ :: stack, patience)

/-- Merges all runs of a stack, with a bound on their number. The last two are merged, unless the
one before them is shorter than the last. -/
def mergeAll? (below? : Comparison α) : Nat → List (List α) → Nat → Option (List α)
  | 0, stack, _ => some stack.reverse.flatten
  | _ + 1, [], _ => some []
  | _ + 1, [run], _ => some run
  | bound + 1, third :: second :: stack, patience =>
    match stack with
    | first :: earlier =>
      if first.length < third.length then do
        let (merged, patience) ← mergeRuns? below? patience first second
        mergeAll? below? bound (third :: merged :: earlier) patience
      else do
        let (merged, patience) ← mergeRuns? below? patience second third
        mergeAll? below? bound (merged :: first :: earlier) patience
    | [] => do
      let (merged, patience) ← mergeRuns? below? patience second third
      mergeAll? below? bound [merged] patience

/-- Sorts the entries that are left of a list, with a bound on their number. -/
def sortOn? (below? : Comparison α) (count : Nat) :
    Nat → List (WaitingRun α) → Nat → List α → Option (List α)
  | _, stack, patience, [] =>
    mergeAll? below? stack.length (stack.map (·.entries)) patience
  | 0, stack, _, entries => some (stackEntries stack ++ entries)
  | bound + 1, stack, patience, entries => do
    let (run, others) ← extendedRun? below? (leastRunLength count) entries
    let (stack, patience) ← push? below? count run patience stack
    sortOn? below? count bound stack patience others

/-- The entries in order, if every comparison that is made on the way has an answer. -/
def sortedBy? (below? : Comparison α) (entries : List α) : Option (List α) :=
  sortOn? below? entries.length entries.length [] standardPatience entries

end Nomenclature.Sorting
