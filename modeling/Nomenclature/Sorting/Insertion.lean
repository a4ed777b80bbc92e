/-!
# Sorting a list

Insertion in order. Entries that compare equal keep their order.
-/

namespace Nomenclature

variable {α : Type _}

def insertSorted (le : α → α → Bool) (x : α) : List α → List α
  | [] => [x]
  | y :: ys => if le x y then x :: y :: ys else y :: insertSorted le x ys

def sortedBy (le : α → α → Bool) : List α → List α
  | [] => []
  | x :: xs => insertSorted le x (sortedBy le xs)

theorem insertSorted_perm (le : α → α → Bool) (x : α) (xs : List α) :
    (insertSorted le x xs).Perm (x :: xs) := by
  induction xs with
  | nil => exact .refl _
  | cons y ys ih =>
    simp only [insertSorted]
    split
    · exact .refl _
    · exact (ih.cons y).trans (.swap x y ys)

theorem sortedBy_perm (le : α → α → Bool) (xs : List α) : (sortedBy le xs).Perm xs := by
  induction xs with
  | nil => exact .refl _
  | cons x xs ih => exact (insertSorted_perm le x _).trans (ih.cons x)

/-- Under a total and transitive comparison the result is in order. -/
theorem pairwise_insertSorted {le : α → α → Bool}
    (total : ∀ x y, le x y = true ∨ le y x = true)
    (transitive : ∀ x y z, le x y = true → le y z = true → le x z = true)
    (x : α) {xs : List α} (ordered : xs.Pairwise fun a b => le a b = true) :
    (insertSorted le x xs).Pairwise fun a b => le a b = true := by
  induction xs with
  | nil => simp [insertSorted]
  | cons y ys ih =>
    obtain ⟨least, rest⟩ := List.pairwise_cons.1 ordered
    simp only [insertSorted]
    split
    · rename_i h
      refine List.pairwise_cons.2 ⟨fun z hz => ?_, ordered⟩
      rcases List.mem_cons.1 hz with rfl | hz
      · exact h
      · exact transitive x y z h (least z hz)
    · rename_i h
      refine List.pairwise_cons.2 ⟨fun z hz => ?_, ih rest⟩
      rcases List.mem_cons.1 ((insertSorted_perm le x ys).mem_iff.1 hz) with rfl | hz
      · exact (total z y).resolve_left h
      · exact least z hz

theorem pairwise_sortedBy {le : α → α → Bool}
    (total : ∀ x y, le x y = true ∨ le y x = true)
    (transitive : ∀ x y z, le x y = true → le y z = true → le x z = true) (xs : List α) :
    (sortedBy le xs).Pairwise fun a b => le a b = true := by
  induction xs with
  | nil => exact .nil
  | cons x xs ih => exact pairwise_insertSorted total transitive x ih

end Nomenclature
