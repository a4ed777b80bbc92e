import Mathlib

/-!
# Separated texts

Texts with a separator between them are taken apart at the separators and put together again. What
is compatible with one separator is compatible with any number of them, and what comes at the end of
the whole comes at the end of the last text.
-/

namespace Nomenclature

variable {α β : Type} {s : α}

/-- What is taken apart at a separator is taken apart at all of them. -/
theorem intercalate_eq_flatMap {f : List α → List β} (hnil : f [] = [])
    (happend : ∀ as bs, f (as ++ s :: bs) = f as ++ f bs) (parts : List (List α)) :
    f ([s].intercalate parts) = parts.flatMap f := by
  induction parts with
  | nil => exact hnil
  | cons part rest ih =>
      cases rest with
      | nil => rw [List.intercalate_singleton, List.flatMap_singleton]
      | cons next rest =>
          rw [List.intercalate_cons_cons, List.append_assoc, List.singleton_append, happend, ih]
          rfl

/-- What keeps a separator in its place keeps all of them. -/
theorem intercalate_map_of_append {f : List α → List β} {t : β} {parts : List (List α)}
    (happend : ∀ as bs, f (as ++ s :: bs) = f as ++ t :: f bs) (hparts : parts ≠ []) :
    f ([s].intercalate parts) = [t].intercalate (parts.map f) := by
  induction parts with
  | nil => exact absurd rfl hparts
  | cons part rest ih =>
      cases rest with
      | nil => simp
      | cons next rest =>
          rw [List.intercalate_cons_cons, List.append_assoc, List.singleton_append, happend,
            ih (List.cons_ne_nil next rest)]
          simp [List.intercalate_cons_cons]

theorem intercalate_concat {parts : List (List α)} (hparts : parts ≠ []) (part : List α) :
    [s].intercalate (parts ++ [part]) = [s].intercalate parts ++ s :: part := by
  induction parts with
  | nil => exact absurd rfl hparts
  | cons first rest ih =>
      cases rest with
      | nil => simp [List.intercalate_cons_cons]
      | cons next rest =>
          rw [List.cons_append, List.cons_append, List.intercalate_cons_cons,
            List.intercalate_cons_cons, ← List.cons_append, ih (List.cons_ne_nil next rest)]
          simp

/-- What is put at the end of the last part comes at the end of the whole. -/
theorem intercalate_concat_append (parts : List (List α)) (part ending : List α) :
    [s].intercalate (parts ++ [part ++ ending]) = [s].intercalate (parts ++ [part]) ++ ending := by
  cases parts with
  | nil => simp
  | cons first rest =>
      rw [intercalate_concat (List.cons_ne_nil first rest),
        intercalate_concat (List.cons_ne_nil first rest)]
      simp

/-- What holds of the separator and of all characters of the parts holds of the whole. -/
theorem forall_mem_intercalate {p : α → Prop} {parts : List (List α)} (hs : p s)
    (hparts : ∀ part ∈ parts, ∀ c ∈ part, p c) : ∀ c ∈ [s].intercalate parts, p c := by
  induction parts with
  | nil => exact List.forall_mem_nil p
  | cons part rest ih =>
      obtain ⟨hpart, hrest⟩ := List.forall_mem_cons.1 hparts
      cases rest with
      | nil => rwa [List.intercalate_singleton]
      | cons next rest =>
          rw [List.intercalate_cons_cons, List.forall_mem_append, List.forall_mem_append]
          exact ⟨⟨hpart, List.forall_mem_singleton.2 hs⟩, ih hrest⟩

theorem mem_intercalate {parts : List (List α)} {part : List α} {c : α} (hpart : part ∈ parts)
    (hc : c ∈ part) : c ∈ [s].intercalate parts := by
  induction parts with
  | nil => cases hpart
  | cons first rest ih =>
      cases rest with
      | nil => rwa [List.intercalate_singleton, ← List.mem_singleton.1 hpart]
      | cons next rest =>
          rw [List.intercalate_cons_cons, List.mem_append, List.mem_append]
          rcases List.mem_cons.1 hpart with rfl | hpart
          · exact .inl (.inl hc)
          · exact .inr (ih hpart)

theorem head?_intercalate_cons {part : List α} (hpart : part ≠ []) (rest : List (List α)) :
    ([s].intercalate (part :: rest)).head? = part.head? := by
  obtain ⟨c, cs, rfl⟩ := List.exists_cons_of_ne_nil hpart
  rw [List.intercalate_cons_cons_left]
  rfl

theorem intercalate_cons_ne_nil {part : List α} (hpart : part ≠ []) (rest : List (List α)) :
    [s].intercalate (part :: rest) ≠ [] := by
  cases rest with
  | nil => rwa [List.intercalate_singleton]
  | cons next rest =>
      rw [List.intercalate_cons_cons, List.append_assoc]
      exact List.append_ne_nil_of_left_ne_nil hpart _

/-- A text without separators at the end goes to the last piece. -/
theorem exists_splitOn_append [DecidableEq α] (s : α) (cs : List α) :
    ∃ front, ∀ ending, s ∉ ending →
      (cs ++ ending).splitOn s = front ++ [cs.rtakeWhile (· != s) ++ ending] := by
  induction cs using List.reverseRecOn with
  | nil =>
      refine ⟨[], fun ending hending => ?_⟩
      rw [List.nil_append, List.splitOn_eq_singleton hending]
      rfl
  | append_singleton cs c ih =>
      by_cases hc : c = s
      · refine ⟨cs.splitOn s, fun ending hending => ?_⟩
        rw [List.rtakeWhile_concat, if_neg (by simp [hc]), hc, List.append_assoc,
          List.singleton_append, List.splitOn_append_cons_self, List.splitOn_eq_singleton hending]
        rfl
      · obtain ⟨front, hfront⟩ := ih
        refine ⟨front, fun ending hending => ?_⟩
        have hcons : s ∉ c :: ending := by
          simp [hending, Ne.symm hc]
        rw [List.rtakeWhile_concat, if_pos (by simp [hc]), List.append_assoc, List.append_assoc]
        exact hfront (c :: ending) hcons

end Nomenclature
