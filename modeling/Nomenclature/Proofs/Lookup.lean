import Nomenclature.Value.Frozen
import Nomenclature.Value.Table

/-!
# Looking entries up

Settings stand under keys that are texts. A text counts as the same only with a text of the same
characters, so a lookup under a text sees through the form of the key. These lemmas say what a
lookup finds in tables that were appended, mapped or filtered, and that putting an entry never makes
a table hold one key twice.
-/

namespace Nomenclature

namespace Value

@[simp]
theorem asText?_text (s : String) : (text s).asText? = some s := rfl

/-- What counts as the same as a text is a text with the same characters. -/
@[simp]
theorem sameAs_text (value : Value) (s : String) :
    value.sameAs (.text s) = true ↔ value.asText? = some s := by
  cases value with
  | text t => simp [sameAs, sameText, eq_comm (a := s)]
  | choice c => simp [sameAs, sameText, asText?, eq_comm (a := s)]
  | _ => simp [sameAs, sameQuantity, quantity?, asText?, isNull]

end Value

namespace Table

variable {α : Type}

/-- No key of the table counts as the same as an earlier one. -/
def Distinct (table : Table α) : Prop :=
  table.Pairwise fun first second => first.1.sameAs second.1 = false

instance (table : Table α) : Decidable table.Distinct :=
  inferInstanceAs (Decidable (List.Pairwise _ table))

theorem distinct_nil : Distinct ([] : Table α) := List.Pairwise.nil

theorem hasKey_eq_isSome (table : Table α) (key : Value) :
    hasKey table key = (lookup? table key).isSome := by
  induction table with
  | nil => rfl
  | cons entry rest ih =>
      cases h : entry.1.sameAs key with
      | true => simp [hasKey, lookup?, h]
      | false => simpa [hasKey, lookup?, h] using ih

theorem hasKey_iff {table : Table α} {key : Value} :
    hasKey table key = true ↔ ∃ item, lookup? table key = some item := by
  rw [hasKey_eq_isSome, Option.isSome_iff_exists]

theorem hasKey_eq_false_iff {table : Table α} {key : Value} :
    hasKey table key = false ↔ lookup? table key = none := by
  rw [hasKey_eq_isSome, Option.isSome_eq_false_iff, Option.isNone_iff_eq_none]

@[simp]
theorem lookup?_nil (key : Value) : lookup? ([] : Table α) key = none := rfl

theorem lookup?_cons (entry : Value × α) (rest : Table α) (key : Value) :
    lookup? (entry :: rest) key =
      if entry.1.sameAs key then some entry.2 else lookup? rest key := by
  cases h : entry.1.sameAs key <;> simp [lookup?, h]

theorem lookup?_append (first second : Table α) (key : Value) :
    lookup? (first ++ second) key = (lookup? first key).or (lookup? second key) := by
  induction first with
  | nil => simp
  | cons entry rest ih =>
      rw [List.cons_append, lookup?_cons, lookup?_cons, ih]
      split <;> simp

theorem lookup?_eq_none_iff {table : Table α} {key : Value} :
    lookup? table key = none ↔ ∀ entry ∈ table, entry.1.sameAs key = false := by
  simp [lookup?]

theorem mem_of_lookup? {table : Table α} {key : Value} {item : α}
    (h : lookup? table key = some item) : ∃ k, k.sameAs key = true ∧ (k, item) ∈ table := by
  obtain ⟨⟨k, found⟩, hfind, rfl⟩ := Option.map_eq_some_iff.1 h
  exact ⟨k, by simpa using List.find?_some hfind, List.mem_of_find?_eq_some hfind⟩

theorem lookup?_map {β : Type} (f : α → β) (table : Table α) (key : Value) :
    lookup? (table.map fun entry => (entry.1, f entry.2)) key = (lookup? table key).map f := by
  induction table with
  | nil => rfl
  | cons entry rest ih =>
      rw [List.map_cons, lookup?_cons, lookup?_cons, ih]
      split <;> rfl

/-- Filtering keeps what stands under a key or drops it, if it treats all forms of it alike. -/
theorem lookup?_filter {table : Table α} {keep : Value × α → Bool} {key : Value} {kept : Bool}
    (hkeep : ∀ entry : Value × α, entry.1.sameAs key = true → keep entry = kept) :
    lookup? (table.filter keep) key = if kept then lookup? table key else none := by
  induction table with
  | nil => simp
  | cons entry rest ih =>
      rw [lookup?_cons]
      by_cases hsame : entry.1.sameAs key = true
      · have hkept := hkeep entry hsame
        cases kept with
        | true => simp [hkept, lookup?_cons, hsame]
        | false => simpa [List.filter_cons, hkept] using ih
      · rw [if_neg hsame, ← ih, List.filter_cons]
        split
        · rw [lookup?_cons, if_neg hsame]
        · rfl

/-- After a put an entry is as it was, or it holds the new item under the new key or an old one. -/
theorem mem_put {table : Table α} {key : Value} {item : α} {entry : Value × α}
    (h : entry ∈ put key item table) :
    entry ∈ table ∨ entry.2 = item ∧ (entry.1 = key ∨ ∃ old ∈ table, old.1 = entry.1) := by
  induction table with
  | nil =>
      obtain rfl : entry = (key, item) := by simpa [put] using h
      exact .inr ⟨rfl, .inl rfl⟩
  | cons first rest ih =>
      rw [put] at h
      split at h
      · rcases List.mem_cons.1 h with rfl | h
        · exact .inr ⟨rfl, .inr ⟨first, by simp, rfl⟩⟩
        · exact .inl (List.mem_cons_of_mem first h)
      · rcases List.mem_cons.1 h with rfl | h
        · exact .inl (by simp)
        · rcases ih h with h | ⟨hitem, h | ⟨old, hold, hsame⟩⟩
          · exact .inl (List.mem_cons_of_mem first h)
          · exact .inr ⟨hitem, .inl h⟩
          · exact .inr ⟨hitem, .inr ⟨old, List.mem_cons_of_mem first hold, hsame⟩⟩

/-- Putting an entry repeats no key. -/
theorem Distinct.put {table : Table α} (hdistinct : table.Distinct) (key : Value) (item : α) :
    (put key item table).Distinct := by
  induction table with
  | nil => exact List.pairwise_singleton ..
  | cons first rest ih =>
      obtain ⟨hfirst, hrest⟩ := List.pairwise_cons.1 hdistinct
      rw [Table.put]
      split
      · exact List.pairwise_cons.2 ⟨hfirst, hrest⟩
      · rename_i hkey
        refine List.pairwise_cons.2 ⟨fun entry hentry => ?_, ih hrest⟩
        rcases mem_put hentry with hold | ⟨-, hnew | ⟨old, hold, hsame⟩⟩
        · exact hfirst entry hold
        · rw [hnew]
          simpa using hkey
        · rw [← hsame]
          exact hfirst old hold

end Table

section Preservation

variable {P : Value → Prop}

/-- What holds of two values holds of the one that is taken. -/
theorem Value.orElse_of {first second : Value} (hfirst : P first) (hsecond : P second) :
    P (first.orElse second) := by
  rw [orElse]
  split
  · exact hsecond
  · exact hfirst

/-- What holds of all values of a table and of null holds of what is found under a name. -/
theorem Entries.getD_of {entries : Entries} (h : ∀ entry ∈ entries, P entry.2) (name : String)
    {otherwise : Value} (hotherwise : P otherwise) : P (getD entries name otherwise) := by
  rw [getD]
  cases hlookup : Table.lookup? entries (.text name) with
  | none => exact hotherwise
  | some value =>
      obtain ⟨key, -, hentry⟩ := Table.mem_of_lookup? hlookup
      exact h _ hentry

end Preservation

theorem Value.freezeEntries_eq_map (entries : Entries) :
    freezeEntries entries = entries.map fun entry => (entry.1, entry.2.freeze) := by
  induction entries with
  | nil => rfl
  | cons entry rest ih => rw [freezeEntries, ih, List.map_cons]

theorem Value.freezeItems_eq_map (items : List Value) : freezeItems items = items.map freeze := by
  induction items with
  | nil => rfl
  | cons item rest ih => rw [freezeItems, ih, List.map_cons]

end Nomenclature
