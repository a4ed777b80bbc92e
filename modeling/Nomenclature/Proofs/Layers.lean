import Nomenclature.Configuration.Layers
import Nomenclature.Proofs.Equivalence

/-!
# What merged layers hold

Merging takes an entry over unless it is null or its key was taken over before. By induction over
the entries of the layers, a lookup in the merged table finds what the first layer sets that sets
the key at all, and the merged table holds no null and repeats no key.
-/

namespace Nomenclature

/-- A layer as a caller writes it: every key is a text, and none stands twice. -/
structure Entries.IsLayer (entries : Entries) : Prop where
  texts : ∀ entry ∈ entries, entry.1.asText?.isSome
  distinct : Table.Distinct entries

/-- Freezing changes no key. -/
theorem Entries.IsLayer.freezeEntries {entries : Entries} (hentries : entries.IsLayer) :
    Entries.IsLayer (Value.freezeEntries entries) := by
  rw [Value.freezeEntries_eq_map]
  constructor
  · intro entry hentry
    obtain ⟨old, hold, rfl⟩ := List.mem_map.1 hentry
    exact hentries.texts old hold
  · exact List.pairwise_map.2 hentries.distinct

namespace Layers

/-- The value that a layer sets under a key: the first there that is not null. -/
def set? (layer : Entries) (key : Value) : Option Value :=
  (layer.find? fun entry => entry.1.sameAs key && !entry.2.isNull).map (·.2)

/-- The value that overrides, or else a raw configuration, set under a key; null if neither does. -/
def value (overrides raw : Entries) (key : String) : Value :=
  (Entries.named overrides key).orElse (Entries.named raw key)

@[simp]
theorem set?_nil (key : Value) : set? [] key = none := rfl

theorem set?_cons (entry : Value × Value) (rest : Entries) (key : Value) :
    set? (entry :: rest) key =
      if entry.1.sameAs key && !entry.2.isNull then some entry.2 else set? rest key := by
  cases h : entry.1.sameAs key && !entry.2.isNull <;> simp [set?, h]

/-- Taking an entry over adds its value where nothing was known under its key. -/
theorem lookup?_take (known : Entries) (entry : Value × Value) (key : Value) :
    Table.lookup? (take known entry) key = (Table.lookup? known key).or (set? [entry] key) := by
  rw [set?_cons, set?_nil, take]
  cases hnull : entry.2.isNull with
  | true => simp
  | false =>
      cases hsame : entry.1.sameAs key with
      | true =>
          rw [Table.hasKey_eq_isSome, Table.lookup?_congr hsame]
          cases hknown : Table.lookup? known key with
          | none => simp [Table.lookup?_append, Table.lookup?_cons, hknown, hsame]
          | some found => simp [hknown]
      | false =>
          cases hknown : Table.hasKey known entry.1 with
          | true => simp
          | false => simp [Table.lookup?_append, Table.lookup?_cons, hsame]

theorem lookup?_foldl_take (layer known : Entries) (key : Value) :
    Table.lookup? (layer.foldl take known) key =
      (Table.lookup? known key).or (set? layer key) := by
  induction layer generalizing known with
  | nil => simp
  | cons entry rest ih =>
      rw [List.foldl_cons, ih, lookup?_take, set?_cons, set?_cons, Option.or_assoc]
      split <;> simp

/-- The first layer that sets a key decides. -/
theorem lookup?_union (layers : List Entries) (key : Value) :
    Table.lookup? (union layers) key = layers.findSome? (set? · key) := by
  have hfold (known : Entries) :
      Table.lookup? (layers.foldl (fun known layer => layer.foldl take known) known) key =
        (Table.lookup? known key).or (layers.findSome? (set? · key)) := by
    induction layers generalizing known with
    | nil => simp
    | cons layer rest ih =>
        rw [List.foldl_cons, ih, lookup?_foldl_take, Option.or_assoc, List.findSome?_cons]
        cases set? layer key <;> simp
  exact (hfold []).trans (by simp)

/-- Where no key is repeated, a layer sets what it holds unless that is null. -/
theorem set?_eq_filter {layer : Entries} (hdistinct : Table.Distinct layer) (key : Value) :
    set? layer key = (Table.lookup? layer key).filter fun value => !value.isNull := by
  induction layer with
  | nil => rfl
  | cons entry rest ih =>
      obtain ⟨hfirst, hrest⟩ := List.pairwise_cons.1 hdistinct
      rw [set?_cons, Table.lookup?_cons, ih hrest]
      cases hsame : entry.1.sameAs key with
      | false => simp
      | true =>
          have habsent := Table.lookup?_eq_none_of_first hfirst hsame
          cases hnull : entry.2.isNull <;> simp [habsent, hnull, Option.filter_some]

theorem set?_eq_none_of_lookup? {layer : Entries} {key : Value}
    (h : Table.lookup? layer key = none) : set? layer key = none := by
  have habsent := Table.lookup?_eq_none_iff.1 h
  simp only [set?, Option.map_eq_none_iff, List.find?_eq_none]
  intro entry hentry
  simp [habsent entry hentry]

/-- A layer sets nothing under a key that it does not hold. -/
theorem set?_eq_none_of_hasKey {layer : Entries} {key : Value}
    (h : Table.hasKey layer key = false) : set? layer key = none :=
  set?_eq_none_of_lookup? (Table.hasKey_eq_false_iff.1 h)

theorem set?_eq_none_iff {layer : Entries} (hdistinct : Table.Distinct layer) (key : String) :
    set? layer (.text key) = none ↔ (Entries.named layer key).isNull = true := by
  rw [set?_eq_filter hdistinct, Entries.named, Entries.getD]
  cases Table.lookup? layer (.text key) <;> simp [Value.isNull]

theorem set?_eq_some {layer : Entries} (hdistinct : Table.Distinct layer) {key : String}
    (hset : (Entries.named layer key).isNull = false) :
    set? layer (.text key) = some (Entries.named layer key) := by
  rw [set?_eq_filter hdistinct]
  rw [Entries.named, Entries.getD] at hset ⊢
  cases h : Table.lookup? layer (.text key) with
  | none => simp [h, Value.isNull] at hset
  | some found => simpa [h] using hset

/-- A merged table holds what the two upper layers set, and below that what the defaults do. -/
theorem lookup?_merged {overrides raw : Entries} (hoverrides : Table.Distinct overrides)
    (hraw : Table.Distinct raw) (defaults : Entries) (key : String) :
    Table.lookup? (union [overrides, raw, defaults]) (.text key) =
      if (value overrides raw key).isNull then set? defaults (.text key)
      else some (value overrides raw key) := by
  rw [lookup?_union, value, Value.orElse]
  simp only [List.findSome?_cons, List.findSome?_nil]
  cases hfirst : (Entries.named overrides key).isNull with
  | false => simp [set?_eq_some hoverrides hfirst, hfirst]
  | true =>
      rw [(set?_eq_none_iff hoverrides key).2 hfirst]
      cases hsecond : (Entries.named raw key).isNull with
      | false => simp [set?_eq_some hraw hsecond, hsecond]
      | true =>
          rw [(set?_eq_none_iff hraw key).2 hsecond]
          cases h : set? defaults (.text key) <;> simp [hsecond]

/-- Taking over a layer that repeats no key adds what it sets under keys that were not known. -/
theorem foldl_take {layer : Entries} (hlayer : Table.Distinct layer) (known : Entries) :
    layer.foldl take known = known ++ layer.filter fun entry =>
      !entry.2.isNull && !Table.hasKey known entry.1 := by
  induction layer generalizing known with
  | nil => simp
  | cons entry rest ih =>
      obtain ⟨hfirst, hrest⟩ := List.pairwise_cons.1 hlayer
      rw [List.foldl_cons, ih hrest, take, List.filter_cons]
      cases hnull : entry.2.isNull with
      | true => simp
      | false =>
          cases hknown : Table.hasKey known entry.1 with
          | true => simp
          | false =>
              have hsame : ∀ other ∈ rest, Table.hasKey (known ++ [entry]) other.1 =
                  Table.hasKey known other.1 := by
                intro other hother
                simp [Table.hasKey, hfirst other hother]
              have hadded : (rest.filter fun other =>
                    !other.2.isNull && !Table.hasKey (known ++ [entry]) other.1) =
                  rest.filter fun other =>
                    !other.2.isNull && !Table.hasKey known other.1 := by
                apply List.filter_congr
                intro other hother
                rw [hsame other hother]
              simp [hadded]

/-- Every entry of a merged table is set by one of the layers. -/
theorem mem_of_mem_union {layers : List Entries} {entry : Value × Value}
    (h : entry ∈ union layers) : ∃ layer ∈ layers, entry ∈ layer ∧ entry.2.isNull = false := by
  have hentries (layer known : Entries) (h : entry ∈ layer.foldl take known) :
      entry ∈ known ∨ entry ∈ layer ∧ entry.2.isNull = false := by
    induction layer generalizing known with
    | nil => exact .inl h
    | cons first rest ih =>
        rcases ih _ h with h | ⟨hmem, hset⟩
        · rw [take] at h
          split at h
          · exact .inl h
          · rename_i hset
            rcases List.mem_append.1 h with h | h
            · exact .inl h
            · obtain rfl : entry = first := by simpa using h
              exact .inr ⟨by simp, by simp_all⟩
        · exact .inr ⟨List.mem_cons_of_mem first hmem, hset⟩
  have hlayers (layers : List Entries) (known : Entries)
      (h : entry ∈ layers.foldl (fun known layer => layer.foldl take known) known) :
      entry ∈ known ∨ ∃ layer ∈ layers, entry ∈ layer ∧ entry.2.isNull = false := by
    induction layers generalizing known with
    | nil => exact .inl h
    | cons layer rest ih =>
        rcases ih _ h with h | ⟨found, hfound, hset⟩
        · rcases hentries layer known h with h | hset
          · exact .inl h
          · exact .inr ⟨layer, by simp, hset⟩
        · exact .inr ⟨found, List.mem_cons_of_mem layer hfound, hset⟩
  simpa using hlayers layers [] h

theorem distinct_union (layers : List Entries) : Table.Distinct (union layers) := by
  have htake (known : Entries) (hknown : Table.Distinct known) (entry : Value × Value) :
      Table.Distinct (take known entry) := by
    rw [take]
    split
    · exact hknown
    · rename_i hnew
      refine List.pairwise_append.2 ⟨hknown, List.pairwise_singleton .., ?_⟩
      intro old hold other hother
      obtain rfl : other = entry := by simpa using hother
      simp only [Table.hasKey, Bool.or_eq_true, not_or, List.any_eq_true, not_exists] at hnew
      simpa [hold] using hnew.2 old
  have hfold (known : Entries) (hknown : Table.Distinct known) :
      Table.Distinct (layers.foldl (fun known layer => layer.foldl take known) known) := by
    refine List.foldlRecOn layers _ hknown fun known hknown layer _ => ?_
    exact List.foldlRecOn layer _ hknown fun known hknown entry _ => htake known hknown entry
  exact hfold [] Table.distinct_nil

end Layers

end Nomenclature
