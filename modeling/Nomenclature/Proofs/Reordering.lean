import Nomenclature.Proofs.Sameness

/-!
# Values with their entries in another order

A mapping may be written in any order of its entries, and so may every mapping inside it. What is
looked up under a name is then the same but for the order of entries further down. Such values count
as the same and are written alike, frozen or not: equality and documents see a mapping as a finite
map.
-/

namespace Nomenclature

section Rel

variable {α β γ δ : Type _} {R R' : α → β → Prop} {S : γ → δ → Prop} {a : Option α} {b : Option β}

theorem rel_imp (h : Option.Rel R a b) (himp : ∀ x, a = some x → ∀ y, R x y → R' x y) :
    Option.Rel R' a b := by
  cases h with
  | none => exact .none
  | some h => exact .some (himp _ rfl _ h)

theorem rel_map {f : α → γ} {g : β → δ} (h : Option.Rel R a b)
    (hmap : ∀ x y, R x y → S (f x) (g y)) : Option.Rel S (a.map f) (b.map g) := by
  cases h with
  | none => exact .none
  | some h => exact .some (hmap _ _ h)

theorem exists_of_rel_some {x : α} (h : Option.Rel R (some x) b) : ∃ y, b = some y ∧ R x y := by
  cases h with
  | some h => exact ⟨_, rfl, h⟩

theorem exists_of_rel_some' {y : β} (h : Option.Rel R a (some y)) : ∃ x, a = some x ∧ R x y := by
  cases h with
  | some h => exact ⟨_, rfl, h⟩

end Rel

namespace Table

variable {α β : Type} {table other : Table α}

theorem Distinct.lookup?_eq_some_iff (htable : table.Distinct) {key : Value} {item : α} :
    lookup? table key = some item ↔ ∃ k, k.sameAs key = true ∧ (k, item) ∈ table := by
  constructor
  · exact mem_of_lookup?
  · rintro ⟨k, hkey, hmem⟩
    exact htable.lookup?_of_mem hkey hmem

theorem Distinct.perm (htable : table.Distinct) (hperm : table.Perm other) : other.Distinct := by
  have hsymm {first second : Value × α} (h : first.1.sameAs second.1 = false) :
      second.1.sameAs first.1 = false := by
    rw [Bool.eq_false_iff] at h ⊢
    exact fun hsame => h (Value.sameAs_symm hsame)
  exact (hperm.pairwise_iff hsymm).1 htable

/-- In a table without repeated keys the order of entries makes no difference to a lookup. -/
theorem Distinct.lookup?_perm (htable : table.Distinct) (hperm : table.Perm other) (key : Value) :
    lookup? table key = lookup? other key := by
  apply Option.ext
  intro item
  rw [htable.lookup?_eq_some_iff, (htable.perm hperm).lookup?_eq_some_iff]
  simp only [hperm.mem_iff]

theorem AreNamed.perm (htable : AreNamed table) (hperm : table.Perm other) : AreNamed other :=
  ⟨fun entry hentry => htable.names entry (hperm.mem_iff.2 hentry), htable.distinct.perm hperm⟩

/-- A named table finds an item under a name exactly if it has an entry of both. -/
theorem AreNamed.lookup?_eq_some_iff (htable : AreNamed table) {name : String} {item : α} :
    lookup? table (.text name) = some item ↔ (.text name, item) ∈ table := by
  rw [htable.distinct.lookup?_eq_some_iff]
  constructor
  · rintro ⟨k, hkey, hmem⟩
    obtain ⟨s, hs⟩ := htable.names _ hmem
    obtain rfl : k = .text s := hs
    obtain rfl : s = name := by simpa using hkey
    exact hmem
  · exact fun hmem => ⟨_, Value.sameAs_refl _, hmem⟩

theorem AreNamed.lookup?_of_mem (htable : AreNamed table) {entry : Value × α}
    (hentry : entry ∈ table) :
    ∃ name, entry.1 = .text name ∧ lookup? table (.text name) = some entry.2 := by
  obtain ⟨name, hname⟩ := htable.names entry hentry
  exact ⟨name, hname, htable.lookup?_eq_some_iff.2 (hname ▸ hentry)⟩

/-- Items that are related place by place are related under each key. -/
theorem rel_lookup?_of_keys {R : α → β → Prop} {others : Table β}
    (hkeys : table.map (·.1) = others.map (·.1))
    (h : List.Forall₂ R (table.map (·.2)) (others.map (·.2))) (key : Value) :
    Option.Rel R (lookup? table key) (lookup? others key) := by
  induction table generalizing others with
  | nil =>
      obtain rfl : others = [] := List.map_eq_nil_iff.1 hkeys.symm
      exact .none
  | cons entry rest ih =>
      cases others with
      | nil => cases hkeys
      | cons other others =>
          obtain ⟨hkey, hkeys⟩ := List.cons.inj hkeys
          obtain ⟨hfirst, hrest⟩ := List.forall₂_cons.1 h
          have hsame : entry.1 = other.1 := hkey
          rw [lookup?_cons, lookup?_cons, hsame]
          split
          · exact .some hfirst
          · exact ih hkeys hrest

end Table

namespace Value

/-- The same data but for the order of the entries of mappings with texts as keys, at any depth. -/
inductive Reordered : Value → Value → Prop
  | same (v : Value) : Reordered v v
  | list {items others : List Value} (hitems : List.Forall₂ Reordered items others) :
      Reordered (.list items) (.list others)
  | mapping {frozen : Bool} {entries moved others : Entries} (hnamed : Table.AreNamed entries)
      (hkeys : entries.map (·.1) = moved.map (·.1))
      (hvalues : List.Forall₂ Reordered (entries.map (·.2)) (moved.map (·.2)))
      (hperm : moved.Perm others) : Reordered (.mapping frozen entries) (.mapping frozen others)

theorem Reordered.of_perm {frozen : Bool} {entries others : Entries}
    (hnamed : Table.AreNamed entries) (hperm : entries.Perm others) :
    Reordered (.mapping frozen entries) (.mapping frozen others) :=
  .mapping hnamed rfl (List.forall₂_same.2 fun value _ => .same value) hperm

end Value

/-- The same under each name, but for the order of entries further down. -/
def Entries.Reordered (entries others : Entries) : Prop :=
  ∀ name, Option.Rel Value.Reordered (Table.lookup? entries (.text name))
    (Table.lookup? others (.text name))

theorem Entries.Reordered.refl (entries : Entries) : Entries.Reordered entries entries := by
  intro name
  cases Table.lookup? entries (.text name) with
  | none => exact .none
  | some value => exact .some (.same value)

namespace Value

variable {v w : Value}

/-- Reordered values are one value, lists item by item, or mappings with texts as keys that hold the
same under each. -/
theorem Reordered.inversion (h : v.Reordered w) :
    v = w ∨
      (∃ items others, v = .list items ∧ w = .list others ∧ List.Forall₂ Reordered items others) ∨
        ∃ frozen entries others, v = .mapping frozen entries ∧ w = .mapping frozen others ∧
          Table.AreNamed entries ∧ Table.AreNamed others ∧ Entries.Reordered entries others := by
  cases h with
  | same => exact .inl rfl
  | list hitems => exact .inr (.inl ⟨_, _, rfl, rfl, hitems⟩)
  | mapping hnamed hkeys hvalues hperm =>
      have hmoved := hnamed.of_keys hkeys
      refine .inr (.inr ⟨_, _, _, rfl, rfl, hnamed, hmoved.perm hperm, fun name => ?_⟩)
      rw [← hmoved.distinct.lookup?_perm hperm]
      exact Table.rel_lookup?_of_keys hkeys hvalues (.text name)

/-- Two values that count as the same and are written alike. -/
structure Interchangeable (v w : Value) : Prop where
  same : v.sameAs w = true
  kinds : v.SameKinds w

namespace Interchangeable

theorem refl (value : Value) : Interchangeable value value :=
  ⟨sameAs_refl value, .same value⟩

theorem agrees (h : Interchangeable v w) : v.document.Agrees w.document :=
  (agrees_iff_sameKinds h.same).2 h.kinds

theorem list {items others : List Value} (h : List.Forall₂ Interchangeable items others) :
    Interchangeable (.list items) (.list others) :=
  ⟨sameAs_list_iff.2 ⟨others, rfl, h.imp fun _ _ h => h.same⟩,
    .sequence rfl rfl (h.imp fun _ _ h => h.kinds)⟩

theorem tuple {items others : List Value} (h : List.Forall₂ Interchangeable items others) :
    Interchangeable (.tuple items) (.tuple others) :=
  ⟨sameAs_tuple_iff.2 ⟨others, rfl, h.imp fun _ _ h => h.same⟩,
    .sequence rfl rfl (h.imp fun _ _ h => h.kinds)⟩

/-- Built settings, field by field. -/
theorem record {fields others : List (String × Value)} (hv : v.fields? = some fields)
    (hw : w.fields? = some others) (hnames : fields.map (·.1) = others.map (·.1))
    (h : List.Forall₂ Interchangeable (fields.map (·.2)) (others.map (·.2))) :
    Interchangeable v w :=
  ⟨(sameAs_iff_fields? hv).2 ⟨others, hw, hnames, h.imp fun _ _ h => h.same⟩,
    .record hv hw (h.imp fun _ _ h => h.kinds)⟩

/-- Mappings with texts as keys, name by name. -/
theorem mapping {frozen frozen' : Bool} {entries others : Entries}
    (hentries : Table.AreNamed entries) (hothers : Table.AreNamed others)
    (h : ∀ name, Option.Rel Interchangeable (Table.lookup? entries (.text name))
      (Table.lookup? others (.text name))) :
    Interchangeable (.mapping frozen entries) (.mapping frozen' others) := by
  constructor
  · rw [sameAs_mapping_iff]
    constructor
    · intro entry hentry
      obtain ⟨name, hname, hvalue⟩ := hentries.lookup?_of_mem hentry
      obtain ⟨other, hother, hsame⟩ := exists_of_rel_some (hvalue ▸ h name)
      have hmem := hothers.lookup?_eq_some_iff.1 hother
      exact ⟨_, hmem, hname ▸ sameAs_refl _, hsame.same⟩
    · intro other hother
      obtain ⟨name, hname, hvalue⟩ := hothers.lookup?_of_mem hother
      obtain ⟨entry, hentry, hsame⟩ := exists_of_rel_some' (hvalue ▸ h name)
      have hmem := hentries.lookup?_eq_some_iff.1 hentry
      exact ⟨_, hmem, hname ▸ sameAs_refl _, hsame.same⟩
  · refine .mapping rfl rfl ⟨hentries, hothers⟩ fun name => ?_
    exact rel_imp (h name) fun _ _ _ h => h.kinds

end Interchangeable

/-- Reordered values are interchangeable, as they are and frozen; the induction carries both. -/
theorem Reordered.interchangeable_and_freeze (h : v.Reordered w) :
    Interchangeable v w ∧ Interchangeable v.freeze w.freeze := by
  induction v using induction generalizing w with
  | step v ih =>
  rcases h.inversion with rfl | ⟨items, others, rfl, rfl, hitems⟩ |
    ⟨frozen, entries, others, rfl, rfl, hnamed, hnamed', hentries⟩
  · exact ⟨.refl v, .refl v.freeze⟩
  · have hboth : List.Forall₂ (fun item other => Interchangeable item other ∧
        Interchangeable item.freeze other.freeze) items others := by
      refine (forall₂_iff_of_zip fun pair hpair => ?_).1 hitems
      have hpair' := List.forall₂_zip hitems hpair
      exact iff_of_true hpair' (ih pair.1 (List.of_mem_zip hpair).1 hpair')
    refine ⟨.list (hboth.imp fun _ _ h => h.1), ?_⟩
    rw [freeze, freeze, freezeItems_eq_map, freezeItems_eq_map]
    apply Interchangeable.tuple
    rw [List.forall₂_map_left_iff, List.forall₂_map_right_iff]
    exact hboth.imp fun _ _ h => h.2
  · have hboth (name : String) : Option.Rel (fun value other => Interchangeable value other ∧
        Interchangeable value.freeze other.freeze)
        (Table.lookup? entries (.text name)) (Table.lookup? others (.text name)) := by
      refine rel_imp (hentries name) fun value hvalue other hreordered => ?_
      obtain ⟨key, -, hmem⟩ := Table.mem_of_lookup? hvalue
      exact ih value (List.mem_append_right _ (List.mem_map_of_mem hmem)) hreordered
    refine ⟨.mapping hnamed hnamed' fun name => ?_, ?_⟩
    · exact rel_imp (hboth name) fun _ _ _ h => h.1
    · rw [freeze, freeze, freezeEntries_eq_map, freezeEntries_eq_map]
      refine .mapping (hnamed.map _) (hnamed'.map _) fun name => ?_
      rw [Table.lookup?_map, Table.lookup?_map]
      exact rel_map (hboth name) fun _ _ h => h.2

theorem Reordered.interchangeable (h : v.Reordered w) : Interchangeable v w :=
  h.interchangeable_and_freeze.1

theorem Reordered.freeze (h : v.Reordered w) : Interchangeable v.freeze w.freeze :=
  h.interchangeable_and_freeze.2

end Value

/-! ## What a reader sees -/

namespace Entries.Reordered

variable {entries others : Entries}

/-- What holds of all entries, and is no matter of their order further down, is no matter of the
order in which they stand. -/
theorem forall_iff {P : Value × Value → Prop} (hentries : Table.AreNamed entries)
    (hothers : Table.AreNamed others) (h : Entries.Reordered entries others)
    (hP : ∀ name v w, Value.Reordered v w → (P (.text name, v) ↔ P (.text name, w))) :
    (∀ entry ∈ entries, P entry) ↔ ∀ other ∈ others, P other := by
  constructor
  · rintro hall ⟨key, other⟩ hother
    obtain ⟨name, rfl, hfound⟩ := hothers.lookup?_of_mem hother
    obtain ⟨value, hvalue, hreordered⟩ := exists_of_rel_some' (hfound ▸ h name)
    exact (hP name value other hreordered).1 (hall _ (hentries.lookup?_eq_some_iff.1 hvalue))
  · rintro hall ⟨key, value⟩ hentry
    obtain ⟨name, rfl, hfound⟩ := hentries.lookup?_of_mem hentry
    obtain ⟨other, hother, hreordered⟩ := exists_of_rel_some (hfound ▸ h name)
    exact (hP name value other hreordered).2 (hall _ (hothers.lookup?_eq_some_iff.1 hother))

theorem isEmpty_eq (hentries : Table.AreNamed entries) (hothers : Table.AreNamed others)
    (h : Entries.Reordered entries others) : entries.isEmpty = others.isEmpty := by
  have hnone := h.forall_iff (P := fun _ => False) hentries hothers fun _ _ _ _ => Iff.rfl
  rw [Bool.eq_iff_iff, List.isEmpty_iff, List.isEmpty_iff]
  simpa only [List.eq_nil_iff_forall_not_mem] using hnone

end Entries.Reordered

namespace Value

variable {v w v' w' : Value}

theorem Reordered.asText?_eq (h : v.Reordered w) : v.asText? = w.asText? := by
  rcases h.inversion with rfl | ⟨items, others, rfl, rfl, -⟩ |
    ⟨frozen, entries, others, rfl, rfl, -⟩ <;> rfl

theorem Reordered.isNull_eq (h : v.Reordered w) : v.isNull = w.isNull := by
  rcases h.inversion with rfl | ⟨items, others, rfl, rfl, -⟩ |
    ⟨frozen, entries, others, rfl, rfl, -⟩ <;> rfl

theorem Reordered.isTruthy_eq (h : v.Reordered w) : v.isTruthy = w.isTruthy := by
  rcases h.inversion with rfl | ⟨items, others, rfl, rfl, hitems⟩ |
    ⟨frozen, entries, others, rfl, rfl, hnamed, hnamed', hentries⟩
  · rfl
  · cases hitems <;> rfl
  · rw [isTruthy, isTruthy, hentries.isEmpty_eq hnamed hnamed']

theorem Reordered.orElse (hfirst : v.Reordered w) (hsecond : v'.Reordered w') :
    (v.orElse v').Reordered (w.orElse w') := by
  rw [Value.orElse, Value.orElse, hfirst.isNull_eq]
  split
  · exact hsecond
  · exact hfirst

end Value

namespace Entries.Reordered

variable {entries others : Entries}

theorem getD (h : Entries.Reordered entries others) (name : String) (otherwise : Value) :
    (Entries.getD entries name otherwise).Reordered (Entries.getD others name otherwise) := by
  have hrel := h name
  rw [Entries.getD, Entries.getD]
  generalize Table.lookup? entries (.text name) = value at hrel ⊢
  generalize Table.lookup? others (.text name) = other at hrel ⊢
  cases hrel with
  | none => exact .same otherwise
  | some hrel => exact hrel

theorem named (h : Entries.Reordered entries others) (name : String) :
    (Entries.named entries name).Reordered (Entries.named others name) :=
  h.getD name .null

theorem either (h : Entries.Reordered entries others) (name other : String) (otherwise : Value) :
    (Entries.either entries name other otherwise).Reordered
      (Entries.either others name other otherwise) :=
  (h.named name).orElse ((h.named other).orElse (.same otherwise))

end Entries.Reordered

end Nomenclature
