import Nomenclature.Proofs.Structure

/-!
# Equality of values is an equivalence

Values that count as the same agree with the same values. By induction over the first of them: a
number agrees with what amounts to the same, a text with what is the same text, a container and a
built setting with one whose parts agree with its own, and everything else with itself only. So a
table finds the same entry under all forms of a key, whatever kind of value the key is.
-/

namespace Nomenclature

section

variable {α β : Type _} {R : α → β → Prop} {xs : List α} {ys : List β}

theorem exists_of_forall₂ (h : List.Forall₂ R xs ys) : ∀ x ∈ xs, ∃ y ∈ ys, R x y := by
  induction h with
  | nil => simp
  | @cons x y xs ys hfirst _ ih =>
      refine List.forall_mem_cons.2 ⟨⟨y, List.mem_cons_self, hfirst⟩, fun x hx => ?_⟩
      obtain ⟨other, hother, hrel⟩ := ih x hx
      exact ⟨other, List.mem_cons_of_mem y hother, hrel⟩

theorem forall_of_forall₂ {P : β → Prop} (h : List.Forall₂ R xs ys) (hP : ∀ x y, R x y → P y) :
    ∀ y ∈ ys, P y := by
  intro y hy
  obtain ⟨x, -, hrel⟩ := exists_of_forall₂ h.flip y hy
  exact hP x y hrel

theorem exists_forall₂_iff (xs : List α) :
    (∃ ys, List.Forall₂ R xs ys) ↔ ∀ x ∈ xs, ∃ y, R x y := by
  induction xs with
  | nil => simp
  | cons x xs ih =>
      rw [List.forall_mem_cons, ← ih]
      constructor
      · rintro ⟨ys, h⟩
        obtain ⟨y, rest, hfirst, hrest, -⟩ := List.forall₂_cons_left_iff.1 h
        exact ⟨⟨y, hfirst⟩, rest, hrest⟩
      · rintro ⟨⟨y, hfirst⟩, rest, hrest⟩
        exact ⟨y :: rest, .cons hfirst hrest⟩

theorem forall_mem_iff_of_forall₂ {P : α → Prop} {Q : β → Prop}
    (h : List.Forall₂ R xs ys) (hiff : ∀ x y, R x y → (P x ↔ Q y)) :
    (∀ x ∈ xs, P x) ↔ ∀ y ∈ ys, Q y := by
  induction h with
  | nil => simp
  | @cons x y xs ys hfirst _ ih =>
      rw [List.forall_mem_cons, List.forall_mem_cons, hiff x y hfirst, ih]

end

section

variable {α : Type _} {R : α → α → Prop} {xs ys : List α}

theorem forall₂_congr_left (hsame : List.Forall₂ R xs ys)
    (h : ∀ x ∈ xs, ∀ y, R x y → ∀ z, R y z ↔ R x z) (zs : List α) :
    List.Forall₂ R ys zs ↔ List.Forall₂ R xs zs := by
  induction hsame generalizing zs with
  | nil => rfl
  | cons hfirst _ ih =>
      obtain ⟨hhead, htail⟩ := List.forall_mem_cons.1 h
      cases zs with
      | nil => simp
      | cons z zs => rw [List.forall₂_cons, List.forall₂_cons, hhead _ hfirst z, ih htail zs]

/-- Each entry of either list is related to one of the other list. -/
def Covers (R : α → α → Prop) (xs ys : List α) : Prop :=
  (∀ x ∈ xs, ∃ y ∈ ys, R x y) ∧ ∀ y ∈ ys, ∃ x ∈ xs, R x y

theorem Covers.isEmpty_eq (h : Covers R xs ys) : xs.isEmpty = ys.isEmpty := by
  rw [Bool.eq_iff_iff, List.isEmpty_iff, List.isEmpty_iff]
  constructor
  · rintro rfl
    exact List.eq_nil_iff_forall_not_mem.2 fun y hy => by simpa using h.2 y hy
  · rintro rfl
    exact List.eq_nil_iff_forall_not_mem.2 fun x hx => by simpa using h.1 x hx

theorem covers_congr_left (hsame : Covers R xs ys)
    (h : ∀ x ∈ xs, ∀ y, R x y → ∀ z, R y z ↔ R x z) (zs : List α) :
    Covers R ys zs ↔ Covers R xs zs := by
  obtain ⟨hright, hleft⟩ := hsame
  constructor
  · rintro ⟨hys, hzs⟩
    constructor
    · intro x hx
      obtain ⟨y, hy, hxy⟩ := hright x hx
      obtain ⟨z, hz, hyz⟩ := hys y hy
      exact ⟨z, hz, (h x hx y hxy z).1 hyz⟩
    · intro z hz
      obtain ⟨y, hy, hyz⟩ := hzs z hz
      obtain ⟨x, hx, hxy⟩ := hleft y hy
      exact ⟨x, hx, (h x hx y hxy z).1 hyz⟩
  · rintro ⟨hxs, hzs⟩
    constructor
    · intro y hy
      obtain ⟨x, hx, hxy⟩ := hleft y hy
      obtain ⟨z, hz, hxz⟩ := hxs x hx
      exact ⟨z, hz, (h x hx y hxy z).2 hxz⟩
    · intro z hz
      obtain ⟨x, hx, hxz⟩ := hzs z hz
      obtain ⟨y, hy, hxy⟩ := hright x hx
      exact ⟨y, hy, (h x hx y hxy z).2 hxz⟩

end

namespace Value

/-- The entries of mappings are the same if their keys and their values are. -/
def SameEntry (entry other : Value × Value) : Prop :=
  entry.1.sameAs other.1 = true ∧ entry.2.sameAs other.2 = true

section

variable {v w : Value}

theorem sameAs_iff_of_quantity? {q : Quantity} (hv : v.quantity? = some q) :
    v.sameAs w = true ↔ w.quantity? = some q := by
  cases v with
  | boolean b =>
      obtain rfl := Option.some.inj hv
      exact beq_iff_eq
  | integer n =>
      obtain rfl := Option.some.inj hv
      exact beq_iff_eq
  | real x =>
      obtain rfl := Option.some.inj hv
      exact beq_iff_eq
  | _ => simp [quantity?] at hv

theorem sameAs_iff_of_asText? {s : String} (hv : v.asText? = some s) :
    v.sameAs w = true ↔ w.asText? = some s := by
  cases v with
  | text t =>
      obtain rfl := Option.some.inj hv
      exact beq_iff_eq
  | choice c =>
      obtain rfl := Option.some.inj hv
      exact beq_iff_eq
  | _ => simp [asText?] at hv

theorem sameAs_list_iff {items : List Value} :
    (list items).sameAs w = true ↔ ∃ others, w = list others ∧
      List.Forall₂ (fun item other => item.sameAs other = true) items others := by
  cases w <;> simp [sameAs, sameItems_iff]

theorem sameAs_tuple_iff {items : List Value} :
    (tuple items).sameAs w = true ↔ ∃ others, w = tuple others ∧
      List.Forall₂ (fun item other => item.sameAs other = true) items others := by
  cases w <;> simp [sameAs, sameItems_iff]

theorem sameAs_set_iff_covers {frozen : Bool} {items : List Value} :
    (set frozen items).sameAs w = true ↔ ∃ frozen' others, w = set frozen' others ∧
      Covers (fun item other => item.sameAs other = true) items others := by
  cases w with
  | set frozen' others =>
      rw [sameAs_set_iff]
      constructor
      · exact fun h => ⟨frozen', others, rfl, h⟩
      · rintro ⟨_, _, hsame, h⟩
        obtain ⟨rfl, rfl⟩ := set.inj hsame
        exact h
  | _ => simp [sameAs]

theorem sameAs_mapping_iff_covers {frozen : Bool} {entries : Entries} :
    (mapping frozen entries).sameAs w = true ↔ ∃ frozen' others, w = mapping frozen' others ∧
      Covers SameEntry entries others := by
  cases w with
  | mapping frozen' others =>
      rw [sameAs_mapping_iff]
      constructor
      · exact fun h => ⟨frozen', others, rfl, h⟩
      · rintro ⟨_, _, hsame, h⟩
        obtain ⟨rfl, rfl⟩ := mapping.inj hsame
        exact h
  | _ => simp [sameAs]

/-- Built settings are the same if they have the same fields. -/
theorem sameAs_iff_fields? {fields : List (String × Value)} (hv : v.fields? = some fields) :
    v.sameAs w = true ↔ ∃ others, w.fields? = some others ∧
      fields.map (·.1) = others.map (·.1) ∧
      List.Forall₂ (fun field other => field.sameAs other = true) (fields.map (·.2))
        (others.map (·.2)) := by
  cases v with
  | scalarTypes | fragment | identifier | fragmentImport | convention =>
      obtain rfl := Option.some.inj hv
      cases w <;> simp [sameAs, fields?, scalarTypesFields, fragmentFields, identifierFields,
        fragmentImportFields, conventionFields, and_assoc]
  | _ => simp [fields?] at hv

/-- What counts as the same as a value agrees with whatever the value agrees with. -/
theorem sameAs_congr_iff (h : v.sameAs w = true) (u : Value) :
    w.sameAs u = true ↔ v.sameAs u = true := by
  induction v using induction generalizing w u with
  | step v ih =>
  cases hquantity : v.quantity? with
  | some q =>
      have hw := (sameAs_iff_of_quantity? hquantity).1 h
      rw [sameAs_iff_of_quantity? hw, sameAs_iff_of_quantity? hquantity]
  | none =>
  cases htext : v.asText? with
  | some s =>
      have hw := (sameAs_iff_of_asText? htext).1 h
      rw [sameAs_iff_of_asText? hw, sameAs_iff_of_asText? htext]
  | none =>
  cases hfields : v.fields? with
  | some fields =>
      obtain ⟨others, hw, hnames, hparts⟩ := (sameAs_iff_fields? hfields).1 h
      have hheld := (fields?_eq_some hfields).2
      have hpart (part : Value) (hmem : part ∈ fields.map (·.2)) (other : Value)
          (hsame : part.sameAs other = true) := ih part (hheld ▸ hmem) hsame
      have hcongr := forall₂_congr_left hparts hpart
      simp only [sameAs_iff_fields? hw, sameAs_iff_fields? hfields, hcongr, hnames]
  | none =>
  cases v with
  | list items =>
      obtain ⟨others, rfl, hitems⟩ := sameAs_list_iff.1 h
      have hcongr := forall₂_congr_left hitems fun item hitem other hsame => ih item hitem hsame
      simp only [sameAs_list_iff, hcongr]
  | tuple items =>
      obtain ⟨others, rfl, hitems⟩ := sameAs_tuple_iff.1 h
      have hcongr := forall₂_congr_left hitems fun item hitem other hsame => ih item hitem hsame
      simp only [sameAs_tuple_iff, hcongr]
  | set frozen items =>
      obtain ⟨frozen', others, rfl, hitems⟩ := sameAs_set_iff_covers.1 h
      have hcongr := covers_congr_left hitems fun item hitem other hsame => ih item hitem hsame
      simp only [sameAs_set_iff_covers, hcongr]
  | mapping frozen entries =>
      obtain ⟨frozen', others, rfl, hentries⟩ := sameAs_mapping_iff_covers.1 h
      have hentry (entry : Value × Value) (hmem : entry ∈ entries) (other : Value × Value)
          (hsame : SameEntry entry other) (third : Value × Value) :
          SameEntry other third ↔ SameEntry entry third := by
        have hkey := ih entry.1 (List.mem_append_left _ (List.mem_map_of_mem hmem)) hsame.1
        have hvalue := ih entry.2 (List.mem_append_right _ (List.mem_map_of_mem hmem)) hsame.2
        exact and_congr (hkey third.1) (hvalue third.2)
      have hcongr := covers_congr_left hentries hentry
      simp only [sameAs_mapping_iff_covers, hcongr]
  | null | undefined | bytes | callable | node =>
      cases w <;> simp_all [sameAs, isNull]
  | boolean | integer | real => simp [quantity?] at hquantity
  | text | choice => simp [asText?] at htext
  | _ => simp [fields?] at hfields

theorem sameAs_congr (h : v.sameAs w = true) (u : Value) : v.sameAs u = w.sameAs u := by
  rw [Bool.eq_iff_iff, sameAs_congr_iff h u]

theorem sameAs_symm (h : v.sameAs w = true) : w.sameAs v = true :=
  (sameAs_congr_iff h v).2 (sameAs_refl v)

/-- Values that count as the same are the same to every value. -/
theorem sameAs_congr_right (h : v.sameAs w = true) (u : Value) : u.sameAs v = u.sameAs w := by
  rw [Bool.eq_iff_iff]
  constructor
  · intro hv
    rw [sameAs_congr hv]
    exact h
  · intro hw
    rw [sameAs_congr hw]
    exact sameAs_symm h

end

end Value

namespace Table

variable {α : Type} {key other : Value}

theorem lookup?_congr (h : key.sameAs other = true) (table : Table α) :
    lookup? table key = lookup? table other := by
  simp only [lookup?, Value.sameAs_congr_right h]

theorem hasKey_congr (h : key.sameAs other = true) (table : Table α) :
    hasKey table key = hasKey table other := by
  simp only [hasKey, Value.sameAs_congr_right h]

/-- A key of which the first entry has a form stands nowhere behind it. -/
theorem lookup?_eq_none_of_first {first : Value × α} {rest : Table α}
    (hfirst : ∀ entry ∈ rest, first.1.sameAs entry.1 = false)
    (hkey : first.1.sameAs key = true) : lookup? rest key = none := by
  rw [lookup?_eq_none_iff]
  intro entry hentry
  rw [← Bool.not_eq_true]
  intro hagain
  have hrepeated := hfirst entry hentry
  rw [Value.sameAs_congr_right hagain, hkey] at hrepeated
  exact Bool.noConfusion hrepeated

/-- In a table without repeated keys every entry is found under all forms of its key. -/
theorem Distinct.lookup?_of_mem {table : Table α} (hdistinct : table.Distinct) {item : α}
    (hkey : key.sameAs other = true) (hmem : (key, item) ∈ table) :
    lookup? table other = some item := by
  induction table with
  | nil => simp at hmem
  | cons entry rest ih =>
      obtain ⟨hfirst, hrest⟩ := List.pairwise_cons.1 hdistinct
      rcases List.mem_cons.1 hmem with rfl | hmem
      · rw [lookup?_cons, if_pos hkey]
      · have hother : entry.1.sameAs other = false := by
          rw [← Value.sameAs_congr_right hkey]
          exact hfirst _ hmem
        rw [lookup?_cons, hother]
        exact ih hrest hmem

/-- A put sets what stands under all forms of its key and changes nothing else. -/
theorem lookup?_put (item : α) (table : Table α) :
    lookup? (put key item table) other =
      if key.sameAs other then some item else lookup? table other := by
  induction table with
  | nil => rw [put, lookup?_cons]
  | cons entry rest ih =>
      rw [put]
      by_cases hsame : entry.1.sameAs key = true
      · rw [if_pos hsame, lookup?_cons, lookup?_cons, Value.sameAs_congr hsame]
        split <;> rfl
      · rw [if_neg hsame, lookup?_cons, lookup?_cons, ih]
        by_cases hentry : entry.1.sameAs other = true
        · have hkey : ¬ key.sameAs other = true := by
            intro hkey
            apply hsame
            rw [Value.sameAs_congr_right hkey]
            exact hentry
          rw [if_pos hentry, if_neg hkey, if_pos hentry]
        · rw [if_neg hentry, if_neg hentry]

end Table

end Nomenclature
