import Nomenclature.Proofs.Equivalence
import Nomenclature.Proofs.RealText
import Nomenclature.Proofs.WrittenForm

/-!
# Values that count as the same

Truth values, integers and reals count as the same by what they amount to, but each kind is written
in its own way, and a zero keeps its sign. So values that count as the same need not have one
document. They have one exactly if they hold numbers of the same kinds at the same places. In a set,
and under the keys of a mapping that are no texts, no place belongs to an item by itself: items of
sets are written in the order of the texts that show them, and of members that are displayed under
one name only the last is. There the values that meet at a place need not count as the same, and
have to be written alike.
-/

namespace Nomenclature.Value

/-- The same kinds of numbers at the same places, zeros with the same signs. Items of sets, and
members that are displayed under one name, are matched as they are written. -/
inductive SameKinds : Value → Value → Prop
  | same (v : Value) : SameKinds v v
  | real {x y : Binary64} (h : x.isZero = true → x.negative = y.negative) :
      SameKinds (.real x) (.real y)
  | text {v w : Value} {s t : String} (hv : v.asText? = some s) (hw : w.asText? = some t) :
      SameKinds v w
  | sequence {v w : Value} {items others : List Value} (hv : v.asItems? = some items)
      (hw : w.asItems? = some others) (h : List.Forall₂ SameKinds items others) : SameKinds v w
  | mapping {v w : Value} {entries others : Entries} (hv : v.asEntries? = some entries)
      (hw : w.asEntries? = some others)
      (hnames : Table.AreNamed entries ∧ Table.AreNamed others)
      (h : ∀ key, Option.Rel SameKinds (Table.lookup? entries (.text key))
        (Table.lookup? others (.text key))) : SameKinds v w
  | record {v w : Value} {fields others : List (String × Value)} (hv : v.fields? = some fields)
      (hw : w.fields? = some others)
      (h : List.Forall₂ SameKinds (fields.map (·.2)) (others.map (·.2))) : SameKinds v w
  | set {frozen frozen' : Bool} {items others : List Value}
      (h : List.Forall₂ WrittenAlike (inOrder items) (inOrder others)) :
      SameKinds (.set frozen items) (.set frozen' others)
  | unnamed {v w : Value} {entries others : Entries} (hv : v.asEntries? = some entries)
      (hw : w.asEntries? = some others)
      (hnames : ¬ (Table.AreNamed entries ∧ Table.AreNamed others))
      (h : ∀ name, Option.Rel WrittenAlike (Written.last? (displayedMembers entries) name)
        (Written.last? (displayedMembers others) name)) : SameKinds v w

section

variable {v w : Value}

theorem asItems?_of_sameAs {items : List Value} (hv : v.asItems? = some items)
    (h : v.sameAs w = true) : ∃ others, w.asItems? = some others ∧
      List.Forall₂ (fun item other => item.sameAs other = true) items others := by
  cases v with
  | list found =>
      obtain rfl := Option.some.inj hv
      obtain ⟨others, rfl, hitems⟩ := sameAs_list_iff.1 h
      exact ⟨others, rfl, hitems⟩
  | tuple found =>
      obtain rfl := Option.some.inj hv
      obtain ⟨others, rfl, hitems⟩ := sameAs_tuple_iff.1 h
      exact ⟨others, rfl, hitems⟩
  | _ => simp [asItems?] at hv

theorem asEntries?_of_sameAs {entries : Entries} (hv : v.asEntries? = some entries)
    (h : v.sameAs w = true) :
    ∃ others, w.asEntries? = some others ∧ Covers SameEntry entries others := by
  cases v with
  | mapping frozen found =>
      obtain rfl := Option.some.inj hv
      obtain ⟨frozen', others, rfl, hentries⟩ := sameAs_mapping_iff_covers.1 h
      exact ⟨others, rfl, hentries⟩
  | _ => simp [asEntries?] at hv

/-- Mappings that count as the same hold the same under each key. -/
theorem rel_lookup?_of_covers {entries others : Entries} (hothers : Table.Distinct others)
    (h : Covers SameEntry entries others) (key : Value) :
    Option.Rel (fun value other => value.sameAs other = true)
      (Table.lookup? entries key) (Table.lookup? others key) := by
  obtain ⟨hright, hleft⟩ := h
  cases hvalue : Table.lookup? entries key with
  | some value =>
      obtain ⟨name, hname, hmem⟩ := Table.mem_of_lookup? hvalue
      obtain ⟨other, hother, hsame, hvalues⟩ := hright _ hmem
      rw [sameAs_congr hsame] at hname
      rw [hothers.lookup?_of_mem hname hother]
      exact .some hvalues
  | none =>
      cases hother : Table.lookup? others key with
      | none => exact .none
      | some other =>
          obtain ⟨name, hname, hmem⟩ := Table.mem_of_lookup? hother
          obtain ⟨entry, hentry, hsame, -⟩ := hleft _ hmem
          have habsent := Table.lookup?_eq_none_iff.1 hvalue entry hentry
          rw [← sameAs_congr_right hname, hsame] at habsent
          exact Bool.noConfusion habsent

theorem sameKinds_iff_asItems? {items : List Value} (hv : v.asItems? = some items) :
    v.SameKinds w ↔ ∃ others, w.asItems? = some others ∧ List.Forall₂ SameKinds items others := by
  constructor
  · intro h
    cases h with
    | same => exact ⟨items, hv, List.forall₂_same.2 fun item _ => .same item⟩
    | @sequence _ _ found others hv' hw h =>
        obtain rfl : found = items := Option.some.inj (hv'.symm.trans hv)
        exact ⟨others, hw, h⟩
    | real => simp [asItems?] at hv
    | set => simp [asItems?] at hv
    | text hv' => cases v <;> simp [asText?, asItems?] at hv hv'
    | mapping hv' => cases v <;> simp [asItems?, asEntries?] at hv hv'
    | record hv' => cases v <;> simp [asItems?, fields?] at hv hv'
    | unnamed hv' => cases v <;> simp [asItems?, asEntries?] at hv hv'
  · rintro ⟨others, hw, h⟩
    exact .sequence hv hw h

theorem sameKinds_iff_fields? {fields : List (String × Value)} (hv : v.fields? = some fields) :
    v.SameKinds w ↔ ∃ others, w.fields? = some others ∧
      List.Forall₂ SameKinds (fields.map (·.2)) (others.map (·.2)) := by
  constructor
  · intro h
    cases h with
    | same => exact ⟨fields, hv, List.forall₂_same.2 fun field _ => .same field⟩
    | @record _ _ found others hv' hw h =>
        obtain rfl : found = fields := Option.some.inj (hv'.symm.trans hv)
        exact ⟨others, hw, h⟩
    | real => simp [fields?] at hv
    | set => simp [fields?] at hv
    | text hv' => cases v <;> simp [asText?, fields?] at hv hv'
    | sequence hv' => cases v <;> simp [asItems?, fields?] at hv hv'
    | mapping hv' => cases v <;> simp [asEntries?, fields?] at hv hv'
    | unnamed hv' => cases v <;> simp [asEntries?, fields?] at hv hv'
  · rintro ⟨others, hw, h⟩
    exact .record hv hw h

theorem sameKinds_iff_asEntries? {entries others : Entries} (hv : v.asEntries? = some entries)
    (hw : w.asEntries? = some others) (hnames : Table.AreNamed entries ∧ Table.AreNamed others) :
    v.SameKinds w ↔ ∀ key, Option.Rel SameKinds (Table.lookup? entries (.text key))
      (Table.lookup? others (.text key)) := by
  have hrefl (a : Option Value) : Option.Rel SameKinds a a := by
    cases a with
    | none => exact .none
    | some value => exact .some (.same value)
  constructor
  · intro h
    cases h with
    | same =>
        obtain rfl : entries = others := Option.some.inj (hv.symm.trans hw)
        exact fun key => hrefl _
    | @mapping _ _ found found' hv' hw' _ h =>
        obtain rfl : found = entries := Option.some.inj (hv'.symm.trans hv)
        obtain rfl : found' = others := Option.some.inj (hw'.symm.trans hw)
        exact h
    | @unnamed _ _ found found' hv' hw' hunnamed =>
        obtain rfl : found = entries := Option.some.inj (hv'.symm.trans hv)
        obtain rfl : found' = others := Option.some.inj (hw'.symm.trans hw)
        exact absurd hnames hunnamed
    | real => simp [asEntries?] at hv
    | set => simp [asEntries?] at hv
    | text hv' => cases v <;> simp [asText?, asEntries?] at hv hv'
    | sequence hv' => cases v <;> simp [asItems?, asEntries?] at hv hv'
    | record hv' => cases v <;> simp [asEntries?, fields?] at hv hv'
  · exact .mapping hv hw hnames

theorem agrees_iff_sameKinds_of_set {frozen frozen' : Bool} {items others : List Value} :
    (set frozen items).document.Agrees (set frozen' others).document ↔
      (set frozen items).SameKinds (set frozen' others) := by
  constructor
  · exact fun h => .set (agrees_set_iff.1 h)
  · intro h
    cases h with
    | same => exact agrees_refl _
    | set h => exact agrees_set_iff.2 h
    | _ => contradiction

/-- A mapping with other keys than texts is matched by the names under which its keys are
displayed. -/
theorem agrees_iff_sameKinds_of_unnamed {entries others : Entries}
    (hv : v.asEntries? = some entries) (hw : w.asEntries? = some others)
    (hnames : ¬ (Table.AreNamed entries ∧ Table.AreNamed others)) :
    v.document.Agrees w.document ↔ v.SameKinds w := by
  constructor
  · exact fun h => .unnamed hv hw hnames ((agrees_iff_of_asEntries? hv hw).1 h)
  · intro h
    cases h with
    | same => exact agrees_refl v
    | @unnamed _ _ found found' hv' hw' _ h =>
        obtain rfl : found = entries := Option.some.inj (hv'.symm.trans hv)
        obtain rfl : found' = others := Option.some.inj (hw'.symm.trans hw)
        exact (agrees_iff_of_asEntries? hv hw).2 h
    | @mapping _ _ found found' hv' hw' hnamed =>
        obtain rfl : found = entries := Option.some.inj (hv'.symm.trans hv)
        obtain rfl : found' = others := Option.some.inj (hw'.symm.trans hw)
        exact absurd hnamed hnames
    | real => simp [asEntries?] at hv
    | set => simp [asEntries?] at hv
    | text hv' => cases v <;> simp [asText?, asEntries?] at hv hv'
    | sequence hv' => cases v <;> simp [asItems?, asEntries?] at hv hv'
    | record hv' => cases v <;> simp [asEntries?, fields?] at hv hv'

theorem forall₂_agrees_iff {items others : List Value}
    (hsame : List.Forall₂ (fun item other => item.sameAs other = true) items others)
    (h : ∀ item ∈ items, ∀ {other : Value}, item.sameAs other = true →
      (item.document.Agrees other.document ↔ item.SameKinds other)) :
    List.Forall₂ Document.Agrees (items.map document) (others.map document) ↔
      List.Forall₂ SameKinds items others := by
  rw [List.forall₂_map_left_iff, List.forall₂_map_right_iff]
  refine forall₂_iff_of_zip fun pair hpair => ?_
  exact h pair.1 (List.of_mem_zip hpair).1 (List.forall₂_zip hsame hpair)

theorem agrees_iff_sameKinds_refl (value : Value) :
    value.document.Agrees value.document ↔ value.SameKinds value :=
  iff_of_true (agrees_refl value) (.same value)

theorem agrees_iff_sameKinds_real {x y : Binary64} (h : x.quantity = y.quantity) :
    (real x).document.Agrees (real y).document ↔ (real x).SameKinds (real y) := by
  have htext := Binary64.text_eq_iff h Document.realLayout
  constructor
  · intro hagrees
    cases hagrees with
    | real hagrees => exact .real (htext.1 hagrees)
  · intro hkinds
    cases hkinds with
    | same => exact agrees_refl _
    | real hzero => exact .real (htext.2 hzero)
    | _ => contradiction

/-- Numbers that count as the same are written alike exactly if they are of one kind, zeros with one
sign. -/
theorem agrees_iff_sameKinds_of_number (hnumber : v.quantity?.isSome) (h : v.sameAs w = true) :
    v.document.Agrees w.document ↔ v.SameKinds w := by
  cases v with
  | boolean b =>
      cases w with
      | boolean b' =>
          obtain rfl : b' = b := by
            cases b <;> cases b' <;> simp_all [sameAs, sameQuantity, quantity?]
          exact agrees_iff_sameKinds_refl _
      | integer n => exact iff_of_false (by rintro ⟨⟩) (by rintro ⟨⟩ <;> contradiction)
      | real y => exact iff_of_false (by rintro ⟨⟩) (by rintro ⟨⟩ <;> contradiction)
      | _ => simp [sameAs, sameQuantity, quantity?] at h
  | integer n =>
      cases w with
      | boolean b => exact iff_of_false (by rintro ⟨⟩) (by rintro ⟨⟩ <;> contradiction)
      | integer m =>
          obtain rfl : m = n := by simpa [sameAs, sameQuantity, quantity?] using h
          exact agrees_iff_sameKinds_refl _
      | real y => exact iff_of_false (by rintro ⟨⟩) (by rintro ⟨⟩ <;> contradiction)
      | _ => simp [sameAs, sameQuantity, quantity?] at h
  | real x =>
      cases w with
      | boolean b => exact iff_of_false (by rintro ⟨⟩) (by rintro ⟨⟩ <;> contradiction)
      | integer m => exact iff_of_false (by rintro ⟨⟩) (by rintro ⟨⟩ <;> contradiction)
      | real y =>
          have hquantity : y.quantity = x.quantity := by
            simpa [sameAs, sameQuantity, quantity?] using h
          exact agrees_iff_sameKinds_real hquantity.symm
      | _ => simp [sameAs, sameQuantity, quantity?] at h
  | _ => simp [quantity?] at hnumber

/-- The same for values that hold no others, and for sets. -/
theorem agrees_iff_sameKinds_of_simple (hitems : v.asItems? = none) (hentries : v.asEntries? = none)
    (hfields : v.fields? = none) (h : v.sameAs w = true) :
    v.document.Agrees w.document ↔ v.SameKinds w := by
  cases v with
  | null =>
      cases w with
      | null => exact agrees_iff_sameKinds_refl .null
      | _ => simp [sameAs, isNull] at h
  | boolean b => exact agrees_iff_sameKinds_of_number rfl h
  | integer n => exact agrees_iff_sameKinds_of_number rfl h
  | real x => exact agrees_iff_sameKinds_of_number rfl h
  | undefined i =>
      cases w with
      | undefined j =>
          obtain rfl : i = j := by simpa [sameAs] using h
          exact agrees_iff_sameKinds_refl _
      | _ => simp [sameAs] at h
  | text s =>
      have hw : w.asText? = some s := by simpa [sameAs, sameText] using h
      rw [document_of_asText? hw]
      exact iff_of_true (.text s) (.text rfl hw)
  | choice c =>
      have hw : w.asText? = some c.tag := by simpa [sameAs, sameText] using h
      rw [document_of_asText? hw]
      exact iff_of_true (.text c.tag) (.text rfl hw)
  | bytes bs =>
      cases w with
      | bytes cs =>
          obtain rfl : bs = cs := by simpa [sameAs] using h
          exact agrees_iff_sameKinds_refl _
      | _ => simp [sameAs] at h
  | set frozen items =>
      cases w with
      | set frozen' others => exact agrees_iff_sameKinds_of_set
      | _ => simp [sameAs] at h
  | callable f =>
      cases w with
      | callable g =>
          obtain rfl : f = g := by simpa [sameAs] using h
          exact agrees_iff_sameKinds_refl _
      | _ => simp [sameAs] at h
  | node n =>
      cases w with
      | node m =>
          obtain rfl : n = m := by simpa [sameAs] using h
          exact agrees_iff_sameKinds_refl _
      | _ => simp [sameAs] at h
  | list items => simp [asItems?] at hitems
  | tuple items => simp [asItems?] at hitems
  | mapping frozen entries => simp [asEntries?] at hentries
  | _ => simp [fields?] at hfields

/-- Values that count as the same have documents that agree exactly if they hold the same kinds of
numbers at the same places. -/
theorem agrees_iff_sameKinds (h : v.sameAs w = true) :
    v.document.Agrees w.document ↔ v.SameKinds w := by
  induction v using induction generalizing w with
  | step v ih =>
  cases hitems : v.asItems? with
  | some items =>
      obtain ⟨others, hw, hsame⟩ := asItems?_of_sameAs hitems h
      have hheld := held_of_asItems? hitems
      rw [sameKinds_iff_asItems? hitems, document_of_asItems? hitems, document_of_asItems? hw, hw,
        Document.agrees_array_iff,
        forall₂_agrees_iff hsame fun item hitem => ih item (hheld ▸ hitem)]
      simp only [Option.some.injEq, exists_eq_left']
  | none =>
  cases hentries : v.asEntries? with
  | some entries =>
      obtain ⟨others, hw, hsame⟩ := asEntries?_of_sameAs hentries h
      by_cases hnames : Table.AreNamed entries ∧ Table.AreNamed others
      · rw [sameKinds_iff_asEntries? hentries hw hnames, document_of_asEntries? hentries hnames.1,
          document_of_asEntries? hw hnames.2, Document.agrees_object_iff_lookup]
        refine forall_congr' fun key => ?_
        rw [hnames.1.lookup_documentEntries, hnames.2.lookup_documentEntries]
        refine rel_map_iff fun value hvalue other hother => ?_
        obtain ⟨name, -, hmem⟩ := Table.mem_of_lookup? hvalue
        have hrel := rel_lookup?_of_covers hnames.2.distinct hsame (.text key)
        rw [hvalue, hother] at hrel
        refine ih value ?_ (by cases hrel; assumption)
        rw [held_of_asEntries? hentries]
        exact List.mem_append_right _ (List.mem_map_of_mem hmem)
      · exact agrees_iff_sameKinds_of_unnamed hentries hw hnames
  | none =>
  cases hfields : v.fields? with
  | some fields =>
      obtain ⟨others, hw, hnames, hsame⟩ := (sameAs_iff_fields? hfields).1 h
      obtain ⟨hkeys, hheld⟩ := fields?_eq_some hfields
      have hparts := forall₂_agrees_iff hsame fun part hpart => ih part (hheld ▸ hpart)
      rw [sameKinds_iff_fields? hfields, document_of_fields? hfields, document_of_fields? hw, hw,
        Document.agrees_object_iff (by simpa [Function.comp_def] using hnames)
          (by simpa [Function.comp_def] using hkeys)]
      simp only [List.map_map, Function.comp_def] at hparts ⊢
      rw [hparts]
      simp only [Option.some.injEq, exists_eq_left']
  | none => exact agrees_iff_sameKinds_of_simple hitems hentries hfields h

end

end Nomenclature.Value
