import Nomenclature.Proofs.Likeness

/-!
# How values are written

A document keeps of a value only the form in which it is written: a null, a truth value, a number, a
text, an array of items or an object of members. A set is written as an array, in the order of the
texts that show its items, and a mapping as an object, in which a member is lost to a later one that
is displayed like it. So the documents of two values agree exactly if the values are written alike,
and this goes down to their items and members.
-/

namespace Nomenclature

theorem lookup_cons_eq_ite {α : Type _} (member : String × α) (rest : List (String × α))
    (name : String) : (member :: rest).lookup name =
      if name = member.1 then some member.2 else rest.lookup name := by
  rw [List.lookup_cons]
  split
  · rename_i h
    rw [if_pos (beq_iff_eq.1 h)]
  · rename_i h
    rw [if_neg (beq_eq_false_iff_ne.1 h)]

namespace Document

variable {members others : Members}

theorem lookup_putMember (members : Members) (key name : String) (value : Document) :
    (putMember key value members).lookup name =
      if name = key then some value else members.lookup name := by
  induction members with
  | nil => rw [putMember, lookup_cons_eq_ite]
  | cons member rest ih =>
      rw [putMember]
      by_cases hkey : member.1 = key
      · rw [if_pos hkey, lookup_cons_eq_ite, lookup_cons_eq_ite, hkey]
        by_cases hname : name = key
        · rw [if_pos hname, if_pos hname]
        · rw [if_neg hname, if_neg hname, if_neg hname]
      · rw [if_neg hkey, lookup_cons_eq_ite, lookup_cons_eq_ite, ih]
        by_cases hname : name = key
        · rw [if_pos hname, if_pos hname, if_neg (hname ▸ Ne.symm hkey)]
        · rw [if_neg hname, if_neg hname]

/-- Members put one after the other: the last one put under a name stands there. -/
theorem lookup_foldl_putMember (members known : Members) (name : String) :
    (members.foldl (fun known member => putMember member.1 member.2 known) known).lookup name =
      (members.reverse.lookup name).or (known.lookup name) := by
  induction members generalizing known with
  | nil => rfl
  | cons member rest ih =>
      rw [List.foldl_cons, ih, lookup_putMember, List.reverse_cons, List.lookup_append,
        Option.or_assoc, lookup_cons_eq_ite]
      split <;> rfl

theorem agrees_ofMembers_iff :
    (ofMembers members).Agrees (ofMembers others) ↔
      ∀ name, Option.Rel Agrees (members.reverse.lookup name) (others.reverse.lookup name) := by
  rw [ofMembers, ofMembers, agrees_object_iff_lookup]
  simp only [lookup_foldl_putMember, List.lookup_nil, Option.or_none]

end Document

/-- The form in which a value is written. -/
inductive Written where
  | null
  | boolean (b : Bool)
  | integer (n : Int)
  | real (x : Binary64)
  | text (s : String)
  | array (items : List Value)
  | object (members : List (String × Value))

namespace Written

def document : Written → Document
  | null => .null
  | boolean b => .boolean b
  | integer n => .integer n
  | real x => .real x
  | text s => .text s
  | array items => .array (items.map Value.document)
  | object members => .ofMembers (members.map fun member => (member.1, member.2.document))

/-- The value of the last member under a name. -/
def last? (members : List (String × Value)) (name : String) : Option Value :=
  members.reverse.lookup name

theorem mem_of_last? {members : List (String × Value)} {name : String} {value : Value}
    (h : last? members name = some value) : value ∈ members.map (·.2) := by
  obtain ⟨before, after, hmembers, -⟩ := List.lookup_eq_some_iff.1 h
  refine List.mem_map.2 ⟨(name, value), List.mem_reverse.1 ?_, rfl⟩
  rw [hmembers]
  exact List.mem_append_right _ List.mem_cons_self

theorem lookup_map_document (members : List (String × Value)) (name : String) :
    (members.map fun member => (member.1, member.2.document)).lookup name =
      (members.lookup name).map Value.document := by
  induction members with
  | nil => rfl
  | cons member rest ih =>
      rw [List.map_cons, List.lookup_cons, List.lookup_cons, ih]
      cases name == member.1 <;> rfl

end Written

namespace Value

/-- The items of a set in the order in which they are written. -/
def inOrder (items : List Value) : List Value :=
  sortedBy (fun a b => decide (a.document.shown ≤ b.document.shown)) items

/-- The entries of a mapping as members, under the keys as they are displayed. -/
def displayedMembers (entries : Entries) : List (String × Value) :=
  entries.map fun entry => (entry.1.displayed, entry.2)

def written : Value → Written
  | .null => .null
  | .boolean b => .boolean b
  | .integer n => .integer n
  | .real x => .real x
  | .undefined _ => .real .nan
  | .text s => .text s
  | .bytes bs => .text (Text.quotedBytes bs)
  | .list items => .array items
  | .tuple items => .array items
  | .set _ items => .array (inOrder items)
  | .mapping _ entries => .object (displayedMembers entries)
  | .choice c => .text c.tag
  | .callable f => .text f.label
  | .node n => .text n.shown
  | value => .object (value.fields?.getD [])

theorem document_eq_written (value : Value) : value.document = value.written.document := by
  have hset (items : List Value) :
      sortedBy (fun a b => decide (a.shown ≤ b.shown)) (documentItems items) =
        (inOrder items).map document := by
    rw [documentItems_eq_map, inOrder]
    exact (map_sortedBy (fun a b => decide (a.shown ≤ b.shown)) document items).symm
  cases value with
  | list items => rw [document, documentItems_eq_map, written, Written.document]
  | tuple items => rw [document, documentItems_eq_map, written, Written.document]
  | set frozen items => rw [document, hset, written, Written.document]
  | mapping frozen entries =>
      rw [document, documentEntries_eq_map, written, Written.document, displayedMembers,
        List.map_map]
      rfl
  | _ => rfl

/-- What is written within a value is held by it. -/
theorem mem_held_of_array {value : Value} {items : List Value} (h : value.written = .array items) :
    ∀ item ∈ items, item ∈ value.held := by
  intro item hitem
  cases value with
  | list | tuple =>
      obtain rfl := Written.array.inj h
      exact hitem
  | set frozen held =>
      obtain rfl := Written.array.inj h
      exact (sortedBy_perm _ held).mem_iff.1 hitem
  | _ => simp [written] at h

theorem mem_held_of_object {value : Value} {members : List (String × Value)}
    (h : value.written = .object members) : ∀ part ∈ members.map (·.2), part ∈ value.held := by
  intro part hpart
  cases value with
  | mapping frozen entries =>
      obtain rfl := Written.object.inj h
      rw [displayedMembers, List.map_map] at hpart
      exact List.mem_append_right _ hpart
  | scalarTypes | fragment | identifier | fragmentImport | convention =>
      obtain rfl := Written.object.inj h
      exact hpart
  | _ => simp [written] at h

/-- Written in the same form: numbers with the same digits, arrays item by item, objects with the
same members under each name. -/
inductive WrittenAlike : Value → Value → Prop
  | same {v w : Value} (h : v.written = w.written) : WrittenAlike v w
  | real {v w : Value} {x y : Binary64} (hv : v.written = .real x) (hw : w.written = .real y)
      (h : Decimal.text Document.realLayout x = Decimal.text Document.realLayout y) :
      WrittenAlike v w
  | array {v w : Value} {items others : List Value} (hv : v.written = .array items)
      (hw : w.written = .array others) (h : List.Forall₂ WrittenAlike items others) :
      WrittenAlike v w
  | object {v w : Value} {members others : List (String × Value)}
      (hv : v.written = .object members) (hw : w.written = .object others)
      (h : ∀ name, Option.Rel WrittenAlike (Written.last? members name)
        (Written.last? others name)) : WrittenAlike v w

section

variable {v w : Value} {R : Value → Value → Prop}

theorem agrees_refl (value : Value) : value.document.Agrees value.document :=
  (Document.canonical_eq_iff value.tidy_document value.tidy_document).1 rfl

/-- Arrays agree if their items do. -/
theorem agrees_iff_of_array {items others : List Value} (hv : v.written = .array items)
    (hw : w.written = .array others)
    (h : ∀ pair ∈ items.zip others, (pair.1.document.Agrees pair.2.document ↔ R pair.1 pair.2)) :
    v.document.Agrees w.document ↔ List.Forall₂ R items others := by
  rw [document_eq_written v, document_eq_written w, hv, hw, Written.document, Written.document,
    Document.agrees_array_iff, List.forall₂_map_left_iff, List.forall₂_map_right_iff]
  exact forall₂_iff_of_zip h

/-- Objects agree if the last members under each name do. -/
theorem agrees_iff_of_object {members others : List (String × Value)}
    (hv : v.written = .object members) (hw : w.written = .object others)
    (h : ∀ name value, Written.last? members name = some value →
      ∀ other, (value.document.Agrees other.document ↔ R value other)) :
    v.document.Agrees w.document ↔
      ∀ name, Option.Rel R (Written.last? members name) (Written.last? others name) := by
  rw [document_eq_written v, document_eq_written w, hv, hw, Written.document, Written.document,
    Document.agrees_ofMembers_iff]
  simp only [← List.map_reverse, Written.lookup_map_document]
  exact forall_congr' fun name => rel_map_iff fun value hvalue other _ => h name value hvalue other

/-- The documents of two values agree exactly if the values are written alike. -/
theorem agrees_iff_writtenAlike : v.document.Agrees w.document ↔ v.WrittenAlike w := by
  induction v using induction generalizing w with
  | step v ih =>
  have harray {items others : List Value} (hv : v.written = .array items)
      (hw : w.written = .array others) :=
    agrees_iff_of_array (R := WrittenAlike) hv hw fun pair hpair =>
      ih pair.1 (mem_held_of_array hv _ (List.of_mem_zip hpair).1)
  have hobject {members others : List (String × Value)} (hv : v.written = .object members)
      (hw : w.written = .object others) :=
    agrees_iff_of_object (R := WrittenAlike) hv hw fun name value hvalue _ =>
      ih value (mem_held_of_object hv _ (Written.mem_of_last? hvalue))
  constructor
  · intro h
    have hforms := h
    rw [document_eq_written v, document_eq_written w] at hforms
    cases hv : v.written with
    | array items =>
        cases hw : w.written with
        | array others => exact .array hv hw ((harray hv hw).1 h)
        | _ => rw [hv, hw] at hforms; cases hforms
    | object members =>
        cases hw : w.written with
        | object others => exact .object hv hw ((hobject hv hw).1 h)
        | _ => rw [hv, hw] at hforms; cases hforms
    | real x =>
        cases hw : w.written with
        | real y =>
            rw [hv, hw] at hforms
            cases hforms with
            | real htext => exact .real hv hw htext
        | _ => rw [hv, hw] at hforms; cases hforms
    | _ =>
        rw [hv] at hforms
        cases hw : w.written <;> rw [hw] at hforms <;> cases hforms
        exact .same (hv.trans hw.symm)
  · intro h
    cases h with
    | same h =>
        have hsame : v.document = w.document := by
          rw [document_eq_written v, h, ← document_eq_written w]
        exact hsame ▸ agrees_refl v
    | real hv hw htext =>
        rw [document_eq_written v, document_eq_written w, hv, hw]
        exact .real htext
    | array hv hw h => exact (harray hv hw).2 h
    | object hv hw h => exact (hobject hv hw).2 h

theorem agrees_set_iff {frozen frozen' : Bool} {items others : List Value} :
    (set frozen items).document.Agrees (set frozen' others).document ↔
      List.Forall₂ WrittenAlike (inOrder items) (inOrder others) :=
  agrees_iff_of_array rfl rfl fun _ _ => agrees_iff_writtenAlike

theorem agrees_iff_of_asEntries? {entries others : Entries} (hv : v.asEntries? = some entries)
    (hw : w.asEntries? = some others) : v.document.Agrees w.document ↔
      ∀ name, Option.Rel WrittenAlike (Written.last? (displayedMembers entries) name)
        (Written.last? (displayedMembers others) name) := by
  have hwritten {value : Value} {found : Entries} (h : value.asEntries? = some found) :
      value.written = .object (displayedMembers found) := by
    cases value with
    | mapping => rw [written, Option.some.inj h]
    | _ => simp [asEntries?] at h
  exact agrees_iff_of_object (hwritten hv) (hwritten hw) fun _ _ _ _ => agrees_iff_writtenAlike

end

end Value

end Nomenclature
