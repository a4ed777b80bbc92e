import Nomenclature.Configuration.Basic
import Nomenclature.Proofs.CanonicalText
import Nomenclature.Proofs.Structure

/-!
# The documents of values

What a value becomes is decided by one look at it: a text, a sequence, a mapping or the fields of a
built setting. A mapping repeats no key in its document, whatever its keys are, since a later entry
replaces one that is displayed alike. So every value, and every configuration, has a document to
which the canonical text is faithful.
-/

namespace Nomenclature

namespace Document

theorem putMember_eq_append {members : Members} {key : String}
    (hnew : key ∉ members.map (·.1)) (value : Document) :
    putMember key value members = members ++ [(key, value)] := by
  induction members with
  | nil => rfl
  | cons member rest ih =>
      obtain ⟨hfirst, hrest⟩ := List.ne_and_not_mem_of_not_mem_cons hnew
      rw [putMember, if_neg (Ne.symm hfirst), ih hrest]
      rfl

theorem mem_putMember {members : Members} {key : String} {value : Document}
    {member : String × Document} (h : member ∈ putMember key value members) :
    member ∈ members ∨ member = (key, value) := by
  induction members with
  | nil => exact .inr (by simpa [putMember] using h)
  | cons first rest ih =>
      rw [putMember] at h
      split at h
      · rename_i hkey
        rcases List.mem_cons.1 h with rfl | h
        · exact .inr (by rw [hkey])
        · exact .inl (List.mem_cons_of_mem first h)
      · rcases List.mem_cons.1 h with rfl | h
        · exact .inl List.mem_cons_self
        · exact (ih h).imp_left (List.mem_cons_of_mem first)

theorem nodup_putMember {members : Members} (hmembers : (members.map (·.1)).Nodup) (key : String)
    (value : Document) : ((putMember key value members).map (·.1)).Nodup := by
  induction members with
  | nil => exact List.pairwise_singleton ..
  | cons first rest ih =>
      obtain ⟨hfirst, hrest⟩ := List.nodup_cons.1 hmembers
      rw [putMember]
      split
      · exact hmembers
      · rename_i hkey
        refine List.nodup_cons.2 ⟨fun hmem => ?_, ih hrest⟩
        obtain ⟨member, hmember, hname⟩ := List.mem_map.1 hmem
        rcases mem_putMember hmember with hold | rfl
        · exact hfirst (List.mem_map.2 ⟨member, hold, hname⟩)
        · exact hkey hname.symm

/-- An object of members without repetition is the object of just these. -/
theorem ofMembers_eq {members : Members} (hmembers : (members.map (·.1)).Nodup) :
    ofMembers members = .object members := by
  have hfold (known : Members) (hkeys : ((known ++ members).map (·.1)).Nodup) :
      members.foldl (fun known member => putMember member.1 member.2 known) known =
        known ++ members := by
    induction members generalizing known with
    | nil => simp
    | cons member rest ih =>
        have hnew : member.1 ∉ known.map (·.1) := by
          intro hmem
          rw [List.map_append] at hkeys
          exact (List.nodup_append.1 hkeys).2.2 _ hmem _ List.mem_cons_self rfl
        rw [List.append_cons] at hkeys ⊢
        rw [List.foldl_cons, putMember_eq_append hnew]
        exact ih (List.nodup_cons.1 hmembers).2 _ hkeys
  rw [ofMembers, hfold [] hmembers, List.nil_append]

theorem Tidy.array {items : List Document} (hitems : ∀ item ∈ items, item.Tidy) :
    (Document.array items).Tidy :=
  ⟨fun members h => by simp at h, hitems⟩

theorem Tidy.object {members : Members} (hkeys : (members.map (·.1)).Nodup)
    (hmembers : ∀ member ∈ members, member.2.Tidy) : (Document.object members).Tidy := by
  refine ⟨fun others hothers => ?_, fun part hpart => ?_⟩
  · obtain rfl := Document.object.inj hothers
    exact hkeys
  · obtain ⟨member, hmember, rfl⟩ := List.mem_map.1 hpart
    exact hmembers member hmember

theorem Tidy.ofMembers {members : Members} (hmembers : ∀ member ∈ members, member.2.Tidy) :
    (ofMembers members).Tidy := by
  have hfold (known : Members) (hknown : (known.map (·.1)).Nodup)
      (hparts : ∀ member ∈ known, member.2.Tidy) : (Document.object (members.foldl
        (fun known member => putMember member.1 member.2 known) known)).Tidy := by
    induction members generalizing known with
    | nil => exact .object hknown hparts
    | cons first rest ih =>
        obtain ⟨hfirst, hrest⟩ := List.forall_mem_cons.1 hmembers
        refine ih hrest _ (nodup_putMember hknown first.1 first.2) fun member hmember => ?_
        rcases mem_putMember hmember with hold | rfl
        · exact hparts member hold
        · exact hfirst
  exact hfold [] List.nodup_nil (by simp)

theorem Tidy.of_held_eq_nil {document : Document} (hheld : document.held = [])
    (hobject : ∀ members, document ≠ .object members) : document.Tidy :=
  ⟨fun members h => absurd h (hobject members), by simp [hheld]⟩

end Document

namespace Value

theorem documentItems_eq_map (items : List Value) : documentItems items = items.map document := by
  induction items with
  | nil => rfl
  | cons item rest ih => rw [documentItems, ih, List.map_cons]

theorem documentEntries_eq_map (entries : Entries) :
    documentEntries entries = entries.map fun entry => (entry.1.displayed, entry.2.document) := by
  induction entries with
  | nil => rfl
  | cons entry rest ih => rw [documentEntries, ih, List.map_cons]

theorem document_of_asText? {value : Value} {s : String} (h : value.asText? = some s) :
    value.document = .text s := by
  cases value <;> simp_all [asText?, document]

theorem document_of_asItems? {value : Value} {items : List Value}
    (h : value.asItems? = some items) : value.document = .array (items.map document) := by
  cases value <;> simp_all [asItems?, document, documentItems_eq_map]

theorem document_of_fields? {value : Value} {fields : List (String × Value)}
    (h : value.fields? = some fields) :
    value.document = .object (fields.map fun field => (field.1, field.2.document)) := by
  cases value with
  | scalarTypes =>
      obtain rfl := Option.some.inj h
      rfl
  | fragment =>
      obtain rfl := Option.some.inj h
      rfl
  | identifier =>
      obtain rfl := Option.some.inj h
      rfl
  | fragmentImport =>
      obtain rfl := Option.some.inj h
      rfl
  | convention =>
      obtain rfl := Option.some.inj h
      rfl
  | _ => simp [fields?] at h

/-- No object in the document of a value repeats a key. -/
theorem tidy_document (value : Value) : value.document.Tidy := by
  induction value using induction with
  | step value ih =>
  have hitems (items : List Value) (h : ∀ item ∈ items, item.document.Tidy) :
      ∀ item ∈ documentItems items, item.Tidy := by
    intro item hitem
    rw [documentItems_eq_map] at hitem
    obtain ⟨part, hpart, rfl⟩ := List.mem_map.1 hitem
    exact h part hpart
  cases hfields : value.fields? with
  | some fields =>
      obtain ⟨hnames, hheld⟩ := fields?_eq_some hfields
      rw [document_of_fields? hfields]
      refine Document.Tidy.object (by simpa [Function.comp_def] using hnames) ?_
      intro member hmember
      obtain ⟨field, hfield, rfl⟩ := List.mem_map.1 hmember
      exact ih field.2 (hheld ▸ List.mem_map_of_mem hfield)
  | none =>
      cases value with
      | list items => exact .array (hitems items ih)
      | tuple items => exact .array (hitems items ih)
      | set frozen items =>
          refine .array fun item hitem => hitems items ih item ?_
          exact (sortedBy_perm _ _).mem_iff.1 hitem
      | mapping frozen entries =>
          refine .ofMembers fun member hmember => ?_
          rw [documentEntries_eq_map] at hmember
          obtain ⟨entry, hentry, rfl⟩ := List.mem_map.1 hmember
          exact ih entry.2 (List.mem_append_right _ (List.mem_map_of_mem hentry))
      | _ => first | exact .of_held_eq_nil rfl (fun members h => by simp [document] at h)
                   | simp [fields?] at hfields

end Value

end Nomenclature
