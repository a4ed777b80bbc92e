import Nomenclature.Proofs.ValueDocument

/-!
# Values that are alike

Two values are alike if they are built in the same way from the same nulls, booleans, integers and
texts: sequences item by item, mappings as finite maps from their keys, built settings field by
field. Their documents then agree. The converse holds of two values if it holds of what they hold,
provided that both look the same from outside; so it holds of plain data, by induction over the
data.
-/

namespace Nomenclature

/-- Relations that come to the same on each pair of items come to the same on the lists. -/
theorem forall₂_iff_of_zip {α β : Type _} {R S : α → β → Prop} {xs : List α} {ys : List β}
    (h : ∀ pair ∈ xs.zip ys, (R pair.1 pair.2 ↔ S pair.1 pair.2)) :
    List.Forall₂ R xs ys ↔ List.Forall₂ S xs ys := by
  induction xs generalizing ys with
  | nil => cases ys <;> simp
  | cons x xs ih =>
      cases ys with
      | nil => simp
      | cons y ys =>
          obtain ⟨hfirst, hrest⟩ := List.forall_mem_cons.1 h
          have hpair : R x y ↔ S x y := hfirst
          rw [List.forall₂_cons, List.forall₂_cons, ih hrest, hpair]

theorem rel_map_iff {α β γ δ : Type _} {f : α → γ} {g : β → δ} {R : γ → δ → Prop}
    {S : α → β → Prop} {a : Option α} {b : Option β}
    (h : ∀ x, a = some x → ∀ y, b = some y → (R (f x) (g y) ↔ S x y)) :
    Option.Rel R (a.map f) (b.map g) ↔ Option.Rel S a b := by
  cases a with
  | none =>
      cases b with
      | none => exact ⟨fun _ => .none, fun _ => .none⟩
      | some y => exact ⟨nofun, nofun⟩
  | some x =>
      cases b with
      | none => exact ⟨nofun, nofun⟩
      | some y =>
          have hpair := h x rfl y rfl
          constructor
          · intro hrel
            cases hrel with
            | some hrel => exact .some (hpair.1 hrel)
          · intro hrel
            cases hrel with
            | some hrel => exact .some (hpair.2 hrel)

namespace Document

theorem agrees_text_iff {s t : String} : (text s).Agrees (text t) ↔ s = t := by
  constructor
  · intro h
    cases h
    rfl
  · rintro rfl
    exact .text s

theorem agrees_array_iff {items others : List Document} :
    (array items).Agrees (array others) ↔ List.Forall₂ Agrees items others := by
  constructor
  · intro h
    cases h with
    | array h => exact h
  · exact .array

theorem agrees_object_iff_lookup {members others : Members} :
    (object members).Agrees (object others) ↔
      ∀ key, Option.Rel Agrees (members.lookup key) (others.lookup key) := by
  constructor
  · intro h
    cases h with
    | object h => exact h
  · exact .object

/-- Objects with the same keys in the same order agree member by member. -/
theorem agrees_object_iff {members others : Members}
    (hnames : members.map (·.1) = others.map (·.1)) (hkeys : (members.map (·.1)).Nodup) :
    (object members).Agrees (object others) ↔
      List.Forall₂ Agrees (members.map (·.2)) (others.map (·.2)) := by
  rw [agrees_object_iff_lookup]
  constructor
  · intro h
    have hmatched := forall₂_of_keys hnames fun m hm n hn =>
      rel_of_mem hkeys (hnames ▸ hkeys) h hm hn
    rw [List.forall₂_map_left_iff, List.forall₂_map_right_iff]
    exact hmatched.imp fun _ _ h => h.2
  · intro h
    refine rel_lookup_of_forall₂ ?_
    induction members generalizing others with
    | nil =>
        obtain rfl : others = [] := by simpa using hnames.symm
        exact .nil
    | cons member rest ih =>
        cases others with
        | nil => simp at hnames
        | cons other others =>
            obtain ⟨hname, hnames⟩ := List.cons.inj hnames
            cases h with
            | cons hfirst hrest =>
                exact .cons ⟨hname, hfirst⟩ (ih hnames (List.nodup_cons.1 hkeys).2 hrest)

end Document

@[simp]
theorem Value.displayed_text (s : String) : (text s).displayed = s := rfl

/-- The keys of plain data: every key is a text, and none stands twice. -/
structure Table.AreNamed {α : Type} (table : Table α) : Prop where
  names : ∀ entry ∈ table, ∃ s, entry.1 = .text s
  distinct : Table.Distinct table

namespace Table.AreNamed

section

variable {α β : Type} {table : Table α}

/-- Whether a table is named is a matter of its keys. -/
theorem of_keys {other : Table β} (htable : AreNamed table)
    (hkeys : table.map (·.1) = other.map (·.1)) : AreNamed other := by
  constructor
  · intro entry hentry
    have hkey : entry.1 ∈ table.map (·.1) := hkeys ▸ List.mem_map_of_mem hentry
    obtain ⟨old, hold, hsame⟩ := List.mem_map.1 hkey
    rw [← hsame]
    exact htable.names old hold
  · have hpairs : (table.map (·.1)).Pairwise fun first second => first.sameAs second = false :=
      List.pairwise_map.2 htable.distinct
    rw [hkeys] at hpairs
    exact List.pairwise_map.1 hpairs

theorem map (htable : AreNamed table) (f : α → β) :
    AreNamed (table.map fun entry => (entry.1, f entry.2)) :=
  htable.of_keys (by simp)

theorem put (htable : AreNamed table) (name : String) (item : α) :
    AreNamed (Table.put (.text name) item table) := by
  refine ⟨fun entry hentry => ?_, htable.distinct.put _ item⟩
  rcases mem_put hentry with hold | ⟨-, hnew | ⟨old, hold, hsame⟩⟩
  · exact htable.names entry hold
  · exact ⟨name, hnew⟩
  · rw [← hsame]
    exact htable.names old hold

end

variable {entries : Entries}

theorem nodup_documentEntries (hentries : Table.AreNamed entries) :
    ((Value.documentEntries entries).map (·.1)).Nodup := by
  rw [Value.documentEntries_eq_map, List.map_map]
  refine List.pairwise_map.2 (List.Pairwise.imp_of_mem ?_ hentries.distinct)
  intro first second hfirst hsecond hdistinct hsame
  obtain ⟨s, hs⟩ := hentries.names first hfirst
  obtain ⟨t, ht⟩ := hentries.names second hsecond
  simp only [Function.comp_def, hs, ht, Value.displayed_text] at hsame hdistinct
  rw [hsame, Value.sameAs_refl] at hdistinct
  exact Bool.noConfusion hdistinct

theorem lookup_documentEntries (hentries : Table.AreNamed entries) (key : String) :
    (Value.documentEntries entries).lookup key =
      (Table.lookup? entries (.text key)).map Value.document := by
  obtain ⟨hnames, -⟩ := hentries
  rw [Value.documentEntries_eq_map]
  induction entries with
  | nil => rfl
  | cons entry rest ih =>
      obtain ⟨⟨s, hs⟩, hrest⟩ := List.forall_mem_cons.1 hnames
      rw [List.map_cons, List.lookup_cons, Table.lookup?_cons, ih hrest, hs]
      rw [Value.displayed_text]
      by_cases hkey : s = key
      · rw [hkey, beq_self_eq_true, if_pos (Value.sameAs_refl _)]
        rfl
      · have hne : (key == s) = false := by simpa using Ne.symm hkey
        simp [hkey, hne]

end Table.AreNamed

namespace Value

theorem document_of_asEntries? {value : Value} {entries : Entries}
    (h : value.asEntries? = some entries) (hentries : Table.AreNamed entries) :
    value.document = .object (documentEntries entries) := by
  cases value with
  | mapping frozen found =>
      obtain rfl := Option.some.inj h
      exact Document.ofMembers_eq hentries.nodup_documentEntries
  | _ => simp [asEntries?] at h

/-- The same data, mappings taken as finite maps. -/
inductive Alike : Value → Value → Prop
  | null : Alike .null .null
  | boolean (b : Bool) : Alike (.boolean b) (.boolean b)
  | integer (n : Int) : Alike (.integer n) (.integer n)
  | text {v w : Value} {s : String} (hv : v.asText? = some s) (hw : w.asText? = some s) :
      Alike v w
  | sequence {v w : Value} {items others : List Value} (hv : v.asItems? = some items)
      (hw : w.asItems? = some others) (h : List.Forall₂ Alike items others) : Alike v w
  | mapping {v w : Value} {entries others : Entries} (hv : v.asEntries? = some entries)
      (hw : w.asEntries? = some others)
      (h : ∀ key, Option.Rel Alike (Table.lookup? entries (.text key))
        (Table.lookup? others (.text key))) : Alike v w
  | record {v w : Value} {fields others : List (String × Value)} (hv : v.fields? = some fields)
      (hw : w.fields? = some others) (hnames : fields.map (·.1) = others.map (·.1))
      (h : List.Forall₂ Alike (fields.map (·.2)) (others.map (·.2))) : Alike v w

section

variable {v w : Value}

/-- What is alike to a text is the same text. -/
theorem alike_iff_asText? {s : String} (hv : v.asText? = some s) :
    v.Alike w ↔ w.asText? = some s := by
  constructor
  · intro h
    cases h with
    | text hv' hw => rw [hw, ← hv', hv]
    | null => simp [asText?] at hv
    | boolean b => simp [asText?] at hv
    | integer n => simp [asText?] at hv
    | sequence hv' => cases v <;> simp [asText?, asItems?] at hv hv'
    | mapping hv' => cases v <;> simp [asText?, asEntries?] at hv hv'
    | record hv' => cases v <;> simp [asText?, fields?] at hv hv'
  · exact .text hv

theorem alike_iff_asItems? {items : List Value} (hv : v.asItems? = some items) :
    v.Alike w ↔ ∃ others, w.asItems? = some others ∧ List.Forall₂ Alike items others := by
  constructor
  · intro h
    cases h with
    | @sequence _ _ found others hv' hw h =>
        obtain rfl : found = items := Option.some.inj (hv'.symm.trans hv)
        exact ⟨others, hw, h⟩
    | null => simp [asItems?] at hv
    | boolean b => simp [asItems?] at hv
    | integer n => simp [asItems?] at hv
    | text hv' => cases v <;> simp [asText?, asItems?] at hv hv'
    | mapping hv' => cases v <;> simp [asItems?, asEntries?] at hv hv'
    | record hv' => cases v <;> simp [asItems?, fields?] at hv hv'
  · rintro ⟨others, hw, h⟩
    exact .sequence hv hw h

theorem alike_iff_asEntries? {entries : Entries} (hv : v.asEntries? = some entries) :
    v.Alike w ↔ ∃ others, w.asEntries? = some others ∧
      ∀ key, Option.Rel Alike (Table.lookup? entries (.text key))
        (Table.lookup? others (.text key)) := by
  constructor
  · intro h
    cases h with
    | @mapping _ _ found others hv' hw h =>
        obtain rfl : found = entries := Option.some.inj (hv'.symm.trans hv)
        exact ⟨others, hw, h⟩
    | null => simp [asEntries?] at hv
    | boolean b => simp [asEntries?] at hv
    | integer n => simp [asEntries?] at hv
    | text hv' => cases v <;> simp [asText?, asEntries?] at hv hv'
    | sequence hv' => cases v <;> simp [asItems?, asEntries?] at hv hv'
    | record hv' => cases v <;> simp [asEntries?, fields?] at hv hv'
  · rintro ⟨others, hw, h⟩
    exact .mapping hv hw h

theorem alike_iff_fields? {fields : List (String × Value)} (hv : v.fields? = some fields) :
    v.Alike w ↔ ∃ others, w.fields? = some others ∧ fields.map (·.1) = others.map (·.1) ∧
      List.Forall₂ Alike (fields.map (·.2)) (others.map (·.2)) := by
  constructor
  · intro h
    cases h with
    | @record _ _ found others hv' hw hnames h =>
        obtain rfl : found = fields := Option.some.inj (hv'.symm.trans hv)
        exact ⟨others, hw, hnames, h⟩
    | null => simp [fields?] at hv
    | boolean b => simp [fields?] at hv
    | integer n => simp [fields?] at hv
    | text hv' => cases v <;> simp [asText?, fields?] at hv hv'
    | sequence hv' => cases v <;> simp [asItems?, fields?] at hv hv'
    | mapping hv' => cases v <;> simp [asEntries?, fields?] at hv hv'
  · rintro ⟨others, hw, hnames, h⟩
    exact .record hv hw hnames h

/-- The documents of two values agree exactly if the values are alike. -/
def Faithful (v w : Value) : Prop :=
  v.document.Agrees w.document ↔ v.Alike w

theorem faithful_of_asText? {s t : String} (hv : v.asText? = some s) (hw : w.asText? = some t) :
    Faithful v w := by
  rw [Faithful, alike_iff_asText? hv, document_of_asText? hv, document_of_asText? hw, hw,
    Document.agrees_text_iff, Option.some.injEq, eq_comm]

theorem forall₂_iff_of_faithful {items others : List Value}
    (h : ∀ pair ∈ items.zip others, Faithful pair.1 pair.2) :
    List.Forall₂ Document.Agrees (items.map document) (others.map document) ↔
      List.Forall₂ Alike items others := by
  rw [List.forall₂_map_left_iff, List.forall₂_map_right_iff]
  exact forall₂_iff_of_zip h

theorem faithful_of_asItems? {items others : List Value} (hv : v.asItems? = some items)
    (hw : w.asItems? = some others) (h : ∀ pair ∈ items.zip others, Faithful pair.1 pair.2) :
    Faithful v w := by
  rw [Faithful, alike_iff_asItems? hv, document_of_asItems? hv, document_of_asItems? hw, hw,
    Document.agrees_array_iff, forall₂_iff_of_faithful h]
  simp only [Option.some.injEq, exists_eq_left']

theorem faithful_of_fields? {fields others : List (String × Value)}
    (hv : v.fields? = some fields) (hw : w.fields? = some others)
    (hnames : fields.map (·.1) = others.map (·.1))
    (h : ∀ pair ∈ (fields.map (·.2)).zip (others.map (·.2)), Faithful pair.1 pair.2) :
    Faithful v w := by
  have hiff := forall₂_iff_of_faithful h
  rw [Faithful, alike_iff_fields? hv, document_of_fields? hv, document_of_fields? hw, hw,
    Document.agrees_object_iff (by simpa [Function.comp_def] using hnames)
      (by simpa [Function.comp_def] using (fields?_eq_some hv).1)]
  simp only [List.map_map, Function.comp_def] at hiff ⊢
  rw [hiff]
  simp only [Option.some.injEq, exists_eq_left', hnames, true_and]

theorem faithful_of_asEntries? {entries others : Entries} (hv : v.asEntries? = some entries)
    (hw : w.asEntries? = some others) (hentries : Table.AreNamed entries)
    (hothers : Table.AreNamed others)
    (h : ∀ entry ∈ entries, ∀ other ∈ others, Faithful entry.2 other.2) : Faithful v w := by
  have hrel (key : String) : Option.Rel Document.Agrees
      ((Table.lookup? entries (.text key)).map document)
        ((Table.lookup? others (.text key)).map document) ↔
      Option.Rel Alike (Table.lookup? entries (.text key)) (Table.lookup? others (.text key)) := by
    refine rel_map_iff fun value hvalue other hother => ?_
    obtain ⟨name, -, hentry⟩ := Table.mem_of_lookup? hvalue
    obtain ⟨name', -, hentry'⟩ := Table.mem_of_lookup? hother
    exact h _ hentry _ hentry'
  rw [Faithful, alike_iff_asEntries? hv, document_of_asEntries? hv hentries,
    document_of_asEntries? hw hothers, hw, Document.agrees_object_iff_lookup]
  simp only [hentries.lookup_documentEntries, hothers.lookup_documentEntries, hrel,
    Option.some.injEq, exists_eq_left']

/-- Plain data without reals, in which sequences and mappings may be frozen. -/
inductive IsJson : Value → Prop
  | null : IsJson .null
  | boolean (b : Bool) : IsJson (.boolean b)
  | integer (n : Int) : IsJson (.integer n)
  | text (s : String) : IsJson (.text s)
  | list {items : List Value} (h : ∀ item ∈ items, IsJson item) : IsJson (.list items)
  | tuple {items : List Value} (h : ∀ item ∈ items, IsJson item) : IsJson (.tuple items)
  | mapping {frozen : Bool} {entries : Entries} (hentries : Table.AreNamed entries)
      (h : ∀ entry ∈ entries, IsJson entry.2) : IsJson (.mapping frozen entries)

/-- The documents of plain data agree exactly if the data are alike. -/
theorem IsJson.faithful (hv : v.IsJson) (hw : w.IsJson) : Faithful v w := by
  have hitems {items others : List Value} (hothers : ∀ other ∈ others, IsJson other)
      (ih : ∀ item ∈ items, ∀ {w : Value}, w.IsJson → Faithful item w) :
      ∀ pair ∈ items.zip others, Faithful pair.1 pair.2 := by
    intro pair hpair
    obtain ⟨hitem, hother⟩ := List.of_mem_zip hpair
    exact ih pair.1 hitem (hothers pair.2 hother)
  induction hv generalizing w with
  | null =>
      cases hw with
      | null => exact ⟨fun _ => .null, fun _ => .null⟩
      | _ => exact ⟨nofun, nofun⟩
  | boolean b =>
      cases hw with
      | boolean b' =>
          constructor
          · intro h
            cases h
            exact .boolean b
          · intro h
            cases h with
            | boolean => exact .boolean b
            | _ => contradiction
      | _ => exact ⟨nofun, nofun⟩
  | integer n =>
      cases hw with
      | integer n' =>
          constructor
          · intro h
            cases h
            exact .integer n
          · intro h
            cases h with
            | integer => exact .integer n
            | _ => contradiction
      | _ => exact ⟨nofun, nofun⟩
  | text s =>
      cases hw with
      | text t => exact faithful_of_asText? rfl rfl
      | _ => exact ⟨nofun, nofun⟩
  | list _ ih =>
      cases hw with
      | list h => exact faithful_of_asItems? rfl rfl (hitems h ih)
      | tuple h => exact faithful_of_asItems? rfl rfl (hitems h ih)
      | _ => exact ⟨nofun, nofun⟩
  | tuple _ ih =>
      cases hw with
      | list h => exact faithful_of_asItems? rfl rfl (hitems h ih)
      | tuple h => exact faithful_of_asItems? rfl rfl (hitems h ih)
      | _ => exact ⟨nofun, nofun⟩
  | mapping hentries _ ih =>
      cases hw with
      | mapping hothers h =>
          exact faithful_of_asEntries? rfl rfl hentries hothers fun entry hentry other hother =>
            ih entry hentry (h other hother)
      | _ => exact ⟨nofun, nofun⟩

end

end Value

end Nomenclature
