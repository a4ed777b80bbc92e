import Nomenclature.Proofs.ReorderedReaders

/-!
# Scalar tables laid over the built-in one

A table of scalars is read entry by entry, and each entry is laid over what is known. It is accepted
exactly if every entry by itself is, and refused for the first that is not. What comes out has the
built-in scalars in front, then the other names in their order, and under each name what its last
entry says. Hence reading again what was read changes nothing, and reading two tables laid over each
other is laying over each other what they are read as.
-/

namespace Nomenclature

namespace Table

variable {α β : Type} {key other : Value}

/-- A table with the entries of another one laid over it. -/
def laidOver (upper lower : Table α) : Table α :=
  upper.foldl (fun known entry => put entry.1 entry.2 known) lower

/-- What a table holds under the keys of another one. -/
def under (table : Table α) (keys : Table β) : Table α :=
  keys.filterMap fun entry => (lookup? table entry.1).map fun item => (entry.1, item)

theorem hasKey_cons (entry : Value × α) (rest : Table α) (key : Value) :
    hasKey (entry :: rest) key = (entry.1.sameAs key || hasKey rest key) := rfl

theorem hasKey_put (item : α) (table : Table α) :
    hasKey (put key item table) other = (key.sameAs other || hasKey table other) := by
  rw [hasKey_eq_isSome, hasKey_eq_isSome, lookup?_put]
  cases key.sameAs other <;> simp

/-- A put adds its key at the end, unless the key is there. -/
theorem map_fst_put (key : Value) (item : α) (table : Table α) :
    (put key item table).map (·.1) =
      table.map (·.1) ++ if hasKey table key then [] else [key] := by
  induction table with
  | nil => rfl
  | cons entry rest ih =>
      rw [put, hasKey_cons]
      by_cases hsame : entry.1.sameAs key = true
      · simp [hsame]
      · rw [if_neg hsame, List.map_cons, ih]
        simp [hsame]

/-- Of two puts under one key the later one counts. -/
theorem put_put_of_sameAs (h : key.sameAs other = true) (first second : α) (table : Table α) :
    put other second (put key first table) = put key second table := by
  induction table with
  | nil => simp [put, h]
  | cons entry rest ih =>
      have hform : entry.1.sameAs key = entry.1.sameAs other := Value.sameAs_congr_right h entry.1
      by_cases hsame : entry.1.sameAs key = true
      · simp [put, hsame, ← hform]
      · simp [put, hsame, ← hform, ih]

/-- Puts under two keys commute once one of the keys is there. -/
theorem put_comm {table : Table α} (hother : key.sameAs other = false)
    (hkey : hasKey table key = true) (first second : α) :
    put other second (put key first table) = put key first (put other second table) := by
  induction table with
  | nil => cases hkey
  | cons entry rest ih =>
      by_cases hsame : entry.1.sameAs key = true
      · have hapart : entry.1.sameAs other = false := by
          rw [Value.sameAs_congr hsame]
          exact hother
        simp [put, hsame, hapart]
      · rw [hasKey_cons, Bool.eq_false_iff.2 hsame, Bool.false_or] at hkey
        by_cases hplace : entry.1.sameAs other = true
        · simp [put, hsame, hplace]
        · simp [put, hsame, hplace, ih hkey]

end Table

theorem Value.asText?_of_isNull {value : Value} (h : value.isNull = true) :
    value.asText? = none := by
  cases value <;> simp_all [isNull, asText?]

namespace Direction

variable {P : Direction → Prop}

theorem forall_iff : (∀ direction, P direction) ↔ P input ∧ P output := by
  constructor
  · intro h
    exact ⟨h input, h output⟩
  · intro h direction
    cases direction with
    | input => exact h.1
    | output => exact h.2

theorem exists_iff : (∃ direction, P direction) ↔ P input ∨ P output := by
  rw [← not_iff_not, not_exists, not_or, forall_iff]

end Direction

namespace ScalarTypes

/-- What may stand for the types of a scalar: built types, a text, or a mapping that sets a side and
holds a text on each side that it sets. -/
inductive IsEntry : Value → Prop
  | built (input output : Value) : IsEntry (.scalarTypes input output)
  | text {entry : Value} {type : String} (htext : entry.asText? = some type) : IsEntry entry
  | mapping {frozen : Bool} {entries : Entries}
      (hset : ∃ direction : Direction, (Entries.named entries direction.tag).isNull = false)
      (htexts : ∀ direction : Direction, (Entries.named entries direction.tag).isNull = false →
        ∃ type, (Entries.named entries direction.tag).asText? = some type) :
      IsEntry (.mapping frozen entries)

/-- A mapping is read as types exactly if its input side, or else the other one, is a text, and so
is its output side if that is set. -/
theorem ofEntries_eq_ok_iff {entries : Entries} {path : String} {types : ScalarTypes} :
    ofEntries entries path = .ok types ↔ ∃ input output,
      types = ⟨.text input, .text output⟩ ∧
        ((Entries.named entries Direction.input.tag).orElse
          (Entries.named entries Direction.output.tag)).asText? = some input ∧
        ((Entries.named entries Direction.output.tag).orElse (.text input)).asText? =
          some output := by
  constructor
  · exact texts_of_ofEntries
  · rintro ⟨input, output, rfl, hinput, houtput⟩
    have hset : ¬ ((Entries.named entries Direction.input.tag).isNull &&
        (Entries.named entries Direction.output.tag).isNull) = true := by
      intro hnull
      rw [Bool.and_eq_true] at hnull
      rw [Value.orElse, if_pos hnull.1, Value.asText?_of_isNull hnull.2] at hinput
      cases hinput
    simp only [ofEntries]
    rw [if_neg hset]
    apply bind_eq_ok_iff.2
    refine ⟨input, Setting.text_eq_ok_iff.2 hinput, ?_⟩
    apply bind_eq_ok_iff.2
    exact ⟨output, Setting.text_eq_ok_iff.2 houtput, rfl⟩

/-- A mapping is read as some types exactly if it sets a side and each side that it sets is a
text. -/
theorem exists_ofEntries_iff (entries : Entries) (path : String) :
    (∃ types, ofEntries entries path = .ok types) ↔
      (∃ direction : Direction, (Entries.named entries direction.tag).isNull = false) ∧
        ∀ direction : Direction, (Entries.named entries direction.tag).isNull = false →
          ∃ type, (Entries.named entries direction.tag).asText? = some type := by
  rw [Direction.exists_iff, Direction.forall_iff]
  cases hinput : (Entries.named entries Direction.input.tag).isNull with
  | true =>
      cases houtput : (Entries.named entries Direction.output.tag).isNull with
      | true =>
          have hnone := Value.asText?_of_isNull houtput
          simp [ofEntries_eq_ok_iff, Value.orElse, hinput, hnone]
      | false => simp [ofEntries_eq_ok_iff, Value.orElse, hinput, houtput]
  | false =>
      cases houtput : (Entries.named entries Direction.output.tag).isNull with
      | true => simp [ofEntries_eq_ok_iff, Value.orElse, hinput, houtput]
      | false => simp [ofEntries_eq_ok_iff, Value.orElse, hinput, houtput]

theorem exists_ofValue_iff (entry : Value) (path : String) :
    (∃ types, ofValue entry path = .ok types) ↔ IsEntry entry := by
  have htext {entry : Value} (h : IsEntry entry) (hbuilt : entry.fields? = none)
      (hentries : entry.asEntries? = none) : ∃ type, entry.asText? = some type := by
    cases h with
    | built => cases hbuilt
    | text htext => exact ⟨_, htext⟩
    | mapping => cases hentries
  cases entry with
  | scalarTypes input output => exact iff_of_true ⟨_, rfl⟩ (.built input output)
  | text s => exact iff_of_true ⟨_, rfl⟩ (.text rfl)
  | choice c => exact iff_of_true ⟨_, rfl⟩ (.text rfl)
  | mapping frozen entries =>
      refine (exists_ofEntries_iff entries path).trans ?_
      constructor
      · rintro ⟨hset, htexts⟩
        exact .mapping hset htexts
      · intro h
        cases h with
        | text h => cases h
        | mapping hset htexts => exact ⟨hset, htexts⟩
  | _ =>
      refine iff_of_false ?_ fun h => ?_
      · simp [ofValue, Value.asText?]
      · cases h with
        | text h => cases h

/-- The path at which an entry is read shows in faults only. -/
theorem ofValue_eq_ok_of_path {entry : Value} {path : String} {types : ScalarTypes}
    (h : ofValue entry path = .ok types) (other : String) : ofValue entry other = .ok types := by
  cases entry with
  | mapping frozen entries =>
      rw [ofValue, ofEntries_eq_ok_iff] at h ⊢
      exact h
  | scalarTypes | text | choice => exact h
  | _ => simp [ofValue, Value.asText?] at h

end ScalarTypes

namespace ScalarTable

variable {known table : ScalarTable} {entries : Entries}

theorem overlay_append (known : ScalarTable) (first second : Entries) :
    overlay known (first ++ second) =
      overlay known first >>= fun table => overlay table second := by
  induction first generalizing known with
  | nil => rfl
  | cons entry rest ih =>
      rw [List.cons_append, overlay, overlay]
      cases ScalarTypes.ofValue entry.2 ("scalars." ++ entry.1.displayed) with
      | error fault => rfl
      | ok types => exact ih _

/-- Entries can be laid over known scalars exactly if each of them is one by itself. -/
theorem exists_overlay_iff_isEntry (known : ScalarTable) (entries : Entries) :
    (∃ table, overlay known entries = .ok table) ↔
      ∀ entry ∈ entries, ScalarTypes.IsEntry entry.2 := by
  rw [exists_overlay_iff]
  simp only [ScalarTypes.exists_ofValue_iff]

/-- The first entry that is refused decides, whatever is known and whatever follows. -/
theorem overlay_of_first_bad {before : Entries} {bad : Value × Value}
    (hbefore : ∀ entry ∈ before, ScalarTypes.IsEntry entry.2)
    (hbad : ¬ ScalarTypes.IsEntry bad.2) (known : ScalarTable) (after : Entries) :
    ∃ cause, ScalarTypes.ofValue bad.2 ("scalars." ++ bad.1.displayed) = .error (.config cause) ∧
      overlay known (before ++ bad :: after) = .error (.config cause) := by
  obtain ⟨table, htable⟩ := (exists_overlay_iff_isEntry known before).2 hbefore
  cases hread : ScalarTypes.ofValue bad.2 ("scalars." ++ bad.1.displayed) with
  | ok types => exact absurd ((ScalarTypes.exists_ofValue_iff _ _).1 ⟨types, hread⟩) hbad
  | error fault =>
      obtain ⟨cause, rfl⟩ := ScalarTypes.onlyRefuses_ofValue _ _ fault hread
      refine ⟨cause, rfl, ?_⟩
      rw [overlay_append, htable]
      change overlay table (bad :: after) = _
      rw [overlay, hread]
      rfl

/-- The known scalars stay in front, and the other names follow in their order. -/
theorem map_fst_overlay (hentries : Table.Distinct entries)
    (h : overlay known entries = .ok table) :
    table.map (·.1) =
      known.map (·.1) ++ (entries.map (·.1)).filter fun key => !Table.hasKey known key := by
  induction entries generalizing known with
  | nil =>
      obtain rfl : known = table := Except.ok.inj h
      simp
  | cons entry rest ih =>
      obtain ⟨hfirst, hrest⟩ := List.pairwise_cons.1 hentries
      obtain ⟨types, -, h⟩ := bind_eq_ok_iff.1 h
      have hkept : ((rest.map (·.1)).filter fun key =>
            !Table.hasKey (Table.put entry.1 types known) key) =
          (rest.map (·.1)).filter fun key => !Table.hasKey known key := by
        apply List.filter_congr
        intro key hkey
        obtain ⟨other, hother, rfl⟩ := List.mem_map.1 hkey
        rw [Table.hasKey_put, hfirst other hother, Bool.false_or]
      rw [ih hrest h, hkept, Table.map_fst_put, List.map_cons, List.filter_cons]
      cases Table.hasKey known entry.1 <;> simp

/-- Other types for a scalar that is known already, and not named any more, come through. -/
theorem overlay_put_known {key : Value} (types : ScalarTypes)
    (hkey : Table.hasKey known key = true) (habsent : ∀ entry ∈ entries, key.sameAs entry.1 = false)
    (h : overlay known entries = .ok table) :
    overlay (Table.put key types known) entries = .ok (Table.put key types table) := by
  induction entries generalizing known with
  | nil =>
      obtain rfl : known = table := Except.ok.inj h
      rfl
  | cons entry rest ih =>
      obtain ⟨hentry, hrest⟩ := List.forall_mem_cons.1 habsent
      obtain ⟨read, hread, h⟩ := bind_eq_ok_iff.1 h
      apply bind_eq_ok_iff.2
      refine ⟨read, hread, ?_⟩
      rw [Table.put_comm hentry hkey]
      apply ih _ hrest h
      rw [Table.hasKey_put, hkey, Bool.or_true]

/-- An entry that is put among others is laid over last. -/
theorem overlay_put {key entry : Value} {types : ScalarTypes} {path : String}
    (hentries : Table.Distinct entries) (hread : ScalarTypes.ofValue entry path = .ok types)
    (h : overlay known entries = .ok table) :
    overlay known (Table.put key entry entries) = .ok (Table.put key types table) := by
  induction entries generalizing known with
  | nil =>
      obtain rfl : known = table := Except.ok.inj h
      apply bind_eq_ok_iff.2
      exact ⟨types, ScalarTypes.ofValue_eq_ok_of_path hread _, rfl⟩
  | cons first rest ih =>
      obtain ⟨hfirst, hrest⟩ := List.pairwise_cons.1 hentries
      obtain ⟨old, hold, h⟩ := bind_eq_ok_iff.1 h
      rw [Table.put]
      by_cases hsame : first.1.sameAs key = true
      · -- The entry replaces an earlier one, whose scalar is known by then.
        have habsent (other : Value × Value) (hother : other ∈ rest) :
            key.sameAs other.1 = false := by
          rw [← Value.sameAs_congr hsame]
          exact hfirst other hother
        have hknown : Table.hasKey (Table.put first.1 old known) key = true := by
          rw [Table.hasKey_put, hsame, Bool.true_or]
        have hlast := overlay_put_known types hknown habsent h
        rw [Table.put_put_of_sameAs hsame] at hlast
        rw [if_pos hsame]
        apply bind_eq_ok_iff.2
        exact ⟨types, ScalarTypes.ofValue_eq_ok_of_path hread _, hlast⟩
      · rw [if_neg hsame]
        apply bind_eq_ok_iff.2
        exact ⟨old, hold, ih hrest h⟩

/-- Entries that are laid over others are read as what they are read as, laid over what the others
are. -/
theorem overlay_laidOver {others : Entries} {read : ScalarTable}
    (hread : List.Forall₂ (fun entry types => entry.1 = types.1 ∧
      ∃ path, ScalarTypes.ofValue entry.2 path = .ok types.2) others read)
    (hentries : Table.Distinct entries) (h : overlay known entries = .ok table) :
    overlay known (Table.laidOver others entries) = .ok (Table.laidOver read table) := by
  induction hread generalizing entries table with
  | nil => exact h
  | @cons entry types _ _ hfirst _ ih =>
      obtain ⟨hkey, path, hfirst⟩ := hfirst
      have hput : overlay known (Table.put entry.1 entry.2 entries) =
          .ok (Table.put types.1 types.2 table) := by
        rw [← hkey]
        exact overlay_put hentries hfirst h
      exact ih (hentries.put entry.1 entry.2) hput

/-- Under the keys of entries stands what they are read as. -/
theorem forall₂_under (hentries : Table.Distinct entries) (h : overlay known entries = .ok table) :
    List.Forall₂ (fun entry types => entry.1 = types.1 ∧
      ∃ path, ScalarTypes.ofValue entry.2 path = .ok types.2) entries
        (Table.under table entries) := by
  have hfound (listed : Entries) (hlisted : ∀ entry ∈ listed, entry ∈ entries) :
      List.Forall₂ (fun entry types => entry.1 = types.1 ∧
        ∃ path, ScalarTypes.ofValue entry.2 path = .ok types.2) listed
          (Table.under table listed) := by
    induction listed with
    | nil => exact .nil
    | cons entry rest ih =>
        obtain ⟨hentry, hrest⟩ := List.forall_mem_cons.1 hlisted
        have hlookup : Table.lookup? entries entry.1 = some entry.2 :=
          hentries.lookup?_of_mem (Value.sameAs_refl entry.1) hentry
        obtain ⟨path, types, hread, htypes⟩ := lookup?_overlay_of_some hentries h hlookup
        have hunder : Table.under table (entry :: rest) =
            (entry.1, types) :: Table.under table rest := by
          simp [Table.under, htypes]
        rw [hunder]
        exact .cons ⟨rfl, path, hread⟩ (ih hrest)
  exact hfound entries fun _ hentry => hentry

/-- A table holds what entries give, over the built-in scalars. -/
structure Holds (entries : Entries) (table : ScalarTable) : Prop where
  /-- The built-in scalars stand in front, and the other names follow in their order. -/
  keys_eq : table.map (·.1) =
    builtin.map (·.1) ++ (entries.map (·.1)).filter fun key => !Table.hasKey builtin key
  /-- Under the name of an entry stand the types that it gives for either direction. -/
  of_entry : ∀ entry ∈ entries, ∃ types, Table.lookup? table entry.1 = some types ∧
    ∀ direction, ScalarTypes.given? direction entry.2 = some (types.toward direction)
  /-- A built-in scalar without an entry keeps its type. -/
  of_builtin : ∀ name type, builtinType? name = some type →
    Table.lookup? entries (.text name) = none → Table.lookup? table (.text name) = some (.both type)

theorem holds_of_overlay (hentries : Table.Distinct entries)
    (h : overlay builtin entries = .ok table) : Holds entries table := by
  constructor
  case keys_eq => exact map_fst_overlay hentries h
  case of_entry =>
    intro entry hentry
    have hlookup : Table.lookup? entries entry.1 = some entry.2 :=
      hentries.lookup?_of_mem (Value.sameAs_refl entry.1) hentry
    obtain ⟨path, types, hread, htypes⟩ := lookup?_overlay_of_some hentries h hlookup
    exact ⟨types, htypes, ScalarTypes.given?_of_ofValue hread⟩
  case of_builtin =>
    intro name type hname habsent
    rw [lookup?_overlay_of_none h habsent, lookup?_builtin, hname, Option.map_some]

/-- A mapping of scalars is read exactly if each of its entries is one, and is refused as the first
bad entry is by itself. What is read holds the entries over the built-in scalars, is read as itself
again, and takes what is read of a later mapping as the mapping itself takes the later one. -/
theorem ofValue_mapping (frozen : Bool) (hentries : Table.Distinct entries) :
    ((∃ table, ofValue (.mapping frozen entries) = .ok table) ↔
      ∀ entry ∈ entries, ScalarTypes.IsEntry entry.2) ∧
    ((∃ entry ∈ entries, ¬ ScalarTypes.IsEntry entry.2) →
      ∃ before bad after cause, entries = before ++ bad :: after ∧
        (∀ entry ∈ before, ScalarTypes.IsEntry entry.2) ∧ ¬ ScalarTypes.IsEntry bad.2 ∧
          ofValue (.mapping false [bad]) = .error (.config cause) ∧
            ofValue (.mapping frozen entries) = .error (.config cause)) ∧
    ∀ table, ofValue (.mapping frozen entries) = .ok table →
      Holds entries table ∧ ofValue table.toValue = .ok table ∧
        ∀ (frozen' frozen'' : Bool) (others : Entries) (other : ScalarTable),
          Table.Distinct others → ofValue (.mapping frozen' others) = .ok other →
            ofValue (.mapping frozen'' (Table.laidOver others entries)) =
              .ok (Table.laidOver (Table.under other others) table) := by
  refine ⟨exists_overlay_iff_isEntry builtin entries, ?_, ?_⟩
  · rintro ⟨entry, hentry, hbad⟩
    classical
    have hfound : (entries.find? fun entry => !decide (ScalarTypes.IsEntry entry.2)).isSome := by
      rw [List.find?_isSome]
      exact ⟨entry, hentry, by simpa using hbad⟩
    obtain ⟨bad, hfind⟩ := Option.isSome_iff_exists.1 hfound
    obtain ⟨hfirst, before, after, hsplit, hbefore⟩ := List.find?_eq_some_iff_append.1 hfind
    have hpassed : ∀ entry ∈ before, ScalarTypes.IsEntry entry.2 := by simpa using hbefore
    have hrefused : ¬ ScalarTypes.IsEntry bad.2 := by simpa using hfirst
    obtain ⟨cause, hcause, hwhole⟩ := overlay_of_first_bad hpassed hrefused builtin after
    refine ⟨before, bad, after, cause, hsplit, hpassed, hrefused, ?_, ?_⟩
    · change (ScalarTypes.ofValue bad.2 ("scalars." ++ bad.1.displayed) >>= _) = _
      rw [hcause]
      rfl
    · rw [hsplit]
      exact hwhole
  · intro table htable
    refine ⟨holds_of_overlay hentries htable, ofValue_toValue htable, ?_⟩
    intro frozen' frozen'' others other hothers hother
    exact overlay_laidOver (forall₂_under hothers hother) hentries htable

/-- A built-in scalar with an output side only, a text, and built types under a number. -/
def mixedScalars : Entries :=
  [(.text "ID", .mapping false [(.text "input", .null), (.text "output", .text "UUID")]),
    (.text "Date", .text "Day"), (.integer 1, .scalarTypes (.text "In") .null)]

/-- The same number in another form, and a name of its own. -/
def laterScalars : Entries :=
  [(.boolean true, .text "Flag"), (.text "Time", .mapping false [(.text "input", .text "Hour")])]

/-- A bad entry between a good one and another bad one. -/
def refusedScalars : Entries :=
  [(.text "A", .text "B"), (.text "C", .integer 3), (.text "D", .null)]

/-- A mapping that is read, one that is read over it, and one that is refused. -/
theorem ofValue_mapping_mixed :
    Table.Distinct mixedScalars ∧ Table.Distinct laterScalars ∧
      (∃ table other, ofValue (.mapping false mixedScalars) = .ok table ∧
        Holds mixedScalars table ∧ ofValue table.toValue = .ok table ∧
          ofValue (.mapping false laterScalars) = .ok other ∧
            ofValue (.mapping false (Table.laidOver laterScalars mixedScalars)) =
              .ok (Table.laidOver (Table.under other laterScalars) table)) ∧
      Table.Distinct refusedScalars ∧
      ∃ cause, ofValue (.mapping false refusedScalars) = .error (.config cause) := by
  have hmixed : Table.Distinct mixedScalars := by decide
  have hlater : Table.Distinct laterScalars := by decide
  have hbad : Table.Distinct refusedScalars := by decide
  obtain ⟨table, htable⟩ : ∃ table, ofValue (.mapping false mixedScalars) = .ok table := ⟨_, rfl⟩
  obtain ⟨other, hother⟩ : ∃ other, ofValue (.mapping false laterScalars) = .ok other := ⟨_, rfl⟩
  obtain ⟨hholds, hagain, hover⟩ := (ofValue_mapping false hmixed).2.2 table htable
  have hrefused : ¬ ScalarTypes.IsEntry (.integer 3) := by
    rintro (_ | h | _)
    cases h
  obtain ⟨_, _, _, cause, -, -, -, -, hcause⟩ :=
    (ofValue_mapping false hbad).2.1 ⟨(.text "C", .integer 3), by simp [refusedScalars], hrefused⟩
  exact ⟨hmixed, hlater, ⟨table, other, htable, hholds, hagain, hother,
    hover false false laterScalars other hlater hother⟩, hbad, cause, hcause⟩

end ScalarTable

end Nomenclature
