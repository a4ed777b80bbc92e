import Mathlib.Data.List.Forall2
import Nomenclature.Proofs.Lookup

/-!
# Induction over values

A value holds others: the items of a container, the keys and values of a mapping, the fields of a
built setting. Whatever a value inherits from those that it holds is true of all values. Two uses
follow: what was frozen is not changed by freezing it again, and every value is the same as itself.
-/

namespace Nomenclature.Value

/-- The values that a value holds directly. -/
def held : Value → List Value
  | list items => items
  | tuple items => items
  | set _ items => items
  | mapping _ entries => entries.map (·.1) ++ entries.map (·.2)
  | scalarTypes input output => [input, output]
  | fragment name onType definition isExternal importFrom =>
    [name, onType, definition, isExternal, importFrom]
  | identifier name kind => [name, kind]
  | fragmentImport baseDir baseOutputDir outputPath identifiers typeImport importPath scope =>
    [baseDir, baseOutputDir, outputPath, identifiers, typeImport, importPath, scope]
  | convention typeNames enumValues transformUnderscore =>
    [typeNames, enumValues, transformUnderscore]
  | _ => []

theorem sizeOf_lt_of_mem_held {part value : Value} (h : part ∈ value.held) :
    sizeOf part < sizeOf value := by
  have hitems (items : List Value) (h : part ∈ items) : sizeOf part < sizeOf items :=
    List.sizeOf_lt_of_mem h
  have hentries (entries : Entries) (h : part ∈ entries.map (·.1) ++ entries.map (·.2)) :
      sizeOf part < sizeOf entries := by
    rcases List.mem_append.1 h with h | h
    all_goals
      obtain ⟨⟨key, item⟩, hentry, rfl⟩ := List.mem_map.1 h
      have hlt := List.sizeOf_lt_of_mem hentry
      simp only [Prod.mk.sizeOf_spec] at hlt ⊢
      omega
  cases value with
  | list items =>
      have hlt := hitems items h
      simp only [list.sizeOf_spec]
      omega
  | tuple items =>
      have hlt := hitems items h
      simp only [tuple.sizeOf_spec]
      omega
  | set frozen items =>
      have hlt := hitems items h
      simp only [set.sizeOf_spec]
      omega
  | mapping frozen entries =>
      have hlt := hentries entries h
      simp only [mapping.sizeOf_spec]
      omega
  | scalarTypes input output =>
      simp only [held, List.mem_cons, List.not_mem_nil, or_false] at h
      simp only [scalarTypes.sizeOf_spec]
      rcases h with rfl | rfl
      all_goals omega
  | fragment name onType definition isExternal importFrom =>
      simp only [held, List.mem_cons, List.not_mem_nil, or_false] at h
      simp only [fragment.sizeOf_spec]
      rcases h with rfl | rfl | rfl | rfl | rfl
      all_goals omega
  | identifier name kind =>
      simp only [held, List.mem_cons, List.not_mem_nil, or_false] at h
      simp only [identifier.sizeOf_spec]
      rcases h with rfl | rfl
      all_goals omega
  | fragmentImport baseDir baseOutputDir outputPath identifiers typeImport importPath scope =>
      simp only [held, List.mem_cons, List.not_mem_nil, or_false] at h
      simp only [fragmentImport.sizeOf_spec]
      rcases h with rfl | rfl | rfl | rfl | rfl | rfl | rfl
      all_goals omega
  | convention typeNames enumValues transformUnderscore =>
      simp only [held, List.mem_cons, List.not_mem_nil, or_false] at h
      simp only [convention.sizeOf_spec]
      rcases h with rfl | rfl | rfl
      all_goals omega
  | _ => simp [held] at h

/-- Induction from the values that a value holds. -/
theorem induction {P : Value → Prop}
    (step : ∀ value, (∀ part ∈ value.held, P part) → P value) (value : Value) : P value :=
  step value fun part _ => induction step part
termination_by sizeOf value
decreasing_by exact sizeOf_lt_of_mem_held ‹_›

theorem held_of_asItems? {v : Value} {items : List Value} (hv : v.asItems? = some items) :
    v.held = items := by
  cases v with
  | list => exact Option.some.inj hv
  | tuple => exact Option.some.inj hv
  | _ => simp [asItems?] at hv

theorem held_of_asEntries? {v : Value} {entries : Entries} (hv : v.asEntries? = some entries) :
    v.held = entries.map (·.1) ++ entries.map (·.2) := by
  cases v with
  | mapping =>
      obtain rfl := Option.some.inj hv
      rfl
  | _ => simp [asEntries?] at hv

/-- No mapping repeats a key, at any depth. -/
inductive HasDistinctKeys : Value → Prop where
  | intro {value : Value}
      (distinct : ∀ entries, value.asEntries? = some entries → Table.Distinct entries)
      (held : ∀ part ∈ value.held, HasDistinctKeys part) : HasDistinctKeys value

theorem HasDistinctKeys.distinct {value : Value} {entries : Entries}
    (hvalue : value.HasDistinctKeys) (hentries : value.asEntries? = some entries) :
    Table.Distinct entries := by
  cases hvalue with
  | intro distinct _ => exact distinct entries hentries

theorem HasDistinctKeys.of_mem_held {value part : Value} (hvalue : value.HasDistinctKeys)
    (hpart : part ∈ value.held) : part.HasDistinctKeys := by
  cases hvalue with
  | intro _ held => exact held part hpart

theorem HasDistinctKeys.of_mem {value : Value} {entries : Entries}
    (hvalue : value.HasDistinctKeys) (hentries : value.asEntries? = some entries)
    {entry : Value × Value} (hentry : entry ∈ entries) : entry.2.HasDistinctKeys := by
  apply hvalue.of_mem_held
  rw [held_of_asEntries? hentries]
  exact List.mem_append_right _ (List.mem_map_of_mem hentry)

/-- A value that holds nothing repeats nothing. -/
theorem hasDistinctKeys_of_held_eq_nil {value : Value} (hvalue : value.held = []) :
    value.HasDistinctKeys := by
  constructor
  · intro entries hentries
    rw [held_of_asEntries? hentries, List.append_eq_nil_iff, List.map_eq_nil_iff] at hvalue
    rw [hvalue.1]
    exact Table.distinct_nil
  · simp [hvalue]

theorem hasDistinctKeys_mapping_iff {frozen : Bool} {entries : Entries} :
    (mapping frozen entries).HasDistinctKeys ↔ Table.Distinct entries ∧
      ∀ entry ∈ entries, entry.1.HasDistinctKeys ∧ entry.2.HasDistinctKeys := by
  constructor
  · intro h
    refine ⟨h.distinct rfl, fun entry hentry => ⟨?_, h.of_mem rfl hentry⟩⟩
    exact h.of_mem_held (List.mem_append_left _ (List.mem_map_of_mem hentry))
  · rintro ⟨hdistinct, hheld⟩
    constructor
    · intro others hothers
      obtain rfl := Option.some.inj hothers
      exact hdistinct
    · intro part hpart
      rcases List.mem_append.1 hpart with hkey | hitem
      · obtain ⟨entry, hentry, rfl⟩ := List.mem_map.1 hkey
        exact (hheld entry hentry).1
      · obtain ⟨entry, hentry, rfl⟩ := List.mem_map.1 hitem
        exact (hheld entry hentry).2

/-- The fields of a built setting have names of their own and hold what it holds. -/
theorem fields?_eq_some {value : Value} {fields : List (String × Value)}
    (h : value.fields? = some fields) :
    (fields.map (·.1)).Nodup ∧ fields.map (·.2) = value.held := by
  cases value with
  | scalarTypes =>
      obtain rfl := Option.some.inj h
      exact ⟨(by decide : scalarTypesFields.Nodup), rfl⟩
  | fragment =>
      obtain rfl := Option.some.inj h
      exact ⟨(by decide : fragmentFields.Nodup), rfl⟩
  | identifier =>
      obtain rfl := Option.some.inj h
      exact ⟨(by decide : identifierFields.Nodup), rfl⟩
  | fragmentImport =>
      obtain rfl := Option.some.inj h
      exact ⟨(by decide : fragmentImportFields.Nodup), rfl⟩
  | convention =>
      obtain rfl := Option.some.inj h
      exact ⟨(by decide : conventionFields.Nodup), rfl⟩
  | _ => simp [fields?] at h

theorem isNull_freeze (value : Value) : value.freeze.isNull = value.isNull := by
  cases value <;> rfl

/-- What was frozen is not changed by freezing it again. -/
@[simp]
theorem freeze_freeze (value : Value) : value.freeze.freeze = value.freeze := by
  induction value using induction with
  | step value ih =>
  have hitems (items : List Value) (h : ∀ item ∈ items, item.freeze.freeze = item.freeze) :
      freezeItems (freezeItems items) = freezeItems items := by
    simpa [freezeItems_eq_map] using h
  cases value with
  | list items => rw [freeze, freeze, hitems items ih]
  | tuple items => rw [freeze, freeze, hitems items ih]
  | set frozen items => rw [freeze, freeze, hitems items ih]
  | mapping frozen entries =>
      rw [freeze, freeze, freezeEntries_eq_map, freezeEntries_eq_map, List.map_map]
      refine congrArg _ (List.map_congr_left fun entry hentry => ?_)
      refine Prod.ext rfl (ih entry.2 ?_)
      exact List.mem_append_right _ (List.mem_map_of_mem hentry)
  | _ => rfl

theorem freezeEntries_freezeEntries (entries : Entries) :
    freezeEntries (freezeEntries entries) = freezeEntries entries := by
  simp only [freezeEntries_eq_map, List.map_map, Function.comp_def, freeze_freeze]

theorem sameItems_iff (items others : List Value) :
    sameItems items others = true ↔
      List.Forall₂ (fun item other => item.sameAs other = true) items others := by
  induction items generalizing others with
  | nil => cases others <;> simp [sameItems]
  | cons item rest ih => cases others <;> simp [sameItems, ih]

theorem allAmong_iff (items others : List Value) :
    allAmong items others = true ↔ ∀ item ∈ items, ∃ other ∈ others, item.sameAs other = true := by
  induction items with
  | nil => simp [allAmong]
  | cons item rest ih => simp [allAmong, ih]

theorem anySame_iff (items : List Value) (other : Value) :
    anySame items other = true ↔ ∃ item ∈ items, item.sameAs other = true := by
  induction items with
  | nil => simp [anySame]
  | cons item rest ih => simp [anySame, ih]

theorem entriesAmong_iff (entries others : Entries) :
    entriesAmong entries others = true ↔ ∀ entry ∈ entries, ∃ other ∈ others,
      entry.1.sameAs other.1 = true ∧ entry.2.sameAs other.2 = true := by
  induction entries with
  | nil => simp [entriesAmong]
  | cons entry rest ih => simp [entriesAmong, ih]

theorem anyEntry_iff (entries : Entries) (other : Value × Value) :
    anyEntry entries other = true ↔ ∃ entry ∈ entries,
      entry.1.sameAs other.1 = true ∧ entry.2.sameAs other.2 = true := by
  induction entries with
  | nil => simp [anyEntry]
  | cons entry rest ih => simp [anyEntry, ih]

/-- Two sets are the same if each item of either is among those of the other. -/
theorem sameAs_set_iff (frozen frozen' : Bool) (items others : List Value) :
    (set frozen items).sameAs (set frozen' others) = true ↔
      (∀ item ∈ items, ∃ other ∈ others, item.sameAs other = true) ∧
        ∀ other ∈ others, ∃ item ∈ items, item.sameAs other = true := by
  simp only [sameAs, Bool.and_eq_true, allAmong_iff, List.all_eq_true, anySame_iff]

/-- Two mappings are the same if each entry of either is among those of the other. -/
theorem sameAs_mapping_iff (frozen frozen' : Bool) (entries others : Entries) :
    (mapping frozen entries).sameAs (mapping frozen' others) = true ↔
      (∀ entry ∈ entries, ∃ other ∈ others,
        entry.1.sameAs other.1 = true ∧ entry.2.sameAs other.2 = true) ∧
        ∀ other ∈ others, ∃ entry ∈ entries,
          entry.1.sameAs other.1 = true ∧ entry.2.sameAs other.2 = true := by
  simp only [sameAs, Bool.and_eq_true, entriesAmong_iff, List.all_eq_true, anyEntry_iff]

/-- Every value is the same as itself. -/
@[simp]
theorem sameAs_refl (value : Value) : value.sameAs value = true := by
  induction value using induction with
  | step value ih =>
  have hitems (items : List Value) (h : ∀ item ∈ items, item.sameAs item = true) :
      sameItems items items = true :=
    (sameItems_iff items items).2 (List.forall₂_same.2 h)
  cases value with
  | list items => exact hitems items ih
  | tuple items => exact hitems items ih
  | set frozen items =>
      rw [sameAs_set_iff]
      exact ⟨fun item h => ⟨item, h, ih item h⟩, fun item h => ⟨item, h, ih item h⟩⟩
  | mapping frozen entries =>
      rw [sameAs_mapping_iff]
      have hentry (entry : Value × Value) (h : entry ∈ entries) :
          entry.1.sameAs entry.1 = true ∧ entry.2.sameAs entry.2 = true :=
        ⟨ih _ (List.mem_append_left _ (List.mem_map_of_mem h)),
          ih _ (List.mem_append_right _ (List.mem_map_of_mem h))⟩
      exact ⟨fun entry h => ⟨entry, h, hentry entry h⟩, fun entry h => ⟨entry, h, hentry entry h⟩⟩
  | _ => simp_all [held, sameAs, sameQuantity, sameText, quantity?, isNull, asText?]

end Nomenclature.Value
