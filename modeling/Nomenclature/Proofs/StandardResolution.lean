import Nomenclature.Proofs.Resolution

/-!
# Resolution over the standard defaults

The standard table sets every key, so a key always has an effective value: what the layers set, or
its standard value. A resolution reads the effective values. These lemmas restate its steps, its
fields and its extras in terms of the two layers that a caller gives.
-/

namespace Nomenclature

/-- A host that offers no module. -/
def Host.bare : Host :=
  ⟨[], fun _ _ => .error .missingArgument⟩

namespace Layers

theorem entries_mapping (frozen : Bool) (layer : Entries) :
    entries (orEmpty (.mapping frozen layer)) = .ok layer := by
  cases layer <;> rfl

theorem entries_null : entries (orEmpty .null) = .ok [] := rfl

theorem entries_eq_ok_iff {layer : Value} {held : Entries} :
    entries layer = .ok held ↔ layer.asEntries? = some held := by
  rw [entries]
  cases layer.asEntries? <;> simp

/-- A layer holds its own entries, or none where it is left out. -/
theorem asEntries?_of_orEmpty {layer : Value} {held : Entries}
    (h : entries (orEmpty layer) = .ok held) : layer.asEntries? = some held ∨ held = [] := by
  rw [entries_eq_ok_iff, orEmpty] at h
  split at h
  · exact .inl h
  · exact .inr (Option.some.inj h).symm

theorem entries_of_asEntries? {layer : Value} {held : Entries}
    (h : layer.asEntries? = some held) : entries (orEmpty layer) = .ok held := by
  cases layer with
  | mapping frozen others =>
      obtain rfl := Option.some.inj h
      exact entries_mapping frozen others
  | _ => simp [Value.asEntries?] at h

theorem sets_eq {layer : Value} {held : Entries} (hlayer : entries (orEmpty layer) = .ok held)
    (key : String) : sets layer key = !(Entries.named held key).isNull := by
  rw [sets, entries_eq_ok_iff.1 hlayer]

theorem merged_mapping {raw overrides : Value} {upper lower : Entries}
    (hraw : entries (orEmpty raw) = .ok lower)
    (hoverrides : entries (orEmpty overrides) = .ok upper) (frozen : Bool) (defaults : Entries) :
    merged (.mapping frozen defaults) raw overrides = .ok (union [upper, lower, defaults]) := by
  rw [merged, hraw, hoverrides]
  rfl

theorem merged_standard {raw overrides : Value} {upper lower : Entries}
    (hraw : entries (orEmpty raw) = .ok lower)
    (hoverrides : entries (orEmpty overrides) = .ok upper) :
    merged (.mapping true standardDefaults) raw overrides =
      .ok (union [upper, lower, standardDefaults]) :=
  merged_mapping hraw hoverrides true standardDefaults

end Layers

namespace SettingKey

/-- The value of a key that is not null: what the layers set, or its standard value. -/
def effective (overrides raw : Entries) (key : SettingKey) : Value :=
  (Layers.value overrides raw key.name).orElse key.standard

/-- What holds of null, of a standard value and of all that the layers set holds of what is in
effect. -/
theorem effective_of {P : Value → Prop} {overrides raw : Entries} {key : SettingKey}
    (hoverrides : ∀ entry ∈ overrides, P entry.2) (hraw : ∀ entry ∈ raw, P entry.2)
    (hnull : P .null) (hstandard : P key.standard) : P (key.effective overrides raw) := by
  have hnamed {layer : Entries} (hlayer : ∀ entry ∈ layer, P entry.2) :
      P (Entries.named layer key.name) := Entries.getD_of hlayer key.name hnull
  exact Value.orElse_of (Value.orElse_of (hnamed hoverrides) (hnamed hraw)) hstandard

/-- The keys in the order in which they are read, the first one apart. -/
def order : List SettingKey :=
  namingConvention :: later

theorem mem_order {key : SettingKey} : key ≠ strictScalars → key ∈ order := by
  refine forall_of_later (P := fun key => key ≠ strictScalars → key ∈ order) ?_ ?_ ?_ key
  · exact fun h => absurd rfl h
  · exact fun _ => List.mem_cons_self
  · exact fun _ hlater _ => List.mem_cons_of_mem _ hlater

end SettingKey

/-- What holds of all that the layers set and of the standard values holds of the merged table. -/
theorem Layers.forall_of_union {P : Value × Value → Prop} {overrides raw : Entries}
    (hoverrides : ∀ entry ∈ overrides, P entry) (hraw : ∀ entry ∈ raw, P entry)
    (hstandard : ∀ key : SettingKey, P (.text key.name, key.standard)) :
    ∀ entry ∈ union [overrides, raw, standardDefaults], P entry := by
  intro entry hentry
  obtain ⟨layer, hlayer, hmem, -⟩ := mem_of_mem_union hentry
  simp only [List.mem_cons, List.not_mem_nil, or_false] at hlayer
  rcases hlayer with rfl | rfl | rfl
  · exact hoverrides entry hmem
  · exact hraw entry hmem
  · rw [SettingKey.standardDefaults_eq] at hmem
    obtain ⟨key, -, rfl⟩ := List.mem_map.1 hmem
    exact hstandard key

namespace Resolve

/-- Scalars are strict although a layer sets a default type. -/
def Clash (overrides raw : Entries) : Prop :=
  booleanSetting (Layers.union [overrides, raw, Layers.standardDefaults]) "strictScalars" =
      .ok true ∧
    ((Entries.named raw "defaultScalarType").isNull = false ∨
      (Entries.named overrides "defaultScalarType").isNull = false)

section

variable {host : Host} {overrides raw : Entries}

theorem setting_merged (hoverrides : Table.Distinct overrides) (hraw : Table.Distinct raw)
    (key : SettingKey) :
    setting (Layers.union [overrides, raw, Layers.standardDefaults]) key.name =
      .ok (key.effective overrides raw) := by
  rw [setting, Layers.lookup?_merged hoverrides hraw, SettingKey.set?_standardDefaults,
    SettingKey.effective, Value.orElse]
  cases (Layers.value overrides raw key.name).isNull <;> rfl

/-- Layers clash by what is in effect under strictness and by what they set as a default type. -/
theorem clash_iff (hoverrides : Table.Distinct overrides) (hraw : Table.Distinct raw) :
    Clash overrides raw ↔
      Setting.boolean (SettingKey.strictScalars.effective overrides raw) "strictScalars" =
          .ok true ∧
        ((Entries.named raw "defaultScalarType").isNull = false ∨
          (Entries.named overrides "defaultScalarType").isNull = false) := by
  have hsetting := setting_merged hoverrides hraw .strictScalars
  rw [SettingKey.name] at hsetting
  rw [Clash, booleanSetting, hsetting]
  rfl

theorem named_merged (hoverrides : Table.Distinct overrides) (hraw : Table.Distinct raw)
    (key : SettingKey) :
    Entries.named (Layers.union [overrides, raw, Layers.standardDefaults]) key.name =
      key.effective overrides raw := by
  have hsetting := setting_merged hoverrides hraw key
  rw [setting] at hsetting
  rw [Entries.named, Entries.getD]
  cases hlookup : Table.lookup? (Layers.union [overrides, raw, Layers.standardDefaults])
      (.text key.name) with
  | none => simp [hlookup] at hsetting
  | some value => simpa [hlookup] using hsetting

theorem readKey_merged (hoverrides : Table.Distinct overrides) (hraw : Table.Distinct raw)
    (key : SettingKey) :
    readKey host (Layers.union [overrides, raw, Layers.standardDefaults]) key =
      key.read host (key.effective overrides raw) := by
  rw [readKey, setting_merged hoverrides hraw]
  rfl

/-- Over the standard defaults, the extras are the entries under all other keys. -/
theorem extras_standard (merged : Entries) :
    extras (.mapping true Layers.standardDefaults) merged =
      merged.filter fun entry => !Table.hasKey Layers.standardDefaults entry.1 := rfl

/-- Over layers with texts as keys, so are the keys that no default knows. -/
theorem extras_isLayer (hoverrides : overrides.IsLayer) (hraw : raw.IsLayer) :
    Entries.IsLayer (extras (.mapping true Layers.standardDefaults)
      (Layers.union [overrides, raw, Layers.standardDefaults])) := by
  have htexts : ∀ entry ∈ Layers.union [overrides, raw, Layers.standardDefaults],
      entry.1.asText?.isSome :=
    Layers.forall_of_union hoverrides.texts hraw.texts fun key => rfl
  constructor
  · intro entry hentry
    exact htexts entry (List.mem_filter.1 hentry).1
  · exact List.Pairwise.filter _ (Layers.distinct_union _)

/-- Keys that are texts can always be put in order. -/
theorem ordering_eq_ok (hoverrides : overrides.IsLayer) (hraw : raw.IsLayer) :
    ordering (.mapping true Layers.standardDefaults)
      (Layers.union [overrides, raw, Layers.standardDefaults]) = .ok .null := by
  rw [ordering, Value.sorted?, if_pos]
  rw [List.all_map, List.all_eq_true]
  exact (extras_isLayer hoverrides hraw).texts

theorem exclusion_eq {rawLayer overridesLayer : Value}
    (hraw : Layers.entries (Layers.orEmpty rawLayer) = .ok raw)
    (hoverrides : Layers.entries (Layers.orEmpty overridesLayer) = .ok overrides) :
    exclusion (Layers.union [overrides, raw, Layers.standardDefaults]) rawLayer overridesLayer =
        .ok .null ∧ ¬ Clash overrides raw ∨
      exclusion (Layers.union [overrides, raw, Layers.standardDefaults]) rawLayer overridesLayer =
        .error (.config .strictWithDefault) ∧ Clash overrides raw := by
  rw [exclusion, Layers.sets_eq hraw, Layers.sets_eq hoverrides, Clash]
  split
  · rename_i hstrict
    split
    · rename_i hset
      exact .inr ⟨rfl, hstrict, by simpa using hset⟩
    · rename_i hset
      exact .inl ⟨rfl, fun h => hset (by simpa using h.2)⟩
  · rename_i hstrict
    exact .inl ⟨rfl, fun h => hstrict h.1⟩

/-- Resolving over the standard defaults, the fault is that of the first key that is not read,
unless strictness meets a default type before. -/
theorem faultOf_resolve {rawLayer overridesLayer : Value}
    (hraw : Layers.entries (Layers.orEmpty rawLayer) = .ok raw)
    (hoverrides : Layers.entries (Layers.orEmpty overridesLayer) = .ok overrides)
    (hrawKeys : raw.IsLayer) (hoverridesKeys : overrides.IsLayer) :
    faultOf (Configuration.resolve host rawLayer overridesLayer).outcome =
      ((faultOf (SettingKey.strictScalars.read host
          (SettingKey.strictScalars.effective overrides raw))).or
        (faultOf (exclusion (Layers.union [overrides, raw, Layers.standardDefaults]) rawLayer
          overridesLayer))).or
        (SettingKey.order.findSome? fun key =>
          faultOf (key.read host (key.effective overrides raw))) := by
  have hmerged := Layers.merged_standard hraw hoverrides
  rw [Configuration.resolve, faultOf_run hmerged, steps]
  simp only [readKey_merged hoverridesKeys.distinct hrawKeys.distinct,
    ordering_eq_ok hoverridesKeys hrawKeys, List.findSome?_cons, SettingKey.order,
    List.findSome?_map, faultOf_ok, Function.comp_def]
  cases faultOf (SettingKey.strictScalars.read host
    (SettingKey.strictScalars.effective overrides raw)) with
  | some fault => rfl
  | none =>
      cases faultOf (exclusion _ rawLayer overridesLayer) with
      | some fault => rfl
      | none =>
          cases faultOf (SettingKey.namingConvention.read host
            (SettingKey.namingConvention.effective overrides raw)) <;> rfl

/-- Layers resolve exactly if they do not clash and every key is read. -/
theorem exists_resolve_iff {rawLayer overridesLayer : Value}
    (hraw : Layers.entries (Layers.orEmpty rawLayer) = .ok raw)
    (hoverrides : Layers.entries (Layers.orEmpty overridesLayer) = .ok overrides)
    (hrawKeys : raw.IsLayer) (hoverridesKeys : overrides.IsLayer) :
    (∃ c, (Configuration.resolve host rawLayer overridesLayer).outcome = .ok c) ↔
      ¬ Clash overrides raw ∧ ∀ key : SettingKey, ∃ field,
        key.read host (key.effective overrides raw) = .ok field := by
  rw [← faultOf_eq_none_iff, faultOf_resolve hraw hoverrides hrawKeys hoverridesKeys]
  simp only [Option.or_eq_none_iff, List.findSome?_eq_none_iff, faultOf_eq_none_iff]
  have hexclusion := exclusion_eq hraw hoverrides
  constructor
  · rintro ⟨⟨hstrict, hpassed⟩, horder⟩
    constructor
    · rcases hexclusion with ⟨-, hclash⟩ | ⟨herror, -⟩
      · exact hclash
      · simp [herror] at hpassed
    · intro key
      by_cases hkey : key = .strictScalars
      · exact hkey ▸ hstrict
      · exact horder key (SettingKey.mem_order hkey)
  · rintro ⟨hclash, hread⟩
    refine ⟨⟨hread .strictScalars, ?_⟩, fun key _ => hread key⟩
    rcases hexclusion with ⟨hok, -⟩ | ⟨-, h⟩
    · exact ⟨.null, hok⟩
    · exact absurd h hclash

/-- What a resolution over the standard defaults yields, key by key. -/
theorem field_of_resolve {rawLayer overridesLayer : Value} {c : Configuration}
    (hraw : Layers.entries (Layers.orEmpty rawLayer) = .ok raw)
    (hoverrides : Layers.entries (Layers.orEmpty overridesLayer) = .ok overrides)
    (hrawKeys : Table.Distinct raw) (hoverridesKeys : Table.Distinct overrides)
    (h : (Configuration.resolve host rawLayer overridesLayer).outcome = .ok c)
    (key : SettingKey) :
    key.read host (key.effective overrides raw) = .ok (c.field key) := by
  have hmerged := Layers.merged_standard hraw hoverrides
  rw [← readKey_merged hoverridesKeys hrawKeys]
  exact ((run_eq_ok_iff hmerged c).1 h).1 key

theorem extras_of_resolve {rawLayer overridesLayer : Value} {c : Configuration}
    (hraw : Layers.entries (Layers.orEmpty rawLayer) = .ok raw)
    (hoverrides : Layers.entries (Layers.orEmpty overridesLayer) = .ok overrides)
    (h : (Configuration.resolve host rawLayer overridesLayer).outcome = .ok c) :
    c.extras = Value.freezeEntries (extras (.mapping true Layers.standardDefaults)
      (Layers.union [overrides, raw, Layers.standardDefaults])) := by
  have hmerged := Layers.merged_standard hraw hoverrides
  exact ((run_eq_ok_iff hmerged c).1 h).2.2.2

/-- Under a key that no default knows the extras hold what the layers do, and nothing else. -/
theorem lookup?_extras_mapping (frozen : Bool) (defaults merged : Entries) (key : Value) :
    Table.lookup? (extras (.mapping frozen defaults) merged) key =
      if Table.hasKey defaults key then none else Table.lookup? merged key := by
  have hkeep (entry : Value × Value) (hentry : entry.1.sameAs key = true) :
      (!Table.hasKey defaults entry.1) = !Table.hasKey defaults key := by
    rw [Table.hasKey_congr hentry]
  change Table.lookup? (merged.filter fun entry => !Table.hasKey defaults entry.1) key = _
  rw [Table.lookup?_filter hkeep]
  cases Table.hasKey defaults key <;> rfl

/-- The extras hold what the layers set under keys that no default knows. -/
theorem lookup?_extras (hoverrides : Table.Distinct overrides) (hraw : Table.Distinct raw)
    (name : String) :
    Table.lookup? (extras (.mapping true Layers.standardDefaults)
        (Layers.union [overrides, raw, Layers.standardDefaults])) (.text name) =
      if name ∈ SettingKey.all.map SettingKey.name ∨ (Layers.value overrides raw name).isNull then
        none
      else some (Layers.value overrides raw name) := by
  rw [lookup?_extras_mapping, Layers.lookup?_merged hoverrides hraw]
  simp only [← SettingKey.hasKey_standardDefaults_iff]
  cases hknown : Table.hasKey Layers.standardDefaults (.text name) with
  | true => simp
  | false =>
      have hdefault := Layers.set?_eq_none_of_hasKey hknown
      cases (Layers.value overrides raw name).isNull <;> simp [hdefault]

end

end Resolve

end Nomenclature
