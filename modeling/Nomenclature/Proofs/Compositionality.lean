import Nomenclature.Proofs.StandardResolution

/-!
# Resolution is compositional

What a key comes to depends on the value that the layers set under it and on nothing else. Each key
is therefore resolved by itself first: a layer that sets one key fails exactly if that key is not
read, since all others have their standard values. The main statement puts a resolution together
from these: it succeeds if every key does by itself and strictness meets no default type, each
field is the field of its key by itself, and a fault is the fault of the first key that has one.
-/

namespace Nomenclature

namespace Layers

/-- The layer that sets one key, or none if the value is null. -/
def single (key : String) (value : Value) : Entries :=
  if value.isNull then [] else [(.text key, value)]

theorem single_isLayer (key : String) (value : Value) : (single key value).IsLayer := by
  rw [single]
  split
  · exact ⟨by simp, Table.distinct_nil⟩
  · exact ⟨by simp, List.pairwise_singleton ..⟩

theorem named_single (key other : String) (value : Value) :
    Entries.named (single key value) other = if key = other then value else .null := by
  rw [single, Entries.named, Entries.getD]
  split
  · rename_i hnull
    cases value <;> simp_all [Value.isNull]
  · rw [Table.lookup?_cons]
    by_cases hkey : key = other <;> simp [hkey]

end Layers

namespace Resolve

/-- What resolving one key by itself comes to. -/
def alone (host : Host) (key : String) (value : Value) : Except Fault Configuration :=
  (Configuration.resolve host (.mapping false (Layers.single key value)) .null).outcome

/-- What resolving one key of two layers by itself comes to. -/
def keyAlone (host : Host) (overrides raw : Entries) (key : String) : Except Fault Configuration :=
  alone host key (Layers.value overrides raw key)

/-- An outcome is put together from its keys, each resolved by itself. -/
structure Composed (host : Host) (overrides raw : Entries)
    (outcome : Except Fault Configuration) : Prop where
  /-- It is a success exactly if every key that is set succeeds by itself and strictness does not
  meet a default type. -/
  succeeds_iff : (∃ c, outcome = .ok c) ↔
    (∀ key, (Layers.value overrides raw key).isNull = false →
      ∃ c, keyAlone host overrides raw key = .ok c) ∧ ¬ Clash overrides raw
  /-- Every field is the field that its key drives by itself. -/
  field_eq : ∀ c, outcome = .ok c → ∀ key : SettingKey,
    ∃ d, keyAlone host overrides raw key.name = .ok d ∧ c.field key = d.field key
  /-- The keys of the extras are texts, and none stands twice. -/
  extras_isLayer : ∀ c, outcome = .ok c → c.extras.IsLayer
  /-- The extras hold what is set under a key that is not read, frozen, and nothing else. -/
  lookup?_extras : ∀ c, outcome = .ok c → ∀ key,
    Table.lookup? c.extras (.text key) =
      if key ∈ SettingKey.all.map SettingKey.name ∨ (Layers.value overrides raw key).isNull then
        none
      else some (Layers.value overrides raw key).freeze
  /-- A fault is that of strictness by itself, else the clash of strictness with a default type,
  else that of the first key that fails by itself. -/
  first_fault : ∀ fault, outcome = .error fault →
    keyAlone host overrides raw "strictScalars" = .error fault ∨
      (∃ c, keyAlone host overrides raw "strictScalars" = .ok c) ∧
        (Clash overrides raw ∧ fault = .config .strictWithDefault ∨
          ¬ Clash overrides raw ∧
            SettingKey.order.findSome? (fun key =>
              faultOf (keyAlone host overrides raw key.name)) = some fault)

section

variable {host : Host} {overrides raw : Entries}

theorem effective_single (key : SettingKey) (name : String) (value : Value) :
    key.effective [] (Layers.single name value) =
      if name = key.name then value.orElse key.standard else key.standard := by
  rw [SettingKey.effective, Layers.value, Layers.named_single]
  split <;> rfl

/-- A key that a layer does not set is read. -/
theorem faultOf_read_single {key : SettingKey} {name : String} (hname : name ≠ key.name)
    (value : Value) :
    faultOf (key.read host (key.effective [] (Layers.single name value))) = none := by
  rw [effective_single, if_neg hname]
  exact faultOf_eq_none_iff.2 (SettingKey.read_standard host key)

/-- One key by itself cannot set both strictness and a default type. -/
theorem not_clash_single (name : String) (value : Value) :
    ¬ Clash [] (Layers.single name value) := by
  rintro ⟨hstrict, hset⟩
  have hname : name = "defaultScalarType" := by
    by_contra hother
    rw [Layers.named_single, if_neg hother] at hset
    simp [Entries.named, Entries.getD, Value.isNull] at hset
  have hsetting := setting_merged Table.distinct_nil
    (Layers.single_isLayer name value).distinct .strictScalars
  rw [effective_single, hname, if_neg (by decide)] at hsetting
  rw [hname, booleanSetting, show "strictScalars" = SettingKey.strictScalars.name from rfl,
    hsetting] at hstrict
  exact absurd hstrict (by simp [SettingKey.standard, Setting.boolean, Bind.bind, Except.bind])

theorem findSome?_eq {keys : List SettingKey} {key : SettingKey} (hmem : key ∈ keys)
    {fault : SettingKey → Option Fault} (hothers : ∀ other, other ≠ key → fault other = none) :
    keys.findSome? fault = fault key := by
  induction keys with
  | nil => simp at hmem
  | cons first rest ih =>
      rw [List.findSome?_cons]
      by_cases hfirst : first = key
      · rw [hfirst]
        cases h : fault key with
        | some found => rfl
        | none =>
            refine List.findSome?_eq_none_iff.2 fun other _ => ?_
            by_cases hother : other = key
            · rw [hother, h]
            · exact hothers other hother
      · rw [hothers first hfirst]
        exact ih ((List.mem_cons.1 hmem).resolve_left (Ne.symm hfirst))

theorem faultOf_alone_eq (name : String) (value : Value) :
    faultOf (alone host name value) =
      (faultOf (SettingKey.strictScalars.read host
        (SettingKey.strictScalars.effective [] (Layers.single name value)))).or
        (SettingKey.order.findSome? fun key =>
          faultOf (key.read host (key.effective [] (Layers.single name value)))) := by
  have hlayer := Layers.entries_mapping false (Layers.single name value)
  rw [alone, faultOf_resolve hlayer Layers.entries_null (Layers.single_isLayer name value)
    ⟨by simp, Table.distinct_nil⟩]
  rcases exclusion_eq hlayer Layers.entries_null with ⟨hok, -⟩ | ⟨-, hclash⟩
  · rw [hok, faultOf_ok, Option.or_none]
  · exact absurd hclash (not_clash_single name value)

/-- A key by itself fails exactly if its value is not read. -/
theorem faultOf_alone (key : SettingKey) (value : Value) :
    faultOf (alone host key.name value) = faultOf (key.read host (value.orElse key.standard)) := by
  have hothers (other : SettingKey) (hother : other ≠ key) :
      faultOf (other.read host (other.effective [] (Layers.single key.name value))) = none :=
    faultOf_read_single (fun h => hother (SettingKey.name_injective h.symm)) value
  have hkey : key.effective [] (Layers.single key.name value) = value.orElse key.standard := by
    rw [effective_single, if_pos rfl]
  rw [faultOf_alone_eq]
  by_cases hstrict : key = .strictScalars
  · rw [← hstrict, hkey]
    have hrest : SettingKey.order.findSome? (fun other =>
        faultOf (other.read host (other.effective [] (Layers.single key.name value)))) = none := by
      refine List.findSome?_eq_none_iff.2 fun other hmem => hothers other ?_
      rintro rfl
      rw [hstrict] at hmem
      exact absurd hmem (by decide)
    rw [hrest, Option.or_none]
  · rw [hothers .strictScalars (Ne.symm hstrict), Option.none_or,
      findSome?_eq (SettingKey.mem_order hstrict) hothers, hkey]

/-- A key that no default knows never fails by itself. -/
theorem faultOf_alone_other {name : String} (hname : ∀ key : SettingKey, name ≠ key.name)
    (value : Value) : faultOf (alone host name value) = none := by
  rw [faultOf_alone_eq, faultOf_read_single (hname _), Option.none_or]
  exact List.findSome?_eq_none_iff.2 fun key _ => faultOf_read_single (hname key) value

theorem faultOf_keyAlone (key : SettingKey) :
    faultOf (keyAlone host overrides raw key.name) =
      faultOf (key.read host (key.effective overrides raw)) :=
  faultOf_alone key _

/-- The field that a key drives by itself is read from its effective value. -/
theorem read_of_keyAlone {key : SettingKey} {d : Configuration}
    (h : keyAlone host overrides raw key.name = .ok d) :
    key.read host (key.effective overrides raw) = .ok (d.field key) := by
  have hfield := field_of_resolve (Layers.entries_mapping false _) Layers.entries_null
    (Layers.single_isLayer key.name (Layers.value overrides raw key.name)).distinct
    Table.distinct_nil h key
  rw [effective_single, if_pos rfl] at hfield
  exact hfield

/-- A key that is not set succeeds by itself. -/
theorem faultOf_keyAlone_unset {key : SettingKey}
    (hunset : (Layers.value overrides raw key.name).isNull = true) :
    faultOf (keyAlone host overrides raw key.name) = none := by
  rw [faultOf_keyAlone, SettingKey.effective, Value.orElse, if_pos hunset]
  exact faultOf_eq_none_iff.2 (SettingKey.read_standard host key)

/-- Every key that is set succeeds by itself exactly if no known key fails by itself. -/
theorem forall_keyAlone_iff :
    (∀ key, (Layers.value overrides raw key).isNull = false →
      ∃ c, keyAlone host overrides raw key = .ok c) ↔
        ∀ key : SettingKey, faultOf (keyAlone host overrides raw key.name) = none := by
  constructor
  · intro hkeys key
    cases hnull : (Layers.value overrides raw key.name).isNull with
    | false => exact faultOf_eq_none_iff.2 (hkeys key.name hnull)
    | true => exact faultOf_keyAlone_unset hnull
  · intro hknown key _
    rw [← faultOf_eq_none_iff]
    by_cases hname : ∃ known : SettingKey, known.name = key
    · obtain ⟨known, rfl⟩ := hname
      exact hknown known
    · exact faultOf_alone_other (fun known hknown => hname ⟨known, hknown.symm⟩) _

/-- The fault of a resolution in terms of the faults that keys have by themselves. -/
theorem faultOf_resolve_keyAlone (host : Host) (frozen frozen' : Bool)
    (hoverrides : overrides.IsLayer) (hraw : raw.IsLayer) :
    faultOf (Configuration.resolve host (.mapping frozen raw)
        (.mapping frozen' overrides)).outcome =
      ((faultOf (keyAlone host overrides raw "strictScalars")).or
        (faultOf (exclusion (Layers.union [overrides, raw, Layers.standardDefaults])
          (.mapping frozen raw) (.mapping frozen' overrides)))).or
        (SettingKey.order.findSome? fun key => faultOf (keyAlone host overrides raw key.name)) := by
  rw [faultOf_resolve (Layers.entries_mapping frozen raw) (Layers.entries_mapping frozen' overrides)
    hraw hoverrides]
  simp only [← faultOf_keyAlone]
  rfl

/-- A resolution of two layers is put together from their keys, each resolved by itself. -/
theorem resolve_composed (host : Host) {overrides raw : Entries} (frozen frozen' : Bool)
    (hoverrides : overrides.IsLayer) (hraw : raw.IsLayer) :
    Composed host overrides raw
      (Configuration.resolve host (.mapping frozen raw) (.mapping frozen' overrides)).outcome := by
  have hrawLayer := Layers.entries_mapping frozen raw
  have hoverridesLayer := Layers.entries_mapping frozen' overrides
  have hfault := faultOf_resolve_keyAlone host frozen frozen' hoverrides hraw
  have hclash := exclusion_eq hrawLayer hoverridesLayer
  constructor
  case succeeds_iff =>
    have hpass : faultOf (exclusion (Layers.union [overrides, raw, Layers.standardDefaults])
        (.mapping frozen raw) (.mapping frozen' overrides)) = none ↔ ¬ Clash overrides raw := by
      rcases hclash with ⟨hok, hnot⟩ | ⟨herror, hboth⟩
      · simp [hok, hnot]
      · simp [herror, hboth]
    rw [← faultOf_eq_none_iff, hfault, Option.or_eq_none_iff, Option.or_eq_none_iff, hpass,
      List.findSome?_eq_none_iff, forall_keyAlone_iff]
    constructor
    · rintro ⟨⟨hstrict, hnot⟩, horder⟩
      refine ⟨fun key => ?_, hnot⟩
      by_cases hkey : key = .strictScalars
      · rw [hkey]
        exact hstrict
      · exact horder key (SettingKey.mem_order hkey)
    · rintro ⟨hknown, hnot⟩
      exact ⟨⟨hknown .strictScalars, hnot⟩, fun key _ => hknown key⟩
  case field_eq =>
    intro c hc key
    have hread := field_of_resolve hrawLayer hoverridesLayer hraw.distinct hoverrides.distinct
      hc key
    have halone : faultOf (keyAlone host overrides raw key.name) = none := by
      rw [faultOf_keyAlone, hread, faultOf_ok]
    obtain ⟨d, hd⟩ := faultOf_eq_none_iff.1 halone
    exact ⟨d, hd, Except.ok.inj (hread.symm.trans (read_of_keyAlone hd))⟩
  case extras_isLayer =>
    intro c hc
    rw [extras_of_resolve hrawLayer hoverridesLayer hc]
    exact (extras_isLayer hoverrides hraw).freezeEntries
  case lookup?_extras =>
    intro c hc key
    rw [extras_of_resolve hrawLayer hoverridesLayer hc, Value.freezeEntries_eq_map,
      Table.lookup?_map, lookup?_extras hoverrides.distinct hraw.distinct]
    split <;> rfl
  case first_fault =>
    intro fault hc
    rw [hc, faultOf_error] at hfault
    cases hstrict : keyAlone host overrides raw "strictScalars" with
    | error found =>
        refine .inl (congrArg _ ?_)
        simpa [hstrict, eq_comm] using hfault
    | ok d =>
        refine .inr ⟨⟨d, rfl⟩, ?_⟩
        rcases hclash with ⟨hok, hnot⟩ | ⟨herror, hboth⟩
        · rw [hstrict, hok, faultOf_ok, faultOf_ok, Option.or_none, Option.none_or] at hfault
          exact .inr ⟨hnot, hfault.symm⟩
        · rw [hstrict, herror, faultOf_ok, faultOf_error, Option.none_or, Option.some_or] at hfault
          exact .inl ⟨hboth, Option.some.inj hfault⟩

/-- An override that is null leaves strictness to the raw configuration, which also sets a default
type and a prefix that is no text. -/
theorem resolve_composed_null_override :
    Entries.IsLayer [(.text "strictScalars", .null)] ∧
      Entries.IsLayer [(.text "strictScalars", .text " Yes"),
        (.text "defaultScalarType", .text "Date"), (.text "typesPrefix", .integer 3)] ∧
      Composed Host.bare [(.text "strictScalars", .null)]
        [(.text "strictScalars", .text " Yes"), (.text "defaultScalarType", .text "Date"),
          (.text "typesPrefix", .integer 3)]
        (Configuration.resolve Host.bare
          (.mapping false [(.text "strictScalars", .text " Yes"),
            (.text "defaultScalarType", .text "Date"), (.text "typesPrefix", .integer 3)])
          (.mapping true [(.text "strictScalars", .null)])).outcome := by
  have hoverrides : Entries.IsLayer [(.text "strictScalars", .null)] := by
    constructor <;> decide
  have hraw : Entries.IsLayer [(.text "strictScalars", .text " Yes"),
      (.text "defaultScalarType", .text "Date"), (.text "typesPrefix", .integer 3)] := by
    constructor <;> decide
  exact ⟨hoverrides, hraw, resolve_composed Host.bare false true hoverrides hraw⟩

end

end Resolve

end Nomenclature
