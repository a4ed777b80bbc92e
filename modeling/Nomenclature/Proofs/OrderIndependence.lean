import Nomenclature.Proofs.Fingerprint
import Nomenclature.Proofs.ReorderedReaders

/-!
# The order of entries does not matter

Layers of data may be written with the entries of their mappings in another order, at any depth.
They are then refused or resolved alike. What is in effect under a key is the same but for order, so
that every key is read alike; layers clash or not whatever their order; and what no default knows
is kept under the same names. Hence the configurations are equal, and so are their canonical texts.
-/

namespace Nomenclature

open Value (Reordered Interchangeable)

/-- A layer of named settings, and the same layer in another order. -/
structure Layers.Rearranged (layer other : Entries) : Prop where
  named : Table.AreNamed layer
  named' : Table.AreNamed other
  reordered : Entries.Reordered layer other

/-- Reordered data is refused as a layer, or holds the same settings in another order. -/
theorem Layers.concord_entries {layer other : Value} (hlayer : layer.IsData)
    (h : layer.Reordered other) :
    Concord Layers.Rearranged (entries (orEmpty layer)) (entries (orEmpty other)) := by
  rcases h.inversion with rfl | ⟨items, others, rfl, rfl, -⟩ |
    ⟨frozen, held, others, rfl, rfl, hnamed, hnamed', hreordered⟩
  · cases hheld : entries (orEmpty layer) with
    | error fault => exact .error fault fault
    | ok held =>
        have hnamed := (hlayer.of_entries hheld).1
        exact .ok ⟨hnamed, hnamed, .refl held⟩
  · rw [orEmpty, orEmpty, h.isTruthy_eq]
    split
    · exact .error _ _
    · exact .ok ⟨⟨by simp, Table.distinct_nil⟩, ⟨by simp, Table.distinct_nil⟩, .refl []⟩
  · rw [entries_mapping, entries_mapping]
    exact .ok ⟨hnamed, hnamed', hreordered⟩

section Layers

variable {host : Host} {upper upper' lower lower' : Entries}

theorem Layers.reordered_value (hupper : Layers.Rearranged upper upper')
    (hlower : Layers.Rearranged lower lower') (name : String) :
    (value upper lower name).Reordered (value upper' lower' name) :=
  (hupper.reordered.named name).orElse (hlower.reordered.named name)

theorem SettingKey.reordered_effective (hupper : Layers.Rearranged upper upper')
    (hlower : Layers.Rearranged lower lower') (key : SettingKey) :
    (key.effective upper lower).Reordered (key.effective upper' lower') :=
  (Layers.reordered_value hupper hlower key.name).orElse (.same key.standard)

namespace Resolve

theorem clash_iff_of_rearranged (hupper : Layers.Rearranged upper upper')
    (hlower : Layers.Rearranged lower lower') : Clash upper lower ↔ Clash upper' lower' := by
  have hstrict := SettingKey.strictScalars.reordered_effective hupper hlower
  rw [clash_iff hupper.named.distinct hlower.named.distinct,
    clash_iff hupper.named'.distinct hlower.named'.distinct,
    Setting.boolean_eq_of_reordered hstrict, (hupper.reordered.named _).isNull_eq,
    (hlower.reordered.named _).isNull_eq]

/-- What no default knows is kept under the same names. -/
theorem interchangeable_extras (hupper : Layers.Rearranged upper upper')
    (hlower : Layers.Rearranged lower lower') :
    Interchangeable
      (.mapping true (Value.freezeEntries (extras (.mapping true Layers.standardDefaults)
        (Layers.union [upper, lower, Layers.standardDefaults]))))
      (.mapping true (Value.freezeEntries (extras (.mapping true Layers.standardDefaults)
        (Layers.union [upper', lower', Layers.standardDefaults])))) := by
  rw [Value.freezeEntries_eq_map, Value.freezeEntries_eq_map]
  refine .mapping ((areNamed_extras hupper.named hlower.named).map _)
    ((areNamed_extras hupper.named' hlower.named').map _) fun name => ?_
  have hvalue := Layers.reordered_value hupper hlower name
  rw [Table.lookup?_map, Table.lookup?_map,
    lookup?_extras hupper.named.distinct hlower.named.distinct,
    lookup?_extras hupper.named'.distinct hlower.named'.distinct, hvalue.isNull_eq]
  split
  · exact .none
  · exact .some hvalue.freeze

end Resolve

end Layers

namespace Configuration

variable {host : Host} {raw raw' overrides overrides' : Value}
  {upper upper' lower lower' : Entries} {c d : Configuration}

/-- Configurations with interchangeable fields are equal and have one canonical text. -/
theorem sameAs_and_canonical_eq (hfields : ∀ key, Interchangeable (c.field key) (d.field key))
    (hextras : Interchangeable (.mapping true c.extras) (.mapping true d.extras)) :
    c.sameAs d = true ∧ c.canonical = d.canonical := by
  have hall : List.Forall₂ Interchangeable (c.fields.map (·.2)) (d.fields.map (·.2)) := by
    rw [fields_eq, fields_eq]
    refine List.rel_append ?_ (.cons hextras .nil)
    rw [List.forall₂_map_left_iff, List.forall₂_map_right_iff]
    exact List.forall₂_same.2 fun key _ => hfields key
  constructor
  · exact (Value.sameItems_iff _ _).2 (hall.imp fun _ _ h => h.same)
  · rw [canonical_eq_iff_agrees, agrees_iff_fields, List.forall₂_map_left_iff,
      List.forall₂_map_right_iff]
    exact hall.imp fun _ _ h => h.agrees

section Layers

variable (hupper : Layers.entries (Layers.orEmpty overrides) = .ok upper)
  (hlower : Layers.entries (Layers.orEmpty raw) = .ok lower)
  (hupper' : Layers.entries (Layers.orEmpty overrides') = .ok upper')
  (hlower' : Layers.entries (Layers.orEmpty raw') = .ok lower')
  (hoverrides : Layers.Rearranged upper upper') (hraw : Layers.Rearranged lower lower')

include hupper hlower hupper' hlower' hoverrides hraw

theorem exists_resolve_iff_of_rearranged :
    (∃ c, (resolve host raw overrides).outcome = .ok c) ↔
      ∃ d, (resolve host raw' overrides').outcome = .ok d := by
  rw [Resolve.exists_resolve_iff hlower hupper hraw.named.isLayer hoverrides.named.isLayer,
    Resolve.exists_resolve_iff hlower' hupper' hraw.named'.isLayer hoverrides.named'.isLayer,
    Resolve.clash_iff_of_rearranged hoverrides hraw]
  refine and_congr_right' (forall_congr' fun key => ?_)
  have heffective := key.reordered_effective hoverrides hraw
  exact (key.concord_read host heffective).exists_ok_iff

/-- Rearranged layers are refused or resolved alike. -/
theorem concord_resolve_of_rearranged :
    Concord (fun c d => c.sameAs d = true ∧ c.canonical = d.canonical)
      (resolve host raw overrides).outcome (resolve host raw' overrides').outcome := by
  refine .of_exists_iff (exists_resolve_iff_of_rearranged hupper hlower hupper' hlower' hoverrides
    hraw) fun c d hc hd => sameAs_and_canonical_eq (fun key => ?_) ?_
  · have hfield := Resolve.field_of_resolve hlower hupper hraw.named.distinct
      hoverrides.named.distinct hc key
    have hfield' := Resolve.field_of_resolve hlower' hupper' hraw.named'.distinct
      hoverrides.named'.distinct hd key
    have heffective := key.reordered_effective hoverrides hraw
    exact (key.concord_read host heffective).rel_of_eq_ok hfield hfield'
  · rw [Resolve.extras_of_resolve hlower hupper hc, Resolve.extras_of_resolve hlower' hupper' hd]
    exact Resolve.interchangeable_extras hoverrides hraw

end Layers

/-- Data in another order is refused where the data is, and otherwise resolved to an equal
configuration with the same canonical text. -/
theorem resolve_reordered (host : Host) (hraw : raw.IsData) (hoverrides : overrides.IsData)
    (hrawOrder : raw.Reordered raw') (hoverridesOrder : overrides.Reordered overrides') :
    Concord (fun c d => c.sameAs d = true ∧ c.canonical = d.canonical)
      (resolve host raw overrides).outcome (resolve host raw' overrides').outcome := by
  have hupper := Layers.concord_entries hoverrides hoverridesOrder
  have hlower := Layers.concord_entries hraw hrawOrder
  by_cases hlayers : (∃ upper, Layers.entries (Layers.orEmpty overrides) = .ok upper) ∧
      ∃ lower, Layers.entries (Layers.orEmpty raw) = .ok lower
  · obtain ⟨⟨upper, hheld⟩, ⟨lower, hheld'⟩⟩ := hlayers
    obtain ⟨upper', hmoved⟩ := hupper.exists_ok_iff.1 ⟨upper, hheld⟩
    obtain ⟨lower', hmoved'⟩ := hlower.exists_ok_iff.1 ⟨lower, hheld'⟩
    exact concord_resolve_of_rearranged hheld hheld' hmoved hmoved'
      (hupper.rel_of_eq_ok hheld hmoved) (hlower.rel_of_eq_ok hheld' hmoved')
  · have hnone : ¬ ∃ c, (resolve host raw overrides).outcome = .ok c := by
      rintro ⟨c, hc⟩
      obtain ⟨upper, lower, hheld, hheld'⟩ := entries_of_resolve hc
      exact hlayers ⟨⟨upper, hheld⟩, ⟨lower, hheld'⟩⟩
    have hnone' : ¬ ∃ d, (resolve host raw' overrides').outcome = .ok d := by
      rintro ⟨d, hd⟩
      obtain ⟨upper', lower', hheld, hheld'⟩ := entries_of_resolve hd
      exact hlayers ⟨hupper.exists_ok_iff.2 ⟨upper', hheld⟩, hlower.exists_ok_iff.2 ⟨lower', hheld'⟩⟩
    exact .of_exists_iff (iff_of_false hnone hnone') fun c d hc _ => absurd ⟨c, hc⟩ hnone

/-- A layer with mappings inside it. -/
def dateLayer : Value :=
  .mapping false
    [(.text "namingConvention", .mapping false
        [(.text "typeNames", .text "camelCase"), (.text "enumValues", .text "keep")]),
      (.text "scalars", .mapping false
        [(.text "Date", .mapping false
            [(.text "input", .text "string"), (.text "output", .text "Date")]),
          (.text "Json", .text "unknown")]),
      (.text "plugin", .list [.mapping false [(.text "a", .integer 1), (.text "b", .null)]])]

/-- The same layer in another order. -/
def dateLayerReordered : Value :=
  .mapping false
    [(.text "plugin", .list [.mapping false [(.text "b", .null), (.text "a", .integer 1)]]),
      (.text "scalars", .mapping false
        [(.text "Json", .text "unknown"),
          (.text "Date", .mapping false
            [(.text "output", .text "Date"), (.text "input", .text "string")])]),
      (.text "namingConvention", .mapping false
        [(.text "enumValues", .text "keep"), (.text "typeNames", .text "camelCase")])]

/-- The layer is data, its other order is one at every depth, and both are resolved. -/
theorem resolve_reordered_dateLayer :
    dateLayer.IsData ∧ Value.IsData .null ∧ dateLayer.Reordered dateLayerReordered ∧
      Value.Reordered .null .null ∧ ∃ c d,
        (resolve Host.bare dateLayer .null).outcome = .ok c ∧
          (resolve Host.bare dateLayerReordered .null).outcome = .ok d ∧
            c.convention.typeNames = .named "camelCase" ∧
            Table.lookup? d.scalars (.text "Date") = some ⟨.text "string", .text "Date"⟩ ∧
            c.extras = [(.text "plugin",
              .tuple [.mapping true [(.text "a", .integer 1), (.text "b", .null)]])] ∧
            d.extras = [(.text "plugin",
              .tuple [.mapping true [(.text "b", .null), (.text "a", .integer 1)]])] ∧
            c.sameAs d = true ∧ c.canonical = d.canonical := by
  have hconvention : Value.IsData (.mapping false
      [(.text "typeNames", .text "camelCase"), (.text "enumValues", .text "keep")]) :=
    .mapping ⟨by simp, by decide⟩ (by simp [Value.IsData.text])
  have hdate : Value.IsData (.mapping false
      [(.text "input", .text "string"), (.text "output", .text "Date")]) :=
    .mapping ⟨by simp, by decide⟩ (by simp [Value.IsData.text])
  have hplugin : Value.IsData (.mapping false [(.text "a", .integer 1), (.text "b", .null)]) :=
    .mapping ⟨by simp, by decide⟩ (by simp [Value.IsData.integer, Value.IsData.null])
  have hscalars : Value.IsData (.mapping false
      [(.text "Date", .mapping false
          [(.text "input", .text "string"), (.text "output", .text "Date")]),
        (.text "Json", .text "unknown")]) :=
    .mapping ⟨by simp, by decide⟩ (List.forall_mem_cons.2
      ⟨hdate, List.forall_mem_singleton.2 (.text "unknown")⟩)
  have hlayer : dateLayer.IsData :=
    .mapping ⟨by simp, by decide⟩ (List.forall_mem_cons.2 ⟨hconvention,
      List.forall_mem_cons.2 ⟨hscalars,
        List.forall_mem_singleton.2 (.list (List.forall_mem_singleton.2 hplugin))⟩⟩)
  have hreordered : dateLayer.Reordered dateLayerReordered := by
    refine .mapping ⟨by simp, by decide⟩ ?_ (.cons ?_ (.cons ?_ (.cons ?_ .nil)))
      (List.reverse_perm _)
    · rfl
    · exact .of_perm ⟨by simp, by decide⟩ (List.reverse_perm _).symm
    · refine .mapping ⟨by simp, by decide⟩ ?_ (.cons ?_ (.cons (.same _) .nil))
        (List.reverse_perm _)
      · rfl
      · exact .of_perm ⟨by simp, by decide⟩ (List.reverse_perm _).symm
    · refine .list (.cons ?_ .nil)
      exact .of_perm ⟨by simp, by decide⟩ (List.reverse_perm _).symm
  exact ⟨hlayer, .null, hreordered, .same .null, _, _, rfl, rfl, rfl, rfl, rfl, rfl,
    (resolve_reordered Host.bare hlayer .null hreordered (.same .null)).rel_of_eq_ok rfl rfl⟩

end Configuration

end Nomenclature
