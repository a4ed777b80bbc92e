import Nomenclature.Proofs.PlainData
import Nomenclature.Proofs.Sameness

/-!
# What a fingerprint tells apart

The fingerprint of a configuration is taken from its canonical text. Two configurations have one
canonical text exactly if their documents agree. For configurations that were resolved from plain
data this is the same as being alike field by field, so the canonical text tells any two of them
apart that differ, and does not see the order in which a mapping was written.
-/

namespace Nomenclature

namespace Configuration

theorem tidy_document (c : Configuration) : c.document.Tidy := by
  refine .object ?_ fun member hmember => ?_
  · rw [List.map_map]
    change List.Nodup ["scalars", "strict_scalars", "default_scalar_type", "naming_convention",
      "types_prefix", "types_suffix", "add_typename", "non_optional_typename",
      "omit_operation_suffix", "dedupe_operation_suffix", "fragment_variable_suffix",
      "fragment_variable_prefix", "external_fragments", "fragment_imports", "dedupe_fragments",
      "allow_enum_string_types", "inline_fragment_types", "immutable_types", "use_type_imports",
      "global_namespace", "extras"]
    decide
  · obtain ⟨field, -, rfl⟩ := List.mem_map.1 hmember
    exact field.2.tidy_document

/-- One canonical text is one document, up to the order of members. -/
theorem canonical_eq_iff_agrees (c d : Configuration) :
    c.canonical = d.canonical ↔ c.document.Agrees d.document :=
  Document.canonical_eq_iff c.tidy_document d.tidy_document

/-- Configurations have the same fields, so their documents agree field by field. -/
theorem agrees_iff_fields (c d : Configuration) : c.document.Agrees d.document ↔
    List.Forall₂ Document.Agrees ((c.fields.map (·.2)).map Value.document)
      ((d.fields.map (·.2)).map Value.document) := by
  have hnames : (c.fields.map fun field => (field.1, field.2.document)).map (·.1) =
      (d.fields.map fun field => (field.1, field.2.document)).map (·.1) := rfl
  have htidy := c.tidy_document
  rw [document, document, Document.agrees_object_iff hnames]
  · simp only [List.map_map, Function.comp_def]
  · cases htidy with
    | intro hkeys => exact hkeys _ rfl

/-- The documents of plain configurations agree exactly if their fields are alike. -/
theorem agrees_iff_alike {c d : Configuration} (hc : c.HoldsJson) (hd : d.HoldsJson) :
    c.document.Agrees d.document ↔ c.Alike d := by
  have hfields : ∀ pair ∈ (c.fields.map (·.2)).zip (d.fields.map (·.2)),
      Value.Faithful pair.1 pair.2 := by
    intro pair hpair
    rw [fields_eq, fields_eq, List.zip_append (by simp), List.mem_append, List.zip_map'] at hpair
    rcases hpair with hpair | hpair
    · obtain ⟨key, -, rfl⟩ := List.mem_map.1 hpair
      exact hc.faithful_field hd key
    · obtain rfl := List.mem_singleton.1 hpair
      exact hc.extras.faithful hd.extras
  rw [agrees_iff_fields, Value.forall₂_iff_of_faithful hfields, Alike]

end Configuration

theorem SettingKey.isJson_standard (key : SettingKey) : key.standard.IsJson := by
  cases key with
  | scalars => exact .mapping ⟨by simp, Table.distinct_nil⟩ (by simp)
  | externalFragments => exact .list (by simp)
  | fragmentImports => exact .list (by simp)
  | _ => first | exact .boolean _ | exact .text _

/-- A layer of plain data holds named entries of plain data. -/
theorem Value.IsJson.of_entries {layer : Value} (hlayer : layer.IsJson) {held : Entries}
    (h : Layers.entries (Layers.orEmpty layer) = .ok held) :
    Table.AreNamed held ∧ ∀ entry ∈ held, entry.2.IsJson := by
  rcases Layers.asEntries?_of_orEmpty h with hentries | rfl
  · exact hlayer.of_asEntries? hentries
  · exact ⟨⟨by simp, Table.distinct_nil⟩, by simp⟩

namespace Resolve

variable {upper lower : Entries}

/-- What no default knows in named layers is named. -/
theorem areNamed_extras (hupper : Table.AreNamed upper) (hlower : Table.AreNamed lower) :
    Table.AreNamed (extras (.mapping true Layers.standardDefaults)
      (Layers.union [upper, lower, Layers.standardDefaults])) := by
  have hnames := Layers.forall_of_union (P := fun entry => ∃ s, entry.1 = .text s) hupper.names
    hlower.names fun key => ⟨key.name, rfl⟩
  rw [extras_standard]
  constructor
  · intro entry hentry
    exact hnames entry (List.mem_filter.1 hentry).1
  · exact List.Pairwise.filter _ (Layers.distinct_union _)

/-- What no default knows in layers of plain data is plain data. -/
theorem isJson_extras (hupper : Table.AreNamed upper) (hlower : Table.AreNamed lower)
    (hparts : ∀ entry ∈ upper, entry.2.IsJson) (hparts' : ∀ entry ∈ lower, entry.2.IsJson) :
    Value.IsJson (.mapping false (extras (.mapping true Layers.standardDefaults)
      (Layers.union [upper, lower, Layers.standardDefaults]))) := by
  have hjson := Layers.forall_of_union (P := fun entry => entry.2.IsJson) hparts hparts'
    SettingKey.isJson_standard
  refine .mapping (areNamed_extras hupper hlower) fun entry hentry => ?_
  rw [extras_standard] at hentry
  exact hjson entry (List.mem_filter.1 hentry).1

end Resolve

namespace Configuration

/-- Layers of plain data lead to a configuration of plain data. -/
theorem holdsJson_of_resolve {host : Host} {raw overrides : Value} (hraw : raw.IsJson)
    (hoverrides : overrides.IsJson) {c : Configuration}
    (h : (resolve host raw overrides).outcome = .ok c) : c.HoldsJson := by
  obtain ⟨upper, lower, hupper, hlower⟩ := entries_of_resolve h
  obtain ⟨hnames, hparts⟩ := hoverrides.of_entries hupper
  obtain ⟨hnames', hparts'⟩ := hraw.of_entries hlower
  have heffective (key : SettingKey) : (key.effective upper lower).IsJson :=
    SettingKey.effective_of hparts hparts' .null key.isJson_standard
  have hfield (key : SettingKey) := Resolve.field_of_resolve hlower hupper hnames'.distinct
    hnames.distinct h key
  constructor
  case scalars =>
    obtain ⟨table, htable, htoValue⟩ := map_eq_ok_iff.1 (hfield .scalars)
    obtain rfl := ScalarTable.toValue_injective htoValue
    exact ScalarTable.holdsJson_of_ofValue (heffective .scalars) htable
  case convention =>
    obtain ⟨convention, hconvention, htoValue⟩ := map_eq_ok_iff.1 (hfield .namingConvention)
    obtain rfl := Convention.toValue_injective htoValue
    exact Convention.holdsJson_of_ofValue (heffective .namingConvention) hconvention
  case fragments =>
    exact Setting.forall_of_listed ExternalFragment.toValue_injective
      (fun item hitem path fragment h => ExternalFragment.holdsJson_of_ofValue hitem h)
      (heffective .externalFragments) (hfield .externalFragments)
  case imports =>
    exact Setting.forall_of_listed FragmentImport.toValue_injective
      (fun item hitem path entry h => FragmentImport.holdsJson_of_ofValue hitem h)
      (heffective .fragmentImports) (hfield .fragmentImports)
  case extras =>
    rw [Resolve.extras_of_resolve hlower hupper h]
    exact (Resolve.isJson_extras hnames hnames' hparts hparts').freeze

/-- Configurations that were resolved from plain data have one canonical text exactly if they are
alike field by field. -/
theorem canonical_eq_iff_alike (host host' : Host) {raw overrides raw' overrides' : Value}
    (hraw : raw.IsJson) (hoverrides : overrides.IsJson) (hraw' : raw'.IsJson)
    (hoverrides' : overrides'.IsJson) {c d : Configuration}
    (hc : (resolve host raw overrides).outcome = .ok c)
    (hd : (resolve host' raw' overrides').outcome = .ok d) :
    c.canonical = d.canonical ↔ c.Alike d := by
  have hleft := holdsJson_of_resolve hraw hoverrides hc
  have hright := holdsJson_of_resolve hraw' hoverrides' hd
  calc
    c.canonical = d.canonical ↔ c.document.Agrees d.document := canonical_eq_iff_agrees c d
    _ ↔ c.Alike d := agrees_iff_alike hleft hright

/-- A nested mapping that is written in two orders. -/
theorem canonical_eq_iff_alike_of_order :
    Value.IsJson (.mapping false [(.text "plugin",
        .mapping false [(.text "a", .integer 1), (.text "b", .list [.null])])]) ∧
      Value.IsJson (.mapping false [(.text "plugin",
        .mapping false [(.text "b", .list [.null]), (.text "a", .integer 1)])]) ∧
      Value.IsJson .null ∧ ∃ c d : Configuration,
        (resolve Host.bare (.mapping false [(.text "plugin",
          .mapping false [(.text "a", .integer 1), (.text "b", .list [.null])])])
          .null).outcome = .ok c ∧
        (resolve Host.bare (.mapping false [(.text "plugin",
          .mapping false [(.text "b", .list [.null]), (.text "a", .integer 1)])])
          .null).outcome = .ok d ∧
        (c.canonical = d.canonical ↔ c.Alike d) := by
  have hlist : Value.IsJson (.list [.null]) := .list (by simp [Value.IsJson.null])
  have hraw : Value.IsJson (.mapping false [(.text "plugin",
      .mapping false [(.text "a", .integer 1), (.text "b", .list [.null])])]) := by
    refine .mapping ⟨by simp, by decide⟩ (List.forall_mem_singleton.2 ?_)
    refine .mapping ⟨by simp, by decide⟩ (List.forall_mem_cons.2 ⟨.integer 1, ?_⟩)
    exact List.forall_mem_singleton.2 hlist
  have hraw' : Value.IsJson (.mapping false [(.text "plugin",
      .mapping false [(.text "b", .list [.null]), (.text "a", .integer 1)])]) := by
    refine .mapping ⟨by simp, by decide⟩ (List.forall_mem_singleton.2 ?_)
    refine .mapping ⟨by simp, by decide⟩ (List.forall_mem_cons.2 ⟨hlist, ?_⟩)
    exact List.forall_mem_singleton.2 (.integer 1)
  exact ⟨hraw, hraw', .null, _, _, rfl, rfl,
    canonical_eq_iff_alike Host.bare Host.bare hraw .null hraw' .null rfl rfl⟩

/-- Field by field the same kinds of numbers at the same places. -/
def SameKinds (c d : Configuration) : Prop :=
  List.Forall₂ Value.SameKinds (c.fields.map (·.2)) (d.fields.map (·.2))

/-- Configurations that count as the same have one canonical text, and with it one fingerprint,
exactly if they hold the same kinds of numbers at the same places. -/
theorem canonical_eq_iff_sameKinds {c d : Configuration} (hsame : c.sameAs d = true) :
    (c.canonical = d.canonical ↔ c.SameKinds d) ∧
      (c.SameKinds d → c.fingerprint = d.fingerprint) := by
  have hitems := (Value.sameItems_iff _ _).1 hsame
  have hiff : c.canonical = d.canonical ↔ c.SameKinds d := by
    calc
      c.canonical = d.canonical ↔ c.document.Agrees d.document := canonical_eq_iff_agrees c d
      _ ↔ List.Forall₂ Document.Agrees ((c.fields.map (·.2)).map Value.document)
          ((d.fields.map (·.2)).map Value.document) := agrees_iff_fields c d
      _ ↔ c.SameKinds d :=
        Value.forall₂_agrees_iff hitems fun _ _ => Value.agrees_iff_sameKinds
  refine ⟨hiff, fun hkinds => ?_⟩
  rw [fingerprint, fingerprint, hiff.2 hkinds]

/-- The order in which settings were written makes no difference. -/
theorem canonical_eq_iff_sameKinds_of_order : ∃ c d : Configuration,
    (resolve Host.bare (.mapping false [(.text "x", .integer 1), (.text "y", .null),
      (.text "z", .list [.boolean true])]) .null).outcome = .ok c ∧
      (resolve Host.bare (.mapping false [(.text "z", .list [.boolean true]),
        (.text "x", .integer 1)]) .null).outcome = .ok d ∧
        c.sameAs d = true ∧ (c.canonical = d.canonical ↔ c.SameKinds d) ∧
          (c.SameKinds d → c.fingerprint = d.fingerprint) :=
  ⟨_, _, rfl, rfl, by decide, canonical_eq_iff_sameKinds (by decide)⟩

/-- Configurations with one canonical text hold extras that are written alike under each name. -/
theorem extras_alike_of_canonical_eq {c d : Configuration} (h : c.canonical = d.canonical)
    (name : String) :
    Option.Rel Value.WrittenAlike (Written.last? (Value.displayedMembers c.extras) name)
      (Written.last? (Value.displayedMembers d.extras) name) := by
  have hextras : Option.Rel Document.Agrees (some (Value.mapping true c.extras).document)
      (some (Value.mapping true d.extras).document) :=
    Document.agrees_object_iff_lookup.1 ((canonical_eq_iff_agrees c d).1 h) "extras"
  cases hextras with
  | some hextras => exact (Value.agrees_iff_of_asEntries? rfl rfl).1 hextras name

/-- An integer and a truth value count as the same, but are written differently. -/
theorem canonical_ne_of_sameAs : ∃ c d : Configuration,
    (resolve Host.bare (.mapping false [(.text "x", .integer 1)]) .null).outcome = .ok c ∧
      (resolve Host.bare (.mapping false [(.text "x", .boolean true)]) .null).outcome = .ok d ∧
        c.sameAs d = true ∧ c.canonical ≠ d.canonical := by
  refine ⟨_, _, rfl, rfl, by decide, fun h => ?_⟩
  have hx : Option.Rel Value.WrittenAlike (some (.integer 1)) (some (.boolean true)) :=
    extras_alike_of_canonical_eq h "x"
  cases hx with
  | some hx => cases Value.agrees_iff_writtenAlike.2 hx

end Configuration

/-- Of two entries with keys that are displayed alike only the later one is written, so a mapping
that holds them in the other order counts as the same and has another document. -/
theorem Value.not_agrees_of_displayed_eq {key other v w : Value}
    (hkeys : key.displayed = other.displayed) (h : ¬ w.document.Agrees v.document)
    (frozen : Bool) :
    (mapping frozen [(key, v), (other, w)]).sameAs
        (mapping frozen [(other, w), (key, v)]) = true ∧
      ¬ (mapping frozen [(key, v), (other, w)]).document.Agrees
        (mapping frozen [(other, w), (key, v)]).document := by
  constructor
  · rw [sameAs_mapping_iff]
    simp
  · rw [agrees_iff_of_asEntries? rfl rfl]
    intro hlast
    have hname := hlast key.displayed
    simp only [Written.last?, displayedMembers, List.map_cons, List.map_nil, List.reverse_cons,
      List.reverse_nil, List.nil_append, List.cons_append, lookup_cons_eq_ite, hkeys,
      if_true] at hname
    cases hname with
    | some hname => exact h (agrees_iff_writtenAlike.2 hname)

/-- So it is with an integer and the text that shows it, both keys of a plugin. -/
theorem Configuration.canonical_ne_of_displayed_eq : ∃ c d : Configuration,
    (resolve Host.bare (.mapping false [(.text "x", .mapping false
        [(.integer 1, .text "a"), (.text "1", .text "b")])]) .null).outcome = .ok c ∧
      (resolve Host.bare (.mapping false [(.text "x", .mapping false
          [(.text "1", .text "b"), (.integer 1, .text "a")])]) .null).outcome = .ok d ∧
        c.sameAs d = true ∧ c.canonical ≠ d.canonical := by
  refine ⟨_, _, rfl, rfl, by decide, fun h => ?_⟩
  have hx : Option.Rel Value.WrittenAlike
      (some (.mapping true [(.integer 1, .text "a"), (.text "1", .text "b")]))
      (some (.mapping true [(.text "1", .text "b"), (.integer 1, .text "a")])) :=
    extras_alike_of_canonical_eq h "x"
  have hmembers : ¬ (Value.text "b").document.Agrees (Value.text "a").document :=
    Document.agrees_text_iff.not.2 (by decide)
  cases hx with
  | some hx =>
      exact (Value.not_agrees_of_displayed_eq (by decide) hmembers true).2
        (Value.agrees_iff_writtenAlike.2 hx)

end Nomenclature
