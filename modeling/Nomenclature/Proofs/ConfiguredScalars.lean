import Nomenclature.Proofs.Restatement
import Nomenclature.Proofs.ScalarAnswers

/-!
# Scalars as they were configured

From the layers of a caller to the type of one scalar: the layers are merged, the entries of the
merged scalars are read one by one and laid over the built-in ones, and the policy of the
configuration looks the name up. So a configured entry decides, then a built-in type, and only then
strictness or the default type. Under strictness the default type is never reached: no layer sets
it, and nothing that the policy is asked for depends on it.
-/

namespace Nomenclature

def Direction.opposite : Direction → Direction
  | .input => .output
  | .output => .input

namespace ScalarTypes

/-- The type that the entry of a scalar gives for a direction: built types have one for each, a
mapping has it on that side or, if that is not set, on the other, and a text serves both. -/
def given? (direction : Direction) : Value → Option Value
  | .scalarTypes input output => some ((ScalarTypes.mk input output).toward direction)
  | .mapping _ entries =>
    ((Entries.named entries direction.tag).orElse
      (Entries.named entries direction.opposite.tag)).asText?.map .text
  | entry => entry.asText?.map .text

/-- A side that falls back to the text of the other falls back to the other itself. -/
theorem asText?_orElse {own other : Value} {s t : String}
    (hother : (other.orElse own).asText? = some s)
    (hown : (own.orElse (.text s)).asText? = some t) : (own.orElse other).asText? = some t := by
  cases hnull : own.isNull with
  | false => simpa [Value.orElse, hnull] using hown
  | true =>
      cases hnull' : other.isNull with
      | false => simp_all [Value.orElse]
      | true =>
          have hnone : own.asText? = none := by cases own <;> simp_all [Value.isNull, Value.asText?]
          simp [Value.orElse, hnull', hnone] at hother

/-- Whichever side is read first, a mapping gives each direction its side or the other one. -/
theorem given?_of_ofEntries {frozen : Bool} {entries : Entries} {path : String}
    {types : ScalarTypes} (h : ofEntries entries path = .ok types) (direction : Direction) :
    given? direction (.mapping frozen entries) = some (types.toward direction) := by
  obtain ⟨input, output, rfl, hinput, houtput⟩ := texts_of_ofEntries h
  cases direction with
  | input => simp only [given?, Direction.opposite, toward, hinput, Option.map_some]
  | output =>
      have hside := asText?_orElse hinput houtput
      simp only [given?, Direction.opposite, toward, hside, Option.map_some]

theorem given?_of_ofValue {entry : Value} {path : String} {types : ScalarTypes}
    (h : ofValue entry path = .ok types) (direction : Direction) :
    given? direction entry = some (types.toward direction) := by
  have htext (s : String) : some (Value.text s) = some ((both s).toward direction) := by
    cases direction <;> rfl
  cases entry with
  | scalarTypes input output =>
      obtain rfl := Except.ok.inj h
      rfl
  | mapping frozen entries => exact given?_of_ofEntries h direction
  | text s =>
      obtain rfl : both s = types := Except.ok.inj h
      exact htext s
  | choice c =>
      obtain rfl : both c.tag = types := Except.ok.inj h
      exact htext c.tag
  | _ => simp [ofValue, Value.asText?] at h

end ScalarTypes

/-- The target type of a built-in scalar. -/
def ScalarTable.builtinType? : String → Option String
  | "ID" | "String" => some "string"
  | "Boolean" => some "boolean"
  | "Int" | "Float" => some "number"
  | _ => none

namespace ScalarTable

theorem lookup?_builtin (name : String) :
    Table.lookup? builtin (.text name) = (builtinType? name).map .both := by
  simp only [builtin, Table.lookup?_cons, Table.lookup?_nil, Value.sameAs_text,
    Value.asText?_text, Option.some.injEq]
  fun_cases builtinType? name with
  | case6 =>
      rename_i hid hstring hboolean hint hfloat
      simp [Ne.symm hid, Ne.symm hstring, Ne.symm hboolean, Ne.symm hint, Ne.symm hfloat]
  | _ => rfl

section

variable {known table : ScalarTable} {entries : Entries} {key : Value}

/-- What is laid over known scalars leaves those as they are that it does not name. -/
theorem lookup?_overlay_of_none (h : overlay known entries = .ok table)
    (hkey : Table.lookup? entries key = none) :
    Table.lookup? table key = Table.lookup? known key := by
  induction entries generalizing known with
  | nil =>
      obtain rfl : known = table := Except.ok.inj h
      rfl
  | cons entry rest ih =>
      obtain ⟨types, -, hrest⟩ := bind_eq_ok_iff.1 h
      rw [Table.lookup?_cons] at hkey
      split at hkey
      · simp at hkey
      · rename_i hentry
        rw [ih hrest hkey, Table.lookup?_put, if_neg hentry]

/-- Those that it names have the types of their entries. -/
theorem lookup?_overlay_of_some (hdistinct : Table.Distinct entries)
    (h : overlay known entries = .ok table) {entry : Value}
    (hkey : Table.lookup? entries key = some entry) :
    ∃ path types, ScalarTypes.ofValue entry path = .ok types ∧
      Table.lookup? table key = some types := by
  induction entries generalizing known with
  | nil => simp at hkey
  | cons first rest ih =>
      obtain ⟨hfirst, hdistinct⟩ := List.pairwise_cons.1 hdistinct
      obtain ⟨types, htypes, hrest⟩ := bind_eq_ok_iff.1 h
      rw [Table.lookup?_cons] at hkey
      split at hkey
      · rename_i hsame
        obtain rfl := Option.some.inj hkey
        refine ⟨_, types, htypes, ?_⟩
        have hlast := Table.lookup?_eq_none_of_first hfirst hsame
        rw [lookup?_overlay_of_none hrest hlast, Table.lookup?_put, if_pos hsame]
      · exact ih hdistinct hrest hkey

end

end ScalarTable

theorem Value.HasDistinctKeys.layerDistinct {layer : Value} (hlayer : layer.HasDistinctKeys) :
    Layers.Distinct layer :=
  fun _ => hlayer.distinct

theorem Value.HasDistinctKeys.of_entries {layer : Value} (hlayer : layer.HasDistinctKeys)
    {held : Entries} (h : Layers.entries (Layers.orEmpty layer) = .ok held) :
    ∀ entry ∈ held, entry.2.HasDistinctKeys := by
  rcases Layers.asEntries?_of_orEmpty h with hentries | rfl
  · exact fun entry => hlayer.of_mem hentries
  · simp

namespace SettingKey

/-- Where no layer repeats a key at any depth, neither does an effective value. -/
theorem hasDistinctKeys_effective {overrides raw : Entries}
    (hoverrides : ∀ entry ∈ overrides, entry.2.HasDistinctKeys)
    (hraw : ∀ entry ∈ raw, entry.2.HasDistinctKeys) (key : SettingKey) :
    (key.effective overrides raw).HasDistinctKeys := by
  have hstandard : key.standard.HasDistinctKeys := by
    apply Value.hasDistinctKeys_of_held_eq_nil
    cases key <;> rfl
  exact effective_of hoverrides hraw (Value.hasDistinctKeys_of_held_eq_nil rfl) hstandard

end SettingKey

namespace ScalarPolicy

/-- A policy answers as the entries under which scalars are configured say, and about all other
scalars as the configuration does. -/
structure Follows (policy : ScalarPolicy) (configured : Entries) (c : Configuration) : Prop where
  /-- A scalar with an entry has the type that its entry gives. -/
  of_entry : ∀ name entry direction, Table.lookup? configured (.text name) = some entry →
    ∃ type, ScalarTypes.given? direction entry = some type ∧
      policy.typeAt name direction.tag = .ok type
  /-- A built-in scalar without an entry keeps its type. -/
  of_builtin : ∀ name type direction, Table.lookup? configured (.text name) = none →
    ScalarTable.builtinType? name = some type →
    policy.typeAt name (Direction.tag direction) = .ok (.text type)
  /-- Any other scalar is a fault where scalars are strict. -/
  of_strict : ∀ name direction, Table.lookup? configured (.text name) = none →
    ScalarTable.builtinType? name = none → c.strictScalars = true →
    policy.typeAt name (Direction.tag direction) = .error (.unknownScalar name)
  /-- Where they are not, it has the default type. -/
  of_default : ∀ name direction, Table.lookup? configured (.text name) = none →
    ScalarTable.builtinType? name = none → c.strictScalars = false →
    policy.typeAt name (Direction.tag direction) = .ok (.text c.defaultScalarType)
  /-- The default type is not blank. -/
  default_not_blank : ∃ x ∈ c.defaultScalarType.toList, Text.isBlank x = false

/-- Two policies answer every question alike. -/
structure SameAnswers (first second : ScalarPolicy) : Prop where
  typeAt_eq : ∀ name direction, first.typeAt name direction = second.typeAt name direction
  validate_eq : ∀ names, first.validate names = second.validate names
  coverSchema_eq : ∀ types, first.coverSchema types = second.coverSchema types
  table_eq : first.table = second.table
  has_eq : ∀ name, first.has name = second.has name

/-- The default type of a configuration is the standard one and plays no part. -/
structure IgnoresDefault (c : Configuration) (raw overrides : Value) : Prop where
  unset : ∀ layer ∈ [raw, overrides], ∀ entries, layer.asEntries? = some entries →
    Layers.set? entries (.text "defaultScalarType") = none
  standard : Table.lookup? Layers.standardDefaults (.text "defaultScalarType") =
    some (.text c.defaultScalarType)
  sameAnswers : ∀ other,
    SameAnswers (ofTable c.scalars c.strictScalars other) (ofConfiguration c)

/-- A strict policy never reaches its default type. -/
theorem sameAnswers_of_strict (scalars : ScalarTable) (first second : String) :
    SameAnswers (ofTable scalars true first) (ofTable scalars true second) := by
  have htype (name : String) (direction : Direction) :
      (ofTable scalars true first).typeToward name direction =
        (ofTable scalars true second).typeToward name direction := rfl
  constructor
  case typeAt_eq =>
    intro name direction
    simp only [typeAt, htype]
  case validate_eq =>
    intro names
    induction names with
    | nil => rfl
    | cons name rest ih =>
        rw [validate, validate, ih]
        rfl
  case coverSchema_eq =>
    intro types
    have hcover (known : Entries) (types : TypeMap) :
        (ofTable scalars true first).cover known types =
          (ofTable scalars true second).cover known types := by
      induction types generalizing known with
      | nil => rfl
      | cons entry rest ih => simp only [cover, htype, ih]
    exact hcover _ _
  case table_eq => rfl
  case has_eq =>
    intro name
    rfl

/-- A policy over scalars that were read follows the entries that they were read from. -/
theorem follows_of_ofValue {c : Configuration} {value : Value} {configured : Entries}
    (hscalars : ScalarTable.ofValue value = .ok c.scalars)
    (hconfigured : value.asEntries? = some configured) (hdistinct : Table.Distinct configured)
    (hdefault : ∃ x ∈ c.defaultScalarType.toList, Text.isBlank x = false) :
    (ofConfiguration c).Follows configured c := by
  obtain ⟨entries, hentries, hoverlay⟩ := ScalarTable.ofValue_eq_ok_iff.1 hscalars
  obtain rfl : entries = configured := Option.some.inj (hentries.symm.trans hconfigured)
  have habsent (name : String) (hname : Table.lookup? entries (.text name) = none) :
      Table.lookup? c.scalars (.text name) =
        (ScalarTable.builtinType? name).map ScalarTypes.both := by
    rw [ScalarTable.lookup?_overlay_of_none hoverlay hname, ScalarTable.lookup?_builtin]
  have hnonempty : c.defaultScalarType.isEmpty = false := by
    obtain ⟨x, hx, -⟩ := hdefault
    rw [← Bool.not_eq_true, String.isEmpty_iff]
    intro hempty
    rw [hempty] at hx
    simp at hx
  constructor
  case of_entry =>
    intro name entry direction hname
    obtain ⟨path, types, htypes, hlookup⟩ :=
      ScalarTable.lookup?_overlay_of_some hdistinct hoverlay hname
    refine ⟨types.toward direction, ScalarTypes.given?_of_ofValue htypes direction, ?_⟩
    rw [typeAt_tag, typeToward, ofConfiguration, ofTable, hlookup]
  case of_builtin =>
    intro name type direction hname hbuiltin
    rw [typeAt_tag, typeToward, ofConfiguration, ofTable, habsent name hname, hbuiltin]
    cases direction <;> rfl
  case of_strict =>
    intro name direction hname hbuiltin hstrict
    rw [typeAt_tag, typeToward, ofConfiguration, ofTable, habsent name hname, hbuiltin, hstrict]
    rfl
  case of_default =>
    intro name direction hname hbuiltin hstrict
    rw [typeAt_tag, typeToward, ofConfiguration, ofTable, habsent name hname, hbuiltin, hstrict,
      hnonempty]
    rfl
  case default_not_blank => exact hdefault

/-- Under strictness no layer sets the default type, and none of the answers depends on it. -/
theorem ignoresDefault_of_resolve {host : Host} {raw overrides : Value} {c : Configuration}
    (hraw : Layers.Distinct raw) (hoverrides : Layers.Distinct overrides)
    (h : (Configuration.resolve host raw overrides).outcome = .ok c)
    (hstrict : c.strictScalars = true) : IgnoresDefault c raw overrides := by
  obtain ⟨upper, lower, hupper, hlower⟩ := Configuration.entries_of_resolve h
  have hunset {layer : Value} {held : Entries} (hlayer : Layers.Distinct layer)
      (hheld : Layers.entries (Layers.orEmpty layer) = .ok held)
      (hnull : (Entries.named held "defaultScalarType").isNull = true) (entries : Entries)
      (hentries : layer.asEntries? = some entries) :
      Layers.set? entries (.text "defaultScalarType") = none := by
    rw [Layers.entries_of_asEntries? hentries] at hheld
    obtain rfl : entries = held := Except.ok.inj hheld
    rwa [Layers.set?_eq_none_iff (hlayer entries hentries)]
  constructor
  case unset =>
    have hnull := Configuration.unset_of_strict hupper hlower h hstrict
    simp only [List.mem_cons, List.not_mem_nil, or_false]
    rintro layer (rfl | rfl)
    · exact hunset hraw hlower hnull.1
    · exact hunset hoverrides hupper hnull.2
  case standard =>
    have hread : (Resolve.defaultScalarType (.text "any")).map Value.text =
        .ok (.text c.defaultScalarType) :=
      Configuration.read_standard_of_strict hraw hoverrides h hstrict
    obtain ⟨type, htype, hfield⟩ := map_eq_ok_iff.1 hread
    obtain rfl : type = c.defaultScalarType := Value.text.inj hfield
    have hany := (Resolve.defaultScalarType_eq_ok_iff.1 htype).1
    rw [← Option.some.inj hany]
    rfl
  case sameAnswers =>
    intro other
    rw [ofConfiguration, hstrict]
    exact sameAnswers_of_strict c.scalars other c.defaultScalarType

/-- From the layers to the type of a scalar: the policy of a configuration follows the scalars of
the merged layers, and under strictness the default type plays no part. -/
theorem follows_of_resolve (host : Host) {raw overrides : Value} {c : Configuration}
    (hraw : raw.HasDistinctKeys) (hoverrides : overrides.HasDistinctKeys)
    (h : (Configuration.resolve host raw overrides).outcome = .ok c) :
    ∃ merged configured,
      Layers.merged (.mapping true Layers.standardDefaults) raw overrides = .ok merged ∧
        (Entries.named merged "scalars").asEntries? = some configured ∧
          (ofConfiguration c).Follows configured c ∧
            (c.strictScalars = true → IgnoresDefault c raw overrides) := by
  obtain ⟨upper, lower, hupper, hlower⟩ := Configuration.entries_of_resolve h
  have hupperKeys := hoverrides.layerDistinct.of_entries hupper
  have hlowerKeys := hraw.layerDistinct.of_entries hlower
  have hfield (key : SettingKey) :=
    Resolve.field_of_resolve hlower hupper hlowerKeys hupperKeys h key
  obtain ⟨table, hscalars, htable⟩ := map_eq_ok_iff.1 (hfield .scalars)
  obtain rfl : table = c.scalars := ScalarTable.toValue_injective htable
  obtain ⟨type, hdefault, htype⟩ := map_eq_ok_iff.1 (hfield .defaultScalarType)
  obtain rfl : type = c.defaultScalarType := Value.text.inj htype
  obtain ⟨configured, hconfigured, -⟩ := ScalarTable.ofValue_eq_ok_iff.1 hscalars
  have hdistinct : Table.Distinct configured :=
    (SettingKey.hasDistinctKeys_effective (hoverrides.of_entries hupper)
      (hraw.of_entries hlower) .scalars).distinct hconfigured
  refine ⟨_, configured, Layers.merged_standard hlower hupper, ?_, ?_, ?_⟩
  · rw [← hconfigured, ← Resolve.named_merged hupperKeys hlowerKeys .scalars]
    rfl
  · apply follows_of_ofValue hscalars hconfigured hdistinct
    exact (Resolve.defaultScalarType_eq_ok_iff.1 hdefault).2
  · exact ignoresDefault_of_resolve hraw.layerDistinct hoverrides.layerDistinct h

/-- A built-in scalar with one side of its own, and one that is not known otherwise. -/
def oneSidedRaw : Value :=
  .mapping false [(.text "scalars", .mapping false
    [(.text "ID", .mapping false [(.text "input", .text "number")]), (.text "Date", .text "Day")])]

def strictLayer : Value :=
  .mapping false [(.text "strictScalars", .boolean true)]

/-- Strictness may come from another layer than the scalars; the side that was set serves both
directions. -/
theorem follows_of_resolve_one_sided :
    oneSidedRaw.HasDistinctKeys ∧ strictLayer.HasDistinctKeys ∧
      ∃ c, (Configuration.resolve Host.bare oneSidedRaw strictLayer).outcome = .ok c ∧
        (∃ merged configured,
          Layers.merged (.mapping true Layers.standardDefaults) oneSidedRaw strictLayer =
              .ok merged ∧
            (Entries.named merged "scalars").asEntries? = some configured ∧
              (ofConfiguration c).Follows configured c ∧
                (c.strictScalars = true → IgnoresDefault c oneSidedRaw strictLayer)) ∧
        (ofConfiguration c).typeAt "ID" "output" = .ok (.text "number") ∧
        (ofConfiguration c).typeAt "Time" "output" = .error (.unknownScalar "Time") := by
  have htext (s : String) : (Value.text s).HasDistinctKeys :=
    Value.hasDistinctKeys_of_held_eq_nil rfl
  have hboolean (b : Bool) : (Value.boolean b).HasDistinctKeys :=
    Value.hasDistinctKeys_of_held_eq_nil rfl
  have hraw : oneSidedRaw.HasDistinctKeys := by
    simp only [oneSidedRaw, Value.hasDistinctKeys_mapping_iff, List.forall_mem_cons, htext,
      List.not_mem_nil, false_implies, implies_true]
    decide
  have hoverrides : strictLayer.HasDistinctKeys := by
    simp only [strictLayer, Value.hasDistinctKeys_mapping_iff, List.forall_mem_cons, htext,
      hboolean, List.not_mem_nil, false_implies, implies_true]
    decide
  exact ⟨hraw, hoverrides, _, rfl, follows_of_resolve Host.bare hraw hoverrides rfl, rfl, rfl⟩

end ScalarPolicy

end Nomenclature
