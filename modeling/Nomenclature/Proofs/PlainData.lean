import Nomenclature.Proofs.Likeness
import Nomenclature.Proofs.Restatement

/-!
# Configurations of plain data

Layers of plain data lead to a configuration of plain data: a reader that meets no built setting
builds one from texts, booleans and the data that it passes on. So the fields of two such
configurations look the same from outside, and their documents agree exactly if they are alike.
-/

namespace Nomenclature

namespace Value

/-- Freezing plain data leaves plain data. -/
theorem IsJson.freeze {value : Value} (h : value.IsJson) : value.freeze.IsJson := by
  induction h with
  | null => exact .null
  | boolean b => exact .boolean b
  | integer n => exact .integer n
  | text s => exact .text s
  | list _ ih =>
      rw [Value.freeze, freezeItems_eq_map]
      refine .tuple fun item hitem => ?_
      obtain ⟨old, hold, rfl⟩ := List.mem_map.1 hitem
      exact ih old hold
  | tuple _ ih =>
      rw [Value.freeze, freezeItems_eq_map]
      refine .tuple fun item hitem => ?_
      obtain ⟨old, hold, rfl⟩ := List.mem_map.1 hitem
      exact ih old hold
  | mapping hentries _ ih =>
      rw [Value.freeze, freezeEntries_eq_map]
      refine .mapping (hentries.map _) fun entry hentry => ?_
      obtain ⟨old, hold, rfl⟩ := List.mem_map.1 hentry
      exact ih old hold

end Value

namespace Entries

variable {entries : Entries}

theorem isJson_named (h : ∀ entry ∈ entries, entry.2.IsJson) (name : String) :
    (named entries name).IsJson :=
  getD_of h name .null

theorem isJson_either (h : ∀ entry ∈ entries, entry.2.IsJson) (name other : String)
    {otherwise : Value} (hotherwise : otherwise.IsJson) :
    (either entries name other otherwise).IsJson :=
  Value.orElse_of (isJson_named h name) (Value.orElse_of (isJson_named h other) hotherwise)

end Entries

/-- What a value holds directly is plain data. -/
def Value.HoldsJson (value : Value) : Prop :=
  ∀ part ∈ value.held, part.IsJson

theorem Value.IsJson.of_asEntries? {value : Value} (hvalue : value.IsJson) {entries : Entries}
    (h : value.asEntries? = some entries) :
    Table.AreNamed entries ∧ ∀ entry ∈ entries, entry.2.IsJson := by
  cases hvalue with
  | mapping hentries hparts =>
      obtain rfl := Option.some.inj h
      exact ⟨hentries, hparts⟩
  | _ => simp [asEntries?] at h

theorem Value.IsJson.of_list {value : Value} (hvalue : value.IsJson) {path : String}
    {items : List Value} (h : Setting.list value path = .ok items) :
    ∀ item ∈ items, item.IsJson := by
  rw [Setting.list] at h
  cases hvalue with
  | list hitems =>
      obtain rfl := Except.ok.inj h
      exact hitems
  | tuple hitems =>
      obtain rfl := Except.ok.inj h
      exact hitems
  | _ => simp [asItems?] at h

/-- What every item is read as holds of all that a list is read as. -/
theorem Setting.forall_of_items {α : Type} {read : Value → String → Except Fault α} {path : String}
    {P : α → Prop} {listed : List Value}
    (hread : ∀ item ∈ listed, ∀ path a, read item path = .ok a → P a) {index : Nat} {as : List α}
    (h : items read path index listed = .ok as) : ∀ a ∈ as, P a := by
  induction listed generalizing index as with
  | nil =>
      obtain rfl : [] = as := Except.ok.inj h
      simp
  | cons item rest ih =>
      obtain ⟨hitem, hrest⟩ := List.forall_mem_cons.1 hread
      obtain ⟨first, hfirst, h⟩ := bind_eq_ok_iff.1 h
      obtain ⟨others, hothers, h⟩ := bind_eq_ok_iff.1 h
      obtain rfl : first :: others = as := Except.ok.inj h
      exact List.forall_mem_cons.2 ⟨hitem _ _ hfirst, ih hrest hothers⟩

/-- The same of a setting that is a list of plain data. -/
theorem Setting.forall_of_listed {α : Type} {read : Value → String → Except Fault α}
    {write : α → Value} (hwrite : Function.Injective write) {P : α → Prop}
    (hread : ∀ item : Value, item.IsJson → ∀ path a, read item path = .ok a → P a) {value : Value}
    (hvalue : value.IsJson) {path : String} {as : List α}
    (h : (Setting.list value path >>= fun listed =>
      (items read path 0 listed).map fun found => Value.tuple (found.map write)) =
        .ok (.tuple (as.map write))) : ∀ a ∈ as, P a := by
  obtain ⟨listed, hlisted, h⟩ := bind_eq_ok_iff.1 h
  obtain ⟨found, hfound, htuple⟩ := map_eq_ok_iff.1 h
  obtain rfl := List.map_injective_iff.2 hwrite (Value.tuple.inj htuple)
  exact forall_of_items (fun item hitem => hread item (hvalue.of_list hlisted item hitem)) hfound

namespace ScalarTypes

theorem holdsJson_of_ofValue {value : Value} (hvalue : value.IsJson) {path : String}
    {types : ScalarTypes} (h : ofValue value path = .ok types) : types.toValue.HoldsJson := by
  have htexts (input output : String) :
      (ScalarTypes.mk (.text input) (.text output)).toValue.HoldsJson := by
    simp [Value.HoldsJson, toValue, Value.held, Value.IsJson.text]
  cases hvalue with
  | text s =>
      obtain rfl := Except.ok.inj h
      exact htexts s s
  | mapping =>
      obtain ⟨input, output, rfl, -, -⟩ := texts_of_ofEntries h
      exact htexts input output
  | _ => simp [ofValue, Value.asText?] at h

end ScalarTypes

namespace ScalarTable

/-- The names are texts, and the types are plain data. -/
def HoldsJson (table : ScalarTable) : Prop :=
  Table.AreNamed table ∧ ∀ entry ∈ table, entry.2.toValue.HoldsJson

theorem areNamed_builtin : Table.AreNamed builtin :=
  ⟨by simp [builtin], by decide⟩

/-- Entries under names leave a named table named. -/
theorem areNamed_overlay {known table : ScalarTable} {entries : Entries}
    (hknown : Table.AreNamed known) (hnames : ∀ entry ∈ entries, ∃ s, entry.1 = .text s)
    (h : overlay known entries = .ok table) : Table.AreNamed table := by
  induction entries generalizing known with
  | nil =>
      obtain rfl : known = table := Except.ok.inj h
      exact hknown
  | cons entry rest ih =>
      obtain ⟨name, value⟩ := entry
      obtain ⟨⟨s, rfl⟩, hrest⟩ := List.forall_mem_cons.1 hnames
      obtain ⟨types, -, h⟩ := bind_eq_ok_iff.1 h
      exact ih (hknown.put s types) hrest h

/-- What holds of known types and of all that entries are read as holds of all types in the end. -/
theorem forall_of_overlay {P : ScalarTypes → Prop} {known table : ScalarTable} {entries : Entries}
    (hknown : ∀ entry ∈ known, P entry.2)
    (hread : ∀ entry ∈ entries, ∀ path types, ScalarTypes.ofValue entry.2 path = .ok types → P types)
    (h : overlay known entries = .ok table) : ∀ entry ∈ table, P entry.2 := by
  induction entries generalizing known with
  | nil =>
      obtain rfl : known = table := Except.ok.inj h
      exact hknown
  | cons entry rest ih =>
      obtain ⟨hfirst, hrest⟩ := List.forall_mem_cons.1 hread
      obtain ⟨types, htypes, h⟩ := bind_eq_ok_iff.1 h
      refine ih (fun item hitem => ?_) hrest h
      rcases Table.mem_put hitem with hold | ⟨hnew, -⟩
      · exact hknown item hold
      · rw [hnew]
        exact hfirst _ types htypes

theorem holdsJson_builtin : HoldsJson builtin := by
  refine ⟨areNamed_builtin, ?_⟩
  simp [builtin, ScalarTypes.both, ScalarTypes.toValue, Value.HoldsJson, Value.held,
    Value.IsJson.text]

theorem holdsJson_of_overlay {known table : ScalarTable} {entries : Entries}
    (hknown : HoldsJson known) (hnames : ∀ entry ∈ entries, ∃ s, entry.1 = .text s)
    (hentries : ∀ entry ∈ entries, entry.2.IsJson) (h : overlay known entries = .ok table) :
    HoldsJson table :=
  ⟨areNamed_overlay hknown.1 hnames h, forall_of_overlay hknown.2 (fun entry hentry _ _ hread =>
    ScalarTypes.holdsJson_of_ofValue (hentries entry hentry) hread) h⟩

theorem holdsJson_of_ofValue {value : Value} (hvalue : value.IsJson) {table : ScalarTable}
    (h : ofValue value = .ok table) : HoldsJson table := by
  obtain ⟨entries, hentries, h⟩ := ofValue_eq_ok_iff.1 h
  obtain ⟨hnamed, hparts⟩ := hvalue.of_asEntries? hentries
  exact holdsJson_of_overlay holdsJson_builtin hnamed.names hparts h

end ScalarTable

theorem Strategy.isJson_of_ofValue {value : Value} (hvalue : value.IsJson) {strategy : Strategy}
    (h : ofValue value = .ok strategy) : strategy.toValue.IsJson := by
  cases hvalue with
  | text name =>
      rw [ofValue] at h
      split at h
      · simp at h
      · obtain rfl := Except.ok.inj h
        exact .text name
  | _ => simp [ofValue] at h

namespace Convention

theorem holdsJson_of_ofParts {host : Host} {types enums underscore : Value} (htypes : types.IsJson)
    (henums : enums.IsJson) (hunderscore : underscore.IsJson) {convention : Convention}
    (h : ofParts host types enums underscore = .ok convention) : convention.toValue.HoldsJson := by
  have hstrategy {value : Value} (hvalue : value.IsJson) {found : Strategy × Callable}
      (h : Strategy.resolveValue host value = .ok found) : found.1.toValue.IsJson :=
    Strategy.isJson_of_ofValue hvalue (Strategy.resolveValue_eq_ok_iff.1 h).1
  obtain ⟨first, second, hfirst, hsecond, rfl⟩ := ofParts_eq_ok_iff.1 h
  simp only [Value.HoldsJson, toValue, Value.held, List.forall_mem_cons]
  exact ⟨hstrategy htypes hfirst, hstrategy henums hsecond, hunderscore, by simp⟩

theorem holdsJson_of_ofValue {host : Host} {value : Value} (hvalue : value.IsJson)
    {convention : Convention} (h : ofValue host value = .ok convention) :
    convention.toValue.HoldsJson := by
  cases hvalue with
  | text name => exact holdsJson_of_ofParts (.text name) (.text name) (.boolean false) h
  | mapping hentries hparts =>
      obtain ⟨underscore, h⟩ := ofParts_of_ofEntries h
      exact holdsJson_of_ofParts (Value.orElse_of (Entries.isJson_named hparts _) (.text _))
        (Value.orElse_of (Entries.isJson_named hparts _) (.text _)) (.boolean underscore) h
  | _ => simp [ofValue, Value.asText?, Value.asCallable?] at h

end Convention

theorem ExternalFragment.holdsJson_of_ofValue {value : Value} (hvalue : value.IsJson)
    {path : String} {fragment : ExternalFragment} (h : ofValue value path = .ok fragment) :
    fragment.toValue.HoldsJson := by
  cases hvalue with
  | mapping _ hparts =>
      simp only [ofValue] at h
      split at h
      · obtain ⟨name, -, h⟩ := bind_eq_ok_iff.1 h
        obtain ⟨onType, -, h⟩ := bind_eq_ok_iff.1 h
        obtain ⟨isExternal, -, h⟩ := bind_eq_ok_iff.1 h
        obtain rfl := Except.ok.inj h
        simp only [Value.HoldsJson, toValue, Value.held, List.forall_mem_cons]
        exact ⟨.text name, .text onType, Entries.isJson_named hparts _, .boolean isExternal,
          Entries.isJson_either hparts _ _ .null, by simp⟩
      · simp at h
  | _ => simp [ofValue] at h

theorem ImportedIdentifier.holdsJson_of_ofValue {value : Value} (hvalue : value.IsJson)
    {path : String} {identifier : ImportedIdentifier} (h : ofValue value path = .ok identifier) :
    identifier.toValue.HoldsJson := by
  cases hvalue with
  | mapping _ hparts =>
      simp only [ofValue] at h
      split at h
      · obtain ⟨name, -, h⟩ := bind_eq_ok_iff.1 h
        obtain rfl := Except.ok.inj h
        simp only [Value.HoldsJson, toValue, Value.held, List.forall_mem_cons]
        exact ⟨.text name, Entries.isJson_named hparts _, by simp⟩
      · cases h
  | _ => simp [ofValue] at h

namespace FragmentImport

/-- The identifiers are a frozen list of built ones, and everything is plain data otherwise. -/
structure HoldsJson (entry : FragmentImport) : Prop where
  parts : ∀ part ∈ [entry.baseDir, entry.baseOutputDir, entry.outputPath, entry.typeImport,
    entry.importPath, entry.scope], part.IsJson
  identifiers : ∃ identifiers : List ImportedIdentifier,
    entry.identifiers = .tuple (identifiers.map ImportedIdentifier.toValue) ∧
      ∀ identifier ∈ identifiers, identifier.toValue.HoldsJson

theorem isJson_nested {entries nested : Entries} (hentries : ∀ entry ∈ entries, entry.2.IsJson)
    {path : String} (h : FragmentImport.nested entries path = .ok nested) :
    ∀ entry ∈ nested, entry.2.IsJson := by
  simp only [FragmentImport.nested] at h
  split at h
  · split at h
    · rename_i found hfound
      obtain rfl := Except.ok.inj h
      exact ((Entries.isJson_named hentries _).of_asEntries? hfound).2
    · simp at h
  · obtain rfl := Except.ok.inj h
    simp

theorem isJson_readScope {value scope : Value} {path : String}
    (h : readScope value path = .ok scope) : scope.IsJson := by
  rw [readScope] at h
  split at h
  · obtain rfl := Except.ok.inj h
    exact .null
  · obtain ⟨s, -, rfl⟩ := map_eq_ok_iff.1 h
    exact .text s

theorem holdsJson_of_ofValue {value : Value} (hvalue : value.IsJson) {path : String}
    {entry : FragmentImport} (h : ofValue value path = .ok entry) : entry.HoldsJson := by
  cases hvalue with
  | mapping _ hparts =>
      rw [ofValue, ofEntries_eq] at h
      obtain ⟨inner, hinner, h⟩ := bind_eq_ok_iff.1 h
      have hinner := isJson_nested hparts hinner
      obtain ⟨scope, hscope, h⟩ := bind_eq_ok_iff.1 h
      obtain ⟨listed, hlisted, h⟩ := bind_eq_ok_iff.1 h
      obtain ⟨identifiers, hidentifiers, h⟩ := bind_eq_ok_iff.1 h
      obtain ⟨baseDir, -, h⟩ := bind_eq_ok_iff.1 h
      obtain ⟨baseOutputDir, -, h⟩ := bind_eq_ok_iff.1 h
      obtain ⟨outputPath, -, h⟩ := bind_eq_ok_iff.1 h
      obtain ⟨importPath, -, h⟩ := bind_eq_ok_iff.1 h
      obtain ⟨typeImport, -, h⟩ := bind_eq_ok_iff.1 h
      obtain rfl := Except.ok.inj h
      have hitems := (Value.orElse_of (Entries.isJson_named hparts "identifiers")
        (Entries.getD_of hinner "identifiers" (.list (by simp)))).of_list hlisted
      refine ⟨?_, identifiers, rfl, Setting.forall_of_items
        (fun item hitem path identifier h =>
          ImportedIdentifier.holdsJson_of_ofValue (hitems item hitem) h) hidentifiers⟩
      simp only [List.forall_mem_cons]
      exact ⟨.text _, .text _, .text _, .boolean _, .text _, isJson_readScope hscope, by simp⟩
  | _ => simp [ofValue] at h

end FragmentImport

namespace Value

variable {v w : Value}

/-- Built settings of one kind that hold plain data. -/
theorem faithful_of_holdsJson {fields others : List (String × Value)}
    (hv : v.fields? = some fields) (hw : w.fields? = some others)
    (hnames : fields.map (·.1) = others.map (·.1)) (hleft : v.HoldsJson) (hright : w.HoldsJson) :
    Faithful v w := by
  refine faithful_of_fields? hv hw hnames fun pair hpair => ?_
  rw [(fields?_eq_some hv).2, (fields?_eq_some hw).2] at hpair
  obtain ⟨hfirst, hsecond⟩ := List.of_mem_zip hpair
  exact (hleft pair.1 hfirst).faithful (hright pair.2 hsecond)

theorem faithful_tuple_map {α : Type} {write : α → Value} {as bs : List α}
    (h : ∀ a ∈ as, ∀ b ∈ bs, Faithful (write a) (write b)) :
    Faithful (.tuple (as.map write)) (.tuple (bs.map write)) := by
  refine faithful_of_asItems? rfl rfl fun pair hpair => ?_
  obtain ⟨hfirst, hsecond⟩ := List.of_mem_zip hpair
  obtain ⟨a, ha, hwrite⟩ := List.mem_map.1 hfirst
  obtain ⟨b, hb, hwrite'⟩ := List.mem_map.1 hsecond
  rw [← hwrite, ← hwrite']
  exact h a ha b hb

end Value

theorem FragmentImport.HoldsJson.faithful {entry other : FragmentImport} (hentry : entry.HoldsJson)
    (hother : other.HoldsJson) : Value.Faithful entry.toValue other.toValue := by
  obtain ⟨hparts, identifiers, hidentifiers, hitems⟩ := hentry
  obtain ⟨hparts', identifiers', hidentifiers', hitems'⟩ := hother
  have hlists : Value.Faithful entry.identifiers other.identifiers := by
    rw [hidentifiers, hidentifiers']
    exact Value.faithful_tuple_map fun first hfirst second hsecond =>
      Value.faithful_of_holdsJson rfl rfl rfl (hitems first hfirst) (hitems' second hsecond)
  simp only [List.forall_mem_cons] at hparts hparts'
  obtain ⟨hbase, houtput, hpath, htype, himport, hscope, -⟩ := hparts
  obtain ⟨hbase', houtput', hpath', htype', himport', hscope', -⟩ := hparts'
  refine Value.faithful_of_fields? rfl rfl rfl ?_
  change ∀ pair ∈ [(entry.baseDir, other.baseDir), (entry.baseOutputDir, other.baseOutputDir),
    (entry.outputPath, other.outputPath), (entry.identifiers, other.identifiers),
    (entry.typeImport, other.typeImport), (entry.importPath, other.importPath),
    (entry.scope, other.scope)], Value.Faithful pair.1 pair.2
  simp only [List.forall_mem_cons]
  exact ⟨hbase.faithful hbase', houtput.faithful houtput', hpath.faithful hpath', hlists,
    htype.faithful htype', himport.faithful himport', hscope.faithful hscope', by simp⟩

namespace Configuration

/-- Every field is plain data, or built from plain data. -/
structure HoldsJson (c : Configuration) : Prop where
  scalars : ScalarTable.HoldsJson c.scalars
  convention : c.convention.toValue.HoldsJson
  fragments : ∀ fragment ∈ c.externalFragments, fragment.toValue.HoldsJson
  imports : ∀ entry ∈ c.fragmentImports, entry.HoldsJson
  extras : Value.IsJson (.mapping true c.extras)

/-- Field by field the same data. -/
def Alike (c d : Configuration) : Prop :=
  List.Forall₂ Value.Alike (c.fields.map (·.2)) (d.fields.map (·.2))

theorem HoldsJson.faithful_field {c d : Configuration} (hc : c.HoldsJson) (hd : d.HoldsJson)
    (key : SettingKey) : Value.Faithful (c.field key) (d.field key) := by
  cases key with
  | scalars =>
      refine Value.faithful_of_asEntries? rfl rfl (hc.scalars.1.map _) (hd.scalars.1.map _) ?_
      intro entry hentry other hother
      obtain ⟨types, htypes, rfl⟩ := List.mem_map.1 hentry
      obtain ⟨types', htypes', rfl⟩ := List.mem_map.1 hother
      exact Value.faithful_of_holdsJson rfl rfl rfl (hc.scalars.2 types htypes)
        (hd.scalars.2 types' htypes')
  | namingConvention => exact Value.faithful_of_holdsJson rfl rfl rfl hc.convention hd.convention
  | externalFragments =>
      exact Value.faithful_tuple_map fun first hfirst second hsecond =>
        Value.faithful_of_holdsJson rfl rfl rfl (hc.fragments first hfirst)
          (hd.fragments second hsecond)
  | fragmentImports =>
      exact Value.faithful_tuple_map fun first hfirst second hsecond =>
        (hc.imports first hfirst).faithful (hd.imports second hsecond)
  | inlineFragmentTypes => exact Value.faithful_of_asText? rfl rfl
  | defaultScalarType => exact Value.faithful_of_asText? rfl rfl
  | typesPrefix => exact Value.faithful_of_asText? rfl rfl
  | typesSuffix => exact Value.faithful_of_asText? rfl rfl
  | fragmentVariableSuffix => exact Value.faithful_of_asText? rfl rfl
  | fragmentVariablePrefix => exact Value.faithful_of_asText? rfl rfl
  | _ => exact (Value.IsJson.boolean _).faithful (.boolean _)

end Configuration

end Nomenclature
