import Mathlib.Data.List.TakeDrop
import Nomenclature.Proofs.Fingerprint
import Nomenclature.Proofs.Refusals
import Nomenclature.Proofs.StyleWriting

/-!
# Resolving plain data

Two things make resolution fail otherwise than by a refusal: unknown keys of a naming convention
that have no order, and a reference to a module of the host, which fails as it likes. Neither
happens with plain data whose strategies are no references. Such data is refused or resolved, and
what it resolves to has a canonical text and a name for every source.
-/

namespace Nomenclature

/-- Data as a file may hold it: numbers, texts and the like, and lists and mappings of such data,
with a text for every key and no key twice. -/
inductive Value.IsData : Value → Prop
  | null : IsData .null
  | boolean (b : Bool) : IsData (.boolean b)
  | integer (n : Int) : IsData (.integer n)
  | real (x : Binary64) : IsData (.real x)
  | undefined (occurrence : Nat) : IsData (.undefined occurrence)
  | text (s : String) : IsData (.text s)
  | list {items : List Value} (hitems : ∀ item ∈ items, IsData item) : IsData (.list items)
  | mapping {frozen : Bool} {entries : Entries} (hkeys : Table.AreNamed entries)
      (hentries : ∀ entry ∈ entries, IsData entry.2) : IsData (.mapping frozen entries)

/-- A layer of data holds data under texts. -/
theorem Value.IsData.of_entries {layer : Value} (hlayer : layer.IsData) {held : Entries}
    (h : Layers.entries (Layers.orEmpty layer) = .ok held) :
    Table.AreNamed held ∧ ∀ entry ∈ held, entry.2.IsData := by
  rcases Layers.asEntries?_of_orEmpty h with h | rfl
  · cases hlayer with
    | mapping hkeys hentries =>
        obtain rfl := Option.some.inj h
        exact ⟨hkeys, hentries⟩
    | _ => simp [Value.asEntries?] at h
  · exact ⟨⟨by simp, Table.distinct_nil⟩, by simp⟩

/-- Texts can be put in order. -/
theorem Value.sorted?_ne_none {values : List Value}
    (hvalues : ∀ value ∈ values, value.asText?.isSome) : sorted? values ≠ none := by
  rw [sorted?, if_pos (List.all_eq_true.2 hvalues)]
  exact Option.some_ne_none _

theorem Table.AreNamed.isLayer {entries : Entries} (h : Table.AreNamed entries) :
    entries.IsLayer := by
  refine ⟨fun entry hentry => ?_, h.distinct⟩
  obtain ⟨s, hs⟩ := h.names entry hentry
  rw [hs]
  rfl

namespace Strategy

variable {host : Host} {value : Value}

/-- Data that may be meant as a strategy but does not refer to a module of the host. -/
structure IsDirect (value : Value) : Prop where
  data : value.IsData
  plain : ∀ s, value.asText? = some s → '#' ∉ s.toList

theorem isDirect_standard : IsDirect Strategy.standard.toValue := by
  refine ⟨.text _, fun s hs => ?_⟩
  obtain rfl := Option.some.inj hs
  decide

/-- A name that is no reference is looked up among the built-in styles. -/
theorem resolveName_of_not_mem {name : String} (h : '#' ∉ name.toList) :
    resolveName host name = style name name := by
  have hspan : name.toList.span (· != '#') = (name.toList, []) := by
    have hall : ∀ c ∈ name.toList, (c != '#') = true := by
      intro c hc
      rw [bne_iff_ne]
      rintro rfl
      exact h hc
    rw [List.span_eq_takeWhile_dropWhile, List.takeWhile_eq_self_iff.2 hall,
      List.dropWhile_eq_nil_iff.2 hall]
  rw [resolveName, hspan]

theorem onlyRefuses_style (name shown : String) : OnlyRefuses (style name shown) := by
  rw [style]
  split
  · exact .ok _
  · exact .refusal _

theorem exists_of_style {name shown : String} {f : Callable} (h : style name shown = .ok f) :
    ∃ found, f = .style found := by
  rw [style] at h
  split at h
  · exact ⟨_, (Except.ok.inj h).symm⟩
  · cases h

theorem onlyRefuses_ofValue (value : Value) : OnlyRefuses (ofValue value) := by
  unfold ofValue
  split
  · exact .ok _
  · split
    · exact .refusal _
    · exact .ok _
  · exact .refusal _
  · exact .refusal _

/-- Data that is no reference is read as the name of a strategy. -/
theorem IsDirect.named_of_ofValue (hvalue : IsDirect value) {strategy : Strategy}
    (h : ofValue value = .ok strategy) :
    ∃ name, strategy = .named name ∧ '#' ∉ name.toList := by
  obtain ⟨hdata, hplain⟩ := hvalue
  cases hdata with
  | text s =>
      simp only [ofValue] at h
      split at h
      · cases h
      · exact ⟨s, (Except.ok.inj h).symm, hplain s rfl⟩
  | _ => cases h

/-- As a strategy such data is refused or a built-in style. -/
theorem IsDirect.onlyRefuses_resolveValue (hvalue : IsDirect value) :
    OnlyRefuses (resolveValue host value) := by
  refine .bind (onlyRefuses_ofValue value) fun strategy hstrategy => ?_
  obtain ⟨name, rfl, hname⟩ := hvalue.named_of_ofValue hstrategy
  rw [resolve, resolveName_of_not_mem hname]
  exact .bind (onlyRefuses_style name name) fun f _ => .ok (named name, f)

theorem IsDirect.exists_of_resolveValue (hvalue : IsDirect value) {found : Strategy × Callable}
    (h : resolveValue host value = .ok found) :
    ∃ style, found.1.resolve host = .ok (.style style) := by
  obtain ⟨hstrategy, hresolve⟩ := resolveValue_eq_ok_iff.1 h
  obtain ⟨name, hnamed, hname⟩ := hvalue.named_of_ofValue hstrategy
  have hstyle := hresolve
  rw [hnamed, resolve, resolveName_of_not_mem hname] at hstyle
  obtain ⟨style, hfound⟩ := exists_of_style hstyle
  exact ⟨style, hfound ▸ hresolve⟩

end Strategy

namespace Convention

variable {host : Host} {value : Value}

/-- The texts that the value of a naming convention gives as strategies. -/
def strategyTexts : Value → List String
  | .text s => [s]
  | .mapping _ entries =>
    [NameCategory.typeNames, NameCategory.enumValues].filterMap fun category =>
      (Entries.named entries category.tag).asText?
  | _ => []

/-- Every strategy of a convention is a built-in style. -/
def IsBuiltin (host : Host) (convention : Convention) : Prop :=
  ∀ category, ∃ style, (convention.strategyOf category).resolve host = .ok (.style style)

section Parts

variable {typeNames enumValues : Value}

theorem onlyRefuses_ofParts (htypes : Strategy.IsDirect typeNames)
    (henums : Strategy.IsDirect enumValues) (transformUnderscore : Value) :
    OnlyRefuses (ofParts host typeNames enumValues transformUnderscore) := by
  refine .bind htypes.onlyRefuses_resolveValue fun first _ => ?_
  exact .bind henums.onlyRefuses_resolveValue fun second _ => .ok _

theorem isBuiltin_of_ofParts (htypes : Strategy.IsDirect typeNames)
    (henums : Strategy.IsDirect enumValues) {transformUnderscore : Value}
    {convention : Convention}
    (h : ofParts host typeNames enumValues transformUnderscore = .ok convention) :
    convention.IsBuiltin host := by
  obtain ⟨first, second, hfirst, hsecond, rfl⟩ := ofParts_eq_ok_iff.1 h
  intro category
  cases category with
  | typeNames => exact htypes.exists_of_resolveValue hfirst
  | enumValues => exact henums.exists_of_resolveValue hsecond

end Parts

section Mappings

variable {entries : Entries}

/-- The strategy of a category in a mapping of data without references. -/
theorem isDirect_of_entries {frozen : Bool} (hentries : ∀ entry ∈ entries, entry.2.IsData)
    (hplain : ∀ s ∈ strategyTexts (.mapping frozen entries), '#' ∉ s.toList)
    (category : NameCategory) :
    Strategy.IsDirect ((Entries.named entries category.tag).orElse Strategy.standard.toValue) := by
  have hdata : (Entries.named entries category.tag).IsData := Entries.getD_of hentries _ .null
  refine Value.orElse_of ⟨hdata, fun s hs => ?_⟩ Strategy.isDirect_standard
  apply hplain
  rw [strategyTexts, List.mem_filterMap]
  exact ⟨category, by cases category <;> simp, hs⟩

theorem onlyRefuses_ofEntries (hkeys : Table.AreNamed entries)
    (hparts : ∀ category : NameCategory, Strategy.IsDirect
      ((Entries.named entries category.tag).orElse Strategy.standard.toValue)) :
    OnlyRefuses (ofEntries host entries) := by
  simp only [ofEntries]
  split
  · rename_i hsorted
    refine absurd hsorted (Value.sorted?_ne_none fun key hkey => ?_)
    obtain ⟨entry, hentry, rfl⟩ := List.mem_map.1 (List.mem_filter.1 hkey).1
    exact hkeys.isLayer.texts entry hentry
  · exact .refusal _
  · refine .bind (Setting.onlyRefuses_boolean _ _) fun transformUnderscore _ => ?_
    exact onlyRefuses_ofParts (hparts .typeNames) (hparts .enumValues) _

theorem isBuiltin_of_ofEntries {convention : Convention}
    (hparts : ∀ category : NameCategory, Strategy.IsDirect
      ((Entries.named entries category.tag).orElse Strategy.standard.toValue))
    (h : ofEntries host entries = .ok convention) : convention.IsBuiltin host := by
  obtain ⟨transformUnderscore, h⟩ := ofParts_of_ofEntries h
  exact isBuiltin_of_ofParts (hparts .typeNames) (hparts .enumValues) h

end Mappings

theorem isDirect_text {s : String} (h : '#' ∉ s.toList) : Strategy.IsDirect (.text s) :=
  ⟨.text s, fun _ ht => Option.some.inj ht ▸ h⟩

/-- Data without references is refused as a naming convention or read as one of built-in styles. -/
theorem onlyRefuses_ofValue (hvalue : value.IsData)
    (hplain : ∀ s ∈ strategyTexts value, '#' ∉ s.toList) : OnlyRefuses (ofValue host value) := by
  cases hvalue with
  | text s =>
      have hdirect := isDirect_text (hplain s (List.mem_singleton_self s))
      exact onlyRefuses_ofParts hdirect hdirect _
  | mapping hkeys hentries =>
      exact onlyRefuses_ofEntries hkeys (isDirect_of_entries hentries hplain)
  | _ => exact .refusal _

theorem isBuiltin_of_ofValue (hvalue : value.IsData)
    (hplain : ∀ s ∈ strategyTexts value, '#' ∉ s.toList) {convention : Convention}
    (h : ofValue host value = .ok convention) : convention.IsBuiltin host := by
  cases hvalue with
  | text s =>
      have hdirect := isDirect_text (hplain s (List.mem_singleton_self s))
      exact isBuiltin_of_ofParts hdirect hdirect h
  | mapping hkeys hentries => exact isBuiltin_of_ofEntries (isDirect_of_entries hentries hplain) h
  | _ => cases h

end Convention

namespace Namer

variable {host : Host} {c : Configuration} {namer : Namer}

/-- A namer that has a name for every source, whatever is asked of it, except that it refuses to
name as an operation what is none. -/
structure Serves (host : Host) (namer : Namer) : Prop where
  identifier : ∀ source options, ∃ s, namer.identifier host source options = .ok s
  fragmentName : ∀ source, ∃ s, namer.fragmentName host source = .ok s
  fragmentVariableName : ∀ source, ∃ s, namer.fragmentVariableName host source = .ok s
  name : ∀ source use, use ≠ .operation → ∃ name, namer.name host source use = .ok name
  operation : ∀ source, isOperationDefinition source = false →
    namer.name host source .operation = .error (.config .notOperationDefinition)

/-- Under built-in styles there is a name for everything. -/
theorem serves_of_isBuiltin (hbuiltin : c.convention.IsBuiltin host)
    (hnamer : ofConfiguration host c = .ok namer) : namer.Serves host := by
  have hidentifier (source : NameSource) (options : NameOptions) :
      ∃ s, namer.identifier host source options = .ok s := by
    obtain ⟨style, hstyle⟩ := hbuiltin (options.category.getD source.category)
    exact ⟨_, identifier_of_style hnamer rfl hstyle⟩
  constructor
  case identifier => exact hidentifier
  case fragmentName => exact fun source => hidentifier source _
  case fragmentVariableName => exact fun source => hidentifier source _
  case name =>
    intro source use huse
    have hnamed {value : Except Fault String} (hvalue : ∃ s, value = .ok s) :
        ∃ name, (value >>= fun s => pure ⟨s, use⟩ : Except Fault Name) = .ok name := by
      obtain ⟨s, hs⟩ := hvalue
      exact ⟨⟨s, use⟩, bind_eq_ok_iff.2 ⟨s, hs, rfl⟩⟩
    cases use with
    | operation => exact absurd rfl huse
    | type | enumValue | fragment | fragmentVariable => exact hnamed (hidentifier source _)
  case operation =>
    intro source hsource
    rw [name, hsource]
    rfl

end Namer

namespace Configuration

theorem onlyRefuses_merged (raw overrides : Value) :
    OnlyRefuses (Layers.merged (.mapping true Layers.standardDefaults) raw overrides) := by
  have hentries (layer : Value) : OnlyRefuses (Layers.entries layer) := by
    rw [Layers.entries]
    split
    · exact .ok _
    · exact .refusal _
  refine .bind (hentries _) fun first _ => ?_
  refine .bind (hentries _) fun second _ => ?_
  exact .bind (hentries _) fun third _ => .ok _

/-- No text that the layers settle on as a strategy refers to a module of the host. -/
def WithoutReferences (raw overrides : Value) : Prop :=
  ∀ merged, Layers.merged (.mapping true Layers.standardDefaults) raw overrides = .ok merged →
    ∀ s ∈ Convention.strategyTexts (Entries.named merged "namingConvention"), '#' ∉ s.toList

section Data

variable {host : Host} {raw overrides : Value} {upper lower : Entries}

/-- The layers that data comes to, and the value of the naming convention in them. -/
theorem layers_of_isData (hraw : raw.IsData) (hoverrides : overrides.IsData)
    (hplain : WithoutReferences raw overrides)
    (hlower : Layers.entries (Layers.orEmpty raw) = .ok lower)
    (hupper : Layers.entries (Layers.orEmpty overrides) = .ok upper) :
    lower.IsLayer ∧ upper.IsLayer ∧ (SettingKey.namingConvention.effective upper lower).IsData ∧
      ∀ s ∈ Convention.strategyTexts (SettingKey.namingConvention.effective upper lower),
        '#' ∉ s.toList := by
  obtain ⟨hlowerKeys, hlowerData⟩ := hraw.of_entries hlower
  obtain ⟨hupperKeys, hupperData⟩ := hoverrides.of_entries hupper
  have hnamed := Resolve.named_merged hupperKeys.distinct hlowerKeys.distinct .namingConvention
  refine ⟨hlowerKeys.isLayer, hupperKeys.isLayer, ?_, ?_⟩
  · exact SettingKey.effective_of hupperData hlowerData .null (.text _)
  · rw [← hnamed]
    exact hplain _ (Layers.merged_standard hlower hupper)

/-- Data without references is refused or resolved. -/
theorem onlyRefuses_resolve (host : Host) (hraw : raw.IsData) (hoverrides : overrides.IsData)
    (hplain : WithoutReferences raw overrides) :
    OnlyRefuses (resolve host raw overrides).outcome := by
  cases hmerged : Layers.merged (.mapping true Layers.standardDefaults) raw overrides with
  | error fault =>
      obtain ⟨cause, rfl⟩ := onlyRefuses_merged raw overrides fault hmerged
      rw [resolve, Resolve.outcome_run, Resolve.settle, hmerged]
      exact .refusal cause
  | ok merged =>
      obtain ⟨upper, hupper, hrest⟩ := bind_eq_ok_iff.1 hmerged
      obtain ⟨lower, hlower, -⟩ := bind_eq_ok_iff.1 hrest
      obtain ⟨hlowerKeys, hupperKeys, hdata, hnames⟩ :=
        layers_of_isData hraw hoverrides hplain hlower hupper
      have hread (key : SettingKey) : OnlyRefuses (key.read host (key.effective upper lower)) := by
        by_cases hkey : key = .namingConvention
        · subst hkey
          exact .map (Convention.onlyRefuses_ofValue hdata hnames) _
        · exact SettingKey.onlyRefuses_read host hkey _
      have hexclusion : OnlyRefuses (Resolve.exclusion
          (Layers.union [upper, lower, Layers.standardDefaults]) raw overrides) := by
        rcases Resolve.exclusion_eq hlower hupper with ⟨h, -⟩ | ⟨h, -⟩
        · rw [h]
          exact .ok _
        · rw [h]
          exact .refusal _
      rw [onlyRefuses_iff, Resolve.faultOf_resolve hlower hupper hlowerKeys hupperKeys]
      intro fault hfault
      rcases Option.or_eq_some_iff.1 hfault with hfault | ⟨-, hfault⟩
      · rcases Option.or_eq_some_iff.1 hfault with hfault | ⟨-, hfault⟩
        · exact onlyRefuses_iff.1 (hread .strictScalars) fault hfault
        · exact onlyRefuses_iff.1 hexclusion fault hfault
      · obtain ⟨key, -, hfault⟩ := List.exists_of_findSome?_eq_some hfault
        exact onlyRefuses_iff.1 (hread key) fault hfault

/-- What data without references resolves to is written in built-in styles. -/
theorem isBuiltin_of_resolve (hraw : raw.IsData) (hoverrides : overrides.IsData)
    (hplain : WithoutReferences raw overrides) {c : Configuration}
    (h : (resolve host raw overrides).outcome = .ok c) : c.convention.IsBuiltin host := by
  obtain ⟨upper, lower, -, hupper, hlower, -, -⟩ := Resolve.entries_of_run h
  obtain ⟨hlowerKeys, hupperKeys, hdata, hnames⟩ :=
    layers_of_isData hraw hoverrides hplain hlower hupper
  have hfield := Resolve.field_of_resolve hlower hupper hlowerKeys.distinct hupperKeys.distinct h
    .namingConvention
  obtain ⟨convention, hconvention, hvalue⟩ := map_eq_ok_iff.1 hfield
  obtain rfl : convention = c.convention := Convention.toValue_injective hvalue
  exact Convention.isBuiltin_of_ofValue hdata hnames hconvention

/-- Plain data whose strategies are no references is refused with a fault of the configuration, or
it is resolved. A configuration that it resolves to has no key twice in any object of its document,
so that its canonical text, which every document has, puts members in order by their keys alone;
there is a namer for it, and the namer serves every source. -/
theorem resolve_of_isData (host : Host) (hraw : raw.IsData) (hoverrides : overrides.IsData)
    (hplain : WithoutReferences raw overrides) :
    (∃ cause, (resolve host raw overrides).outcome = .error (.config cause)) ∨
      ∃ c, (resolve host raw overrides).outcome = .ok c ∧ c.document.Tidy ∧
        ∃ namer, Namer.ofConfiguration host c = .ok namer ∧ namer.Serves host := by
  have hrefuses := onlyRefuses_resolve host hraw hoverrides hplain
  cases houtcome : (resolve host raw overrides).outcome with
  | error fault =>
      obtain ⟨cause, rfl⟩ := hrefuses fault houtcome
      exact .inl ⟨cause, rfl⟩
  | ok c =>
      have hbuiltin := isBuiltin_of_resolve hraw hoverrides hplain houtcome
      obtain ⟨namer, hnamer⟩ := Namer.exists_ofConfiguration fun category =>
        (hbuiltin category).imp' .style fun _ hstyle => hstyle
      exact .inr ⟨c, rfl, c.tidy_document, namer, hnamer, Namer.serves_of_isBuiltin hbuiltin hnamer⟩

/-- A layer with a strategy for enum values only, and a list that no default knows. -/
def enumLayer : Value :=
  .mapping false
    [(.text "namingConvention", .mapping false [(.text "enumValues", .text "pascalCase")]),
      (.text "plugin", .list [.null, .integer 7, .text "a#b"])]

/-- Such a layer is data, and a `#` elsewhere than in a strategy makes no reference. -/
theorem resolve_of_isData_enumLayer :
    enumLayer.IsData ∧ Value.IsData .null ∧ WithoutReferences enumLayer .null ∧
      ∃ c, (resolve Host.bare enumLayer .null).outcome = .ok c ∧
        c.extras = [(.text "plugin", .tuple [.null, .integer 7, .text "a#b"])] ∧
        ∃ namer, Namer.ofConfiguration Host.bare c = .ok namer ∧
          namer.name Host.bare (.text "user_id") .type = .ok ⟨"User_Id", .type⟩ ∧
          namer.Serves Host.bare := by
  have hconvention : Value.IsData (.mapping false [(.text "enumValues", .text "pascalCase")]) :=
    .mapping ⟨by simp, List.pairwise_singleton _ _⟩ (List.forall_mem_singleton.2 (.text _))
  have hlist : Value.IsData (.list [.null, .integer 7, .text "a#b"]) :=
    .list (List.forall_mem_cons.2 ⟨.null, List.forall_mem_cons.2
      ⟨.integer 7, List.forall_mem_singleton.2 (.text _)⟩⟩)
  have hlayer : enumLayer.IsData :=
    .mapping ⟨by simp, by decide⟩ (List.forall_mem_cons.2
      ⟨hconvention, List.forall_mem_singleton.2 hlist⟩)
  have hplain : WithoutReferences enumLayer .null := by
    intro merged hmerged
    obtain rfl := Except.ok.inj hmerged
    decide
  have hrun : ∃ c namer, (resolve Host.bare enumLayer .null).outcome = .ok c ∧
      c.extras = [(.text "plugin", .tuple [.null, .integer 7, .text "a#b"])] ∧
      Namer.ofConfiguration Host.bare c = .ok namer ∧
      namer.name Host.bare (.text "user_id") .type = .ok ⟨"User_Id", .type⟩ :=
    ⟨_, _, rfl, rfl, rfl, rfl⟩
  obtain ⟨c, namer, hc, hextras, hnamer, hname⟩ := hrun
  rcases resolve_of_isData Host.bare hlayer .null hplain with
    ⟨cause, hcause⟩ | ⟨d, hd, -, other, hother, hserves⟩
  · exact nomatch hc.symm.trans hcause
  · obtain rfl := Except.ok.inj (hc.symm.trans hd)
    obtain rfl := Except.ok.inj (hnamer.symm.trans hother)
    exact ⟨hlayer, .null, hplain, c, hc, hextras, namer, hnamer, hname, hserves⟩

end Data

end Configuration

end Nomenclature
