import Nomenclature.Proofs.NonMappings
import Nomenclature.Proofs.Readers

/-!
# Which external fragments are accepted

An external fragment was built before, or it is a mapping with a name whose settings may each stand
under two keys. A list of them is accepted exactly if each is well formed, and yields a fragment for
each, in order. One setting is no part of that: whatever stands where the path of an import should
is passed on as it is.
-/

namespace Nomenclature

namespace Entries

variable {entries : Entries} {name other : String}

/-- The first value that is set under one of two names. -/
def first? (entries : Entries) (name other : String) : Option Value :=
  [named entries name, named entries other].find? fun value => !value.isNull

theorem either_eq_getD_first? (otherwise : Value) :
    either entries name other otherwise = (first? entries name other).getD otherwise := by
  rw [either, Value.orElse, Value.orElse, first?]
  cases hfirst : (named entries name).isNull with
  | false => simp [hfirst]
  | true => cases hsecond : (named entries other).isNull <;> simp [hfirst, hsecond]

theorem isNull_of_first? {value : Value} (h : first? entries name other = some value) :
    value.isNull = false := by
  simpa using List.find?_some h

end Entries

theorem Value.isTruthy_of_asText? {value : Value} {s : String} (h : value.asText? = some s) :
    value.isTruthy = true ↔ s ≠ "" := by
  cases value with
  | text t =>
      obtain rfl : t = s := by simpa using h
      simp [isTruthy]
  | choice c =>
      obtain rfl : c.tag = s := Option.some.inj h
      exact iff_of_true rfl c.tag_ne_empty
  | _ => simp [asText?] at h

/-- A boolean, or a word that says one. -/
def Setting.Says (value : Value) (b : Bool) : Prop :=
  value = .boolean b ∨ ∃ s, value.asText? = some s ∧ booleanWord? s = some b

namespace ExternalFragment

/-- A value that is accepted as an external fragment: built before, or a mapping with a text as its
name that is not empty, and with a text and a boolean where a type and a flag are set. -/
inductive WellFormed : Value → Prop
  | built (name onType definition isExternal importFrom : Value) :
      WellFormed (.fragment name onType definition isExternal importFrom)
  | mapping {frozen : Bool} {entries : Entries} {name : String}
      (hname : (Entries.named entries "name").asText? = some name) (hwritten : name ≠ "")
      (honType : ∀ value, Entries.first? entries "onType" "on_type" = some value →
        ∃ s, value.asText? = some s)
      (hisExternal : ∀ value, Entries.first? entries "isExternal" "is_external" = some value →
        ∃ b, Setting.Says value b) :
      WellFormed (.mapping frozen entries)

/-- A value that is listed as an external fragment, and the fragment. -/
inductive From : Value → ExternalFragment → Prop
  | built (name onType definition isExternal importFrom : Value) :
      From (.fragment name onType definition isExternal importFrom)
        ⟨name, onType, definition, isExternal, importFrom⟩
  | mapping {frozen : Bool} {entries : Entries} {name onType : String} {isExternal : Bool}
      (hname : (Entries.named entries "name").asText? = some name) (hwritten : name ≠ "")
      (honType : ((Entries.first? entries "onType" "on_type").getD (.text "")).asText? =
        some onType)
      (hisExternal : Setting.Says
        ((Entries.first? entries "isExternal" "is_external").getD (.boolean false)) isExternal) :
      From (.mapping frozen entries)
        ⟨.text name, .text onType, Entries.named entries "node", .boolean isExternal,
          (Entries.first? entries "importFrom" "import_from").getD .null⟩

/-- Where a default passes, what passes is a value that does, if there is one. -/
theorem exists_getD_iff {α : Type} {P : Value → α → Prop} {otherwise : Value}
    (hotherwise : ∃ a, P otherwise a) (set? : Option Value) :
    (∃ a, P (set?.getD otherwise) a) ↔ ∀ value, set? = some value → ∃ a, P value a := by
  cases set? <;> simp [hotherwise]

theorem exists_from_iff (item : Value) : (∃ fragment, From item fragment) ↔ WellFormed item := by
  have honType (entries : Entries) :
      (∃ s, ((Entries.first? entries "onType" "on_type").getD (.text "")).asText? = some s) ↔ _ :=
    exists_getD_iff (P := fun value s => value.asText? = some s) ⟨"", rfl⟩ _
  have hisExternal (entries : Entries) :
      (∃ b, Setting.Says
        ((Entries.first? entries "isExternal" "is_external").getD (.boolean false)) b) ↔ _ :=
    exists_getD_iff ⟨false, .inl rfl⟩ _
  constructor
  · rintro ⟨fragment, h⟩
    cases h with
    | built => exact .built ..
    | mapping hname hwritten hon hexternal =>
        exact .mapping hname hwritten ((honType _).1 ⟨_, hon⟩) ((hisExternal _).1 ⟨_, hexternal⟩)
  · intro h
    cases h with
    | built => exact ⟨_, .built ..⟩
    | mapping hname hwritten hon hexternal =>
        obtain ⟨onType, hon⟩ := (honType _).2 hon
        obtain ⟨isExternal, hexternal⟩ := (hisExternal _).2 hexternal
        exact ⟨_, .mapping hname hwritten hon hexternal⟩

theorem ofEntries_eq_ok_iff {entries : Entries} {path : String} {fragment : ExternalFragment} :
    ofEntries entries path = .ok fragment ↔ ∃ name onType isExternal,
      (Entries.named entries "name").asText? = some name ∧
        ((Entries.first? entries "onType" "on_type").getD (.text "")).asText? = some onType ∧
          Setting.Says
            ((Entries.first? entries "isExternal" "is_external").getD (.boolean false))
            isExternal ∧
          fragment = ⟨.text name, .text onType, Entries.named entries "node",
            .boolean isExternal,
            (Entries.first? entries "importFrom" "import_from").getD .null⟩ := by
  simp only [ofEntries, bind_eq_ok_iff, Setting.text_eq_ok_iff, Setting.boolean_eq_ok_iff,
    Entries.either_eq_getD_first?]
  constructor
  · rintro ⟨name, hname, onType, honType, isExternal, hisExternal, h⟩
    exact ⟨name, onType, isExternal, hname, honType, hisExternal, (Except.ok.inj h).symm⟩
  · rintro ⟨name, onType, isExternal, hname, honType, hisExternal, rfl⟩
    exact ⟨name, hname, onType, honType, isExternal, hisExternal, rfl⟩

theorem ofValue_eq_ok_iff (item : Value) (path : String) (fragment : ExternalFragment) :
    ofValue item path = .ok fragment ↔ From item fragment := by
  constructor
  · intro h
    cases item with
    | fragment name onType definition isExternal importFrom =>
        obtain rfl := Except.ok.inj h
        exact .built ..
    | mapping frozen entries =>
        rw [ofValue] at h
        split at h
        · rename_i htruthy
          obtain ⟨name, onType, isExternal, hname, honType, hisExternal, rfl⟩ :=
            ofEntries_eq_ok_iff.1 h
          exact .mapping hname ((Value.isTruthy_of_asText? hname).1 htruthy) honType hisExternal
        · cases h
    | _ => cases h
  · intro h
    cases h with
    | built => rfl
    | mapping hname hwritten honType hisExternal =>
        rw [ofValue, if_pos ((Value.isTruthy_of_asText? hname).2 hwritten)]
        exact ofEntries_eq_ok_iff.2 ⟨_, _, _, hname, honType, hisExternal, rfl⟩

/-- What is given as the path to import a fragment from, if anything is. -/
def source? : Value → Option Value
  | .fragment _ _ _ _ importFrom => if importFrom.isNull then none else some importFrom
  | .mapping _ entries => Entries.first? entries "importFrom" "import_from"
  | _ => none

theorem From.importFrom_eq {item : Value} {fragment : ExternalFragment} (h : From item fragment) :
    fragment.importFrom = (source? item).getD .null := by
  cases h with
  | built name onType definition isExternal importFrom => cases importFrom <;> rfl
  | mapping => rfl

theorem isNull_of_source? {item value : Value} (h : source? item = some value) :
    value.isNull = false := by
  cases item with
  | fragment name onType definition isExternal importFrom =>
      rw [source?] at h
      split at h
      · cases h
      · rename_i hset
        obtain rfl := Option.some.inj h
        simpa using hset
  | mapping frozen entries => exact Entries.isNull_of_first? h
  | _ => cases h

/-- A fragment is imported from a text or from nowhere exactly if what is given there is a text. -/
theorem From.importFrom_iff {item : Value} {fragment : ExternalFragment} (h : From item fragment) :
    (fragment.importFrom.isNull = true ∨ ∃ s, fragment.importFrom.asText? = some s) ↔
      ∀ value, source? item = some value → ∃ s, value.asText? = some s := by
  rw [h.importFrom_eq]
  cases hsource : source? item with
  | none => simp [Value.isNull]
  | some value => simp [isNull_of_source? hsource]

end ExternalFragment

namespace Resolve

variable {host : Host} {defaults raw overrides : Value} {merged : Entries} {key : SettingKey}

/-- Every step of a resolution passes but, perhaps, the one that reads a key. -/
structure PassesBut (host : Host) (defaults raw overrides : Value) (merged : Entries)
    (key : SettingKey) : Prop where
  others : ∀ other, other ≠ key → ∃ field, readKey host merged other = .ok field
  exclusion : exclusion merged raw overrides = .ok .null
  ordering : ordering defaults merged = .ok .null

/-- If all other steps pass, the fault of a resolution is that of the step that reads the key. -/
theorem PassesBut.faultOf_run (h : PassesBut host defaults raw overrides merged key)
    (hmerged : Layers.merged defaults raw overrides = .ok merged) :
    faultOf (run host defaults raw overrides).outcome = faultOf (readKey host merged key) := by
  have hsteps : ∀ step ∈ steps host defaults raw overrides merged,
      faultOf step = none ∨ faultOf step = faultOf (readKey host merged key) := by
    have hkey (other : SettingKey) : faultOf (readKey host merged other) = none ∨
        faultOf (readKey host merged other) = faultOf (readKey host merged key) := by
      by_cases hother : other = key
      · exact .inr (by rw [hother])
      · exact .inl (faultOf_eq_none_iff.2 (h.others other hother))
    simp only [steps, List.forall_mem_cons, List.forall_mem_map]
    refine ⟨hkey _, .inl ?_, hkey _, .inl ?_, fun other _ => hkey other⟩
    · rw [h.exclusion, faultOf_ok]
    · rw [h.ordering, faultOf_ok]
  rw [Resolve.faultOf_run hmerged]
  -- Whichever step is the first to fail, its fault is that of the key.
  cases hfound : (steps host defaults raw overrides merged).findSome? faultOf with
  | none =>
      rw [List.findSome?_eq_none_iff] at hfound
      exact (hfound _ (readKey_mem_steps key)).symm
  | some fault =>
      obtain ⟨step, hstep, hfault⟩ := List.exists_of_findSome?_eq_some hfound
      rcases hsteps step hstep with hnone | hsame
      · simp [hnone] at hfault
      · rw [← hsame, hfault]

theorem readKey_externalFragments (host : Host) {listed : List Value}
    (hlisted : (Entries.named merged SettingKey.externalFragments.name).asItems? = some listed) :
    readKey host merged .externalFragments =
      (Setting.items ExternalFragment.ofValue SettingKey.externalFragments.name 0 listed).map
        fun fragments => .tuple (fragments.map ExternalFragment.toValue) := by
  rw [Entries.named, Entries.getD] at hlisted
  cases hlookup : Table.lookup? merged (.text SettingKey.externalFragments.name) with
  | none => simp [hlookup, Value.asItems?] at hlisted
  | some value =>
      rw [hlookup, Option.getD_some] at hlisted
      rw [readKey, setting_eq_ok_iff.2 hlookup]
      change (Setting.list value SettingKey.externalFragments.name >>= _) = _
      rw [Setting.list_eq_ok_iff.2 hlisted]
      rfl

/-- If all else passes, a list of external fragments is accepted exactly if each of them is well
formed, and otherwise the resolution is refused. What is accepted yields a fragment for each, in
order. The paths to import them from are not looked at: they are texts, where there are any, only if
what is given for them is. -/
theorem run_externalFragments {listed : List Value}
    (hmerged : Layers.merged defaults raw overrides = .ok merged)
    (hothers : PassesBut host defaults raw overrides merged .externalFragments)
    (hlisted : (Entries.named merged SettingKey.externalFragments.name).asItems? = some listed) :
    ((∃ c, (run host defaults raw overrides).outcome = .ok c) ↔
        ∀ item ∈ listed, ExternalFragment.WellFormed item) ∧
      ((∃ item ∈ listed, ¬ ExternalFragment.WellFormed item) →
        ∃ cause, (run host defaults raw overrides).outcome = .error (.config cause)) ∧
      ∀ c, (run host defaults raw overrides).outcome = .ok c →
        List.Forall₂ ExternalFragment.From listed c.externalFragments ∧
          ((∀ fragment ∈ c.externalFragments,
              fragment.importFrom.isNull = true ∨ ∃ s, fragment.importFrom.asText? = some s) ↔
            ∀ item ∈ listed, ∀ value, ExternalFragment.source? item = some value →
              ∃ s, value.asText? = some s) := by
  have hread := readKey_externalFragments host hlisted
  have hsucceeds : (∃ c, (run host defaults raw overrides).outcome = .ok c) ↔
      ∀ item ∈ listed, ExternalFragment.WellFormed item := by
    rw [← faultOf_eq_none_iff, hothers.faultOf_run hmerged, hread, faultOf_map,
      faultOf_eq_none_iff]
    simp only [Setting.items_eq_ok_iff ExternalFragment.ofValue_eq_ok_iff,
      exists_forall₂_iff, ExternalFragment.exists_from_iff]
  refine ⟨hsucceeds, ?_, fun c hc => ?_⟩
  · rintro ⟨item, hitem, hbad⟩
    cases hrun : (run host defaults raw overrides).outcome with
    | ok c => exact absurd (hsucceeds.1 ⟨c, hrun⟩ item hitem) hbad
    | error fault =>
        have hfault := hothers.faultOf_run hmerged
        rw [hrun, faultOf_error, hread, faultOf_map] at hfault
        obtain ⟨cause, rfl⟩ := onlyRefuses_iff.1 (Setting.onlyRefuses_items
          ExternalFragment.onlyRefuses_ofValue _ 0 listed) fault hfault.symm
        exact ⟨cause, rfl⟩
  · have hfield := ((run_eq_ok_iff hmerged c).1 hc).1 .externalFragments
    rw [hread] at hfield
    obtain ⟨fragments, hfragments, hvalue⟩ := map_eq_ok_iff.1 hfield
    obtain rfl : fragments = c.externalFragments :=
      List.map_injective_iff.2 ExternalFragment.toValue_injective (Value.tuple.inj hvalue)
    have hall := (Setting.items_eq_ok_iff ExternalFragment.ofValue_eq_ok_iff).1 hfragments
    exact ⟨hall, (forall_mem_iff_of_forall₂ hall fun _ _ h => h.importFrom_iff.symm).symm⟩

/-- Two fragments, one with its settings under their second keys and one with a number as the path
to import it from. -/
def listedFragments : List Value :=
  [.mapping false [(.text "name", .text "User"), (.text "onType", .null),
      (.text "on_type", .text "User"), (.text "is_external", .text "Yes")],
    .mapping false [(.text "name", .text "Post"), (.text "importFrom", .integer 5)]]

def fragmentsLayer : Value :=
  .mapping false [(.text "externalFragments", .list listedFragments)]

def fragmentsMerged : Entries :=
  Layers.union
    [[], [(.text "externalFragments", .list listedFragments)], Layers.standardDefaults]

/-- Both are accepted, and yield a fragment each. -/
theorem run_externalFragments_listed :
    Layers.merged (.mapping true Layers.standardDefaults) fragmentsLayer .null =
        .ok fragmentsMerged ∧
      PassesBut Host.bare (.mapping true Layers.standardDefaults) fragmentsLayer .null
        fragmentsMerged .externalFragments ∧
      (Entries.named fragmentsMerged SettingKey.externalFragments.name).asItems? =
        some listedFragments ∧
      ∃ c, (Configuration.resolve Host.bare fragmentsLayer .null).outcome = .ok c ∧
        List.Forall₂ ExternalFragment.From listedFragments c.externalFragments := by
  have hmerged : Layers.merged (.mapping true Layers.standardDefaults) fragmentsLayer .null =
      .ok fragmentsMerged := rfl
  have hothers : PassesBut Host.bare (.mapping true Layers.standardDefaults) fragmentsLayer .null
      fragmentsMerged .externalFragments := by
    refine ⟨fun other hother => ?_, rfl, rfl⟩
    cases other with
    | externalFragments => exact absurd rfl hother
    | _ => exact ⟨_, rfl⟩
  have hlisted : (Entries.named fragmentsMerged SettingKey.externalFragments.name).asItems? =
      some listedFragments := rfl
  obtain ⟨c, hc⟩ : ∃ c, (Configuration.resolve Host.bare fragmentsLayer .null).outcome = .ok c :=
    ⟨_, rfl⟩
  have hfragments := (run_externalFragments hmerged hothers hlisted).2.2 c hc
  exact ⟨hmerged, hothers, hlisted, c, hc, hfragments.1⟩

/-- A number is taken for the path to import a fragment from. -/
theorem exists_resolve_importFrom :
    ∃ c, (Configuration.resolve Host.bare
        (.mapping false [(.text "externalFragments", .list
          [.mapping false [(.text "name", .text "A"), (.text "importFrom", .integer 5)]])])
        .null).outcome = .ok c ∧
      c.externalFragments.map (·.importFrom) = [.integer 5] :=
  ⟨_, rfl, rfl⟩

end Resolve

end Nomenclature
