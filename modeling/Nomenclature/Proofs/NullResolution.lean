import Mathlib.Data.List.Forall2
import Nomenclature.Proofs.NullEntries

/-!
# Resolution without an entry that is null

Two layers that differ in the value of one key at most are merged into tables that do, over any
other layers. A resolution reads every other key alike, so it differs by what is read of that key
alone: it comes to the same where the key reads the same, and it fails as the key does where that is
refused. Hence an entry that is null, in the mappings inside a configuration, is either as good as
left out or refused.
-/

namespace Nomenclature

namespace Value

theorem isNull_without (name : String) (steps : List Step) (value : Value) :
    (value.without name steps).isNull = value.isNull := by
  cases steps with
  | nil => cases value <;> rfl
  | cons step rest => cases step <;> cases value <;> rfl

/-- Nothing stands in null. -/
theorem isNull_of_at? {value found : Value} {steps : List Step} {step : Step}
    (h : value.at? (steps ++ [step]) = some found) : value.isNull = false := by
  cases value with
  | null =>
      have hchild (step : Step) : null.child? step = none := by cases step <;> rfl
      cases steps <;> simp [at?, hchild] at h
  | _ => rfl

end Value

namespace Layers

/-- Entries of the same key that hold the same, unless the key is a given one. -/
structure DifferAt (name : String) (entry other : Value × Value) : Prop where
  key_eq : other.1 = entry.1
  isNull_eq : other.2.isNull = entry.2.isNull
  value_eq : entry.1.sameAs (.text name) = false → other.2 = entry.2

variable {name : String} {layer other : Entries} {f : Value → Value}

theorem DifferAt.refl (entry : Value × Value) : DifferAt name entry entry :=
  ⟨rfl, rfl, fun _ => rfl⟩

theorem DifferAt.forall₂_refl (layer : Entries) : List.Forall₂ (DifferAt name) layer layer :=
  List.forall₂_same.2 fun _ _ => .refl _

theorem forall₂_change (hf : ∀ value, (f value).isNull = value.isNull) (layer : Entries) :
    List.Forall₂ (DifferAt name) layer (Table.change f (.text name) layer) := by
  induction layer with
  | nil => exact .nil
  | cons entry rest ih =>
      rw [Table.change]
      split
      · rename_i hsame
        refine .cons ⟨rfl, hf entry.2, fun hother => ?_⟩ ?_
        · simp [hsame] at hother
        · exact DifferAt.forall₂_refl rest
      · exact .cons (.refl _) ih

theorem hasKey_eq_of_forall₂ (h : List.Forall₂ (DifferAt name) layer other) (key : Value) :
    Table.hasKey other key = Table.hasKey layer key := by
  induction h with
  | nil => rfl
  | @cons entry changed rest others hentry _ ih =>
      simp only [Table.hasKey, List.any_cons, hentry.key_eq] at ih ⊢
      rw [ih]

theorem forall₂_take {entry changed : Value × Value}
    (h : List.Forall₂ (DifferAt name) layer other) (hentry : DifferAt name entry changed) :
    List.Forall₂ (DifferAt name) (take layer entry) (take other changed) := by
  rw [take, take, hentry.key_eq, hentry.isNull_eq, hasKey_eq_of_forall₂ h]
  split
  · exact h
  · exact List.rel_append h (.cons hentry .nil)

/-- Merging keeps entries together that differ at one key at most. -/
theorem forall₂_union {layers others : List Entries}
    (h : List.Forall₂ (List.Forall₂ (DifferAt name)) layers others) :
    List.Forall₂ (DifferAt name) (union layers) (union others) := by
  refine List.rel_foldl (fun known known' hknown layer layer' hlayer => ?_) .nil h
  have htake (known known' : Entries) (hknown : List.Forall₂ (DifferAt name) known known')
      (entry entry' : Value × Value) (hentry : DifferAt name entry entry') :
      List.Forall₂ (DifferAt name) (take known entry) (take known' entry') :=
    forall₂_take hknown hentry
  exact List.rel_foldl htake hknown hlayer

theorem lookup?_eq_of_forall₂ (h : List.Forall₂ (DifferAt name) layer other) {key : String}
    (hkey : key ≠ name) :
    Table.lookup? other (.text key) = Table.lookup? layer (.text key) := by
  induction h with
  | nil => rfl
  | @cons entry changed rest others hentry _ ih =>
      rw [Table.lookup?_cons, Table.lookup?_cons, hentry.key_eq, ih]
      split
      · rename_i hsame
        have hother : entry.1.sameAs (.text name) = false := by
          rw [Value.sameAs_text] at hsame
          rw [← Bool.not_eq_true, Value.sameAs_text, hsame, Option.some.injEq]
          exact hkey
        rw [hentry.value_eq hother]
      · rfl

/-- What is picked out by its key is the same if the given key is not. -/
theorem filter_eq_of_forall₂ (h : List.Forall₂ (DifferAt name) layer other) {p : Value → Bool}
    (hp : ∀ key : Value, key.sameAs (.text name) = true → p key = false) :
    other.filter (fun entry => p entry.1) = layer.filter fun entry => p entry.1 := by
  induction h with
  | nil => rfl
  | @cons entry changed rest others hentry _ ih =>
      rw [List.filter_cons, List.filter_cons, hentry.key_eq, ih]
      cases hsame : entry.1.sameAs (.text name) with
      | true => rw [hp entry.1 hsame]; rfl
      | false => rw [Prod.ext hentry.key_eq (hentry.value_eq hsame)]

/-- A layer is a mapping that sets a key. -/
def Decides (layer : Value) (name : String) : Prop :=
  ∃ held value, layer.asEntries? = some held ∧ set? held (.text name) = some value

theorem decides_iff {layer : Value} {held : Entries} (h : entries (orEmpty layer) = .ok held) :
    Decides layer name ↔ ∃ value, set? held (.text name) = some value := by
  constructor
  · rintro ⟨found, value, hfound, hset⟩
    rw [entries_of_asEntries? hfound] at h
    obtain rfl := Except.ok.inj h
    exact ⟨value, hset⟩
  · rintro ⟨value, hset⟩
    rcases asEntries?_of_orEmpty h with hheld | rfl
    · exact ⟨held, value, hheld, hset⟩
    · cases hset

/-- A layer sets under a key what stands first there, if that is not null. -/
theorem set?_of_lookup? {value : Value} (h : Table.lookup? layer (.text name) = some value)
    (hset : value.isNull = false) : set? layer (.text name) = some value := by
  induction layer with
  | nil => cases h
  | cons entry rest ih =>
      rw [Table.lookup?_cons] at h
      rw [set?_cons]
      split at h
      · rename_i hsame
        obtain rfl := Option.some.inj h
        simp [hsame, hset]
      · rename_i hsame
        simpa [hsame] using ih h

end Layers

theorem failsOr_iff_faultOf {α : Type} {cause : ConfigFault} {step other : Except Fault α} :
    FailsOr cause step other ↔
      ∃ fault, faultOf step = some fault ∧
        (fault = .config cause ∨ faultOf other = some fault) := by
  simp only [faultOf_eq_some_iff, FailsOr]

/-- Of steps that come to the same, or fail by a cause or as the others do, the first that fails
does so by the cause or as the first of the others. -/
theorem findSome?_of_forall₂ {α : Type} {cause : ConfigFault} {steps others : List (Except Fault α)}
    (h : List.Forall₂ (fun step other => other = step ∨ FailsOr cause step other) steps others)
    (hfails : ∃ step ∈ steps, faultOf step ≠ none) :
    ∃ fault, steps.findSome? faultOf = some fault ∧
      (fault = .config cause ∨ others.findSome? faultOf = some fault) := by
  induction h with
  | nil => simp at hfails
  | @cons step other rest others hstep _ ih =>
      rw [List.findSome?_cons, List.findSome?_cons]
      -- Steps that come to the same lead on to the rest; the others settle the matter.
      rcases hstep with rfl | hstep
      · cases hfault : faultOf other with
        | some fault => exact ⟨fault, rfl, .inr rfl⟩
        | none =>
            apply ih
            simpa [hfault] using hfails
      · obtain ⟨fault, hfault, hother⟩ := failsOr_iff_faultOf.1 hstep
        refine ⟨fault, by rw [hfault], hother.imp_right fun hother => ?_⟩
        rw [hother]

namespace Resolve

variable {host : Host} {defaults raw overrides raw' overrides' : Value} {merged merged' : Entries}
  {key : SettingKey}

/-- Two resolutions of which all steps come to the same but, perhaps, the one that reads a key. -/
structure AlikeBut (host : Host) (defaults raw overrides raw' overrides' : Value)
    (merged merged' : Entries) (key : SettingKey) : Prop where
  merged_eq : Layers.merged defaults raw overrides = .ok merged
  merged_eq' : Layers.merged defaults raw' overrides' = .ok merged'
  readKey_eq : ∀ other, other ≠ key → readKey host merged' other = readKey host merged other
  exclusion_eq : exclusion merged' raw' overrides' = exclusion merged raw overrides
  extras_eq : extras defaults merged' = extras defaults merged

namespace AlikeBut

theorem ordering_eq (h : AlikeBut host defaults raw overrides raw' overrides' merged merged' key) :
    ordering defaults merged' = ordering defaults merged := by
  rw [ordering, ordering, h.extras_eq]

/-- If the key reads the same as well, they come to the same. -/
theorem outcome_eq (h : AlikeBut host defaults raw overrides raw' overrides' merged merged' key)
    (hkey : readKey host merged' key = readKey host merged key) :
    (run host defaults raw' overrides').outcome = (run host defaults raw overrides).outcome := by
  have hread (other : SettingKey) : readKey host merged' other = readKey host merged other := by
    by_cases hother : other = key
    · rw [hother, hkey]
    · exact h.readKey_eq other hother
  -- A configuration is told by all that the steps read, a fault by the first step that fails.
  cases hrun : (run host defaults raw overrides).outcome with
  | ok c =>
      rw [run_eq_ok_iff h.merged_eq] at hrun
      rw [run_eq_ok_iff h.merged_eq']
      simpa only [hread, h.exclusion_eq, h.ordering_eq, h.extras_eq] using hrun
  | error fault =>
      have hsteps : steps host defaults raw' overrides' merged' =
          steps host defaults raw overrides merged := by
        simp only [steps, hread, h.exclusion_eq, h.ordering_eq, funext hread]
      have hfault : faultOf (run host defaults raw' overrides').outcome = _ :=
        faultOf_run h.merged_eq'
      rw [hsteps, ← faultOf_run h.merged_eq, hrun, faultOf_error] at hfault
      cases hrun' : (run host defaults raw' overrides').outcome with
      | ok c => simp [hrun'] at hfault
      | error found =>
          obtain rfl : found = fault := by simpa [hrun'] using hfault
          rfl

/-- If the key is refused, or fails as it does in the other one, so does the whole. -/
theorem failsOr_outcome
    (h : AlikeBut host defaults raw overrides raw' overrides' merged merged' key)
    {cause : ConfigFault}
    (hkey : FailsOr cause (readKey host merged key) (readKey host merged' key)) :
    FailsOr cause (run host defaults raw overrides).outcome
      (run host defaults raw' overrides').outcome := by
  have hread (other : SettingKey) : readKey host merged' other = readKey host merged other ∨
      FailsOr cause (readKey host merged other) (readKey host merged' other) := by
    by_cases hother : other = key
    · exact .inr (hother ▸ hkey)
    · exact .inl (h.readKey_eq other hother)
  have hlater : List.Forall₂ (fun step other => other = step ∨ FailsOr cause step other)
      (SettingKey.later.map (readKey host merged))
      (SettingKey.later.map (readKey host merged')) := by
    rw [List.forall₂_map_left_iff, List.forall₂_map_right_iff, List.forall₂_same]
    exact fun other _ => hread other
  have hsteps : List.Forall₂ (fun step other => other = step ∨ FailsOr cause step other)
      (steps host defaults raw overrides merged) (steps host defaults raw' overrides' merged') :=
    .cons (hread _) (.cons (.inl h.exclusion_eq) (.cons (hread _)
      (.cons (.inl h.ordering_eq) hlater)))
  have hfails : ∃ step ∈ steps host defaults raw overrides merged, faultOf step ≠ none := by
    obtain ⟨fault, hfault, -⟩ := failsOr_iff_faultOf.1 hkey
    exact ⟨_, readKey_mem_steps key, by simp [hfault]⟩
  rw [failsOr_iff_faultOf, faultOf_run h.merged_eq, faultOf_run h.merged_eq']
  exact findSome?_of_forall₂ hsteps hfails

end AlikeBut

section

variable {frozen : Bool} {known upper lower upper' lower' held held' : Entries}
  {value value' : Value}

theorem sets_eq_of_forall₂ {layer layer' : Value}
    (hlayer : Layers.entries (Layers.orEmpty layer) = .ok lower)
    (hlayer' : Layers.entries (Layers.orEmpty layer') = .ok lower') {name other : String}
    (h : List.Forall₂ (Layers.DifferAt name) lower lower') (hother : other ≠ name) :
    Layers.sets layer' other = Layers.sets layer other := by
  rw [Layers.sets_eq hlayer, Layers.sets_eq hlayer', Entries.named, Entries.getD,
    Layers.lookup?_eq_of_forall₂ h hother, Entries.named, Entries.getD]

/-- Layers that differ at one key lead to resolutions that differ by what is read of it. -/
theorem alikeBut_of_forall₂ (hupper : Layers.entries (Layers.orEmpty overrides) = .ok upper)
    (hlower : Layers.entries (Layers.orEmpty raw) = .ok lower)
    (hupper' : Layers.entries (Layers.orEmpty overrides') = .ok upper')
    (hlower' : Layers.entries (Layers.orEmpty raw') = .ok lower')
    (huppers : List.Forall₂ (Layers.DifferAt key.name) upper upper')
    (hlowers : List.Forall₂ (Layers.DifferAt key.name) lower lower')
    (hknown : Table.hasKey known (.text key.name) = true)
    (hkey : key ∉ [.strictScalars, .defaultScalarType]) :
    AlikeBut host (.mapping frozen known) raw overrides raw' overrides'
      (Layers.union [upper, lower, known]) (Layers.union [upper', lower', known]) key := by
  have hmerged := Layers.forall₂_union
    (.cons huppers (.cons hlowers (.cons (Layers.DifferAt.forall₂_refl known) .nil)))
  simp only [List.mem_cons, List.not_mem_nil, or_false, not_or] at hkey
  have hlookup (other : SettingKey) (hother : other ≠ key) :
      Table.lookup? (Layers.union [upper', lower', known]) (.text other.name) =
        Table.lookup? (Layers.union [upper, lower, known]) (.text other.name) :=
    Layers.lookup?_eq_of_forall₂ hmerged fun h => hother (SettingKey.name_injective h)
  constructor
  case merged_eq => exact Layers.merged_mapping hlower hupper frozen known
  case merged_eq' => exact Layers.merged_mapping hlower' hupper' frozen known
  case readKey_eq =>
    intro other hother
    rw [readKey, readKey, setting, setting, hlookup other hother]
  case exclusion_eq =>
    have hstrict := hlookup .strictScalars (Ne.symm hkey.1)
    have hdefault : key.name ≠ SettingKey.defaultScalarType.name := fun h =>
      hkey.2 (SettingKey.name_injective h)
    have hname : "defaultScalarType" ≠ key.name := hdefault.symm
    rw [SettingKey.name] at hstrict
    rw [exclusion, exclusion, booleanSetting, booleanSetting, setting, setting, hstrict,
      sets_eq_of_forall₂ hlower hlower' hlowers hname,
      sets_eq_of_forall₂ hupper hupper' huppers hname]
  case extras_eq =>
    refine Layers.filter_eq_of_forall₂ hmerged (p := fun key => !Table.hasKey known key) ?_
    intro other hother
    rw [Table.hasKey_congr hother, hknown]
    rfl

theorem readKey_of_upper
    (hset : Layers.set? upper (.text key.name) = some value) :
    readKey host (Layers.union [upper, lower, known]) key = key.read host value := by
  rw [readKey, setting, Layers.lookup?_union, List.findSome?_cons, hset]
  rfl

theorem readKey_of_lower
    (hunset : ¬ ∃ found, Layers.set? upper (.text key.name) = some found)
    (hset : Layers.set? lower (.text key.name) = some value) :
    readKey host (Layers.union [upper, lower, known]) key = key.read host value := by
  have hnone : Layers.set? upper (.text key.name) = none := by
    simpa [Option.eq_none_iff_forall_ne_some] using hunset
  rw [readKey, setting, Layers.lookup?_union, List.findSome?_cons, hnone, List.findSome?_cons, hset]
  rfl

theorem run_of_entries_eq_error {layer : Value} {fault : Fault}
    (hlayer : Layers.entries (Layers.orEmpty layer) = .error fault) (frozen' : Bool)
    (held : Entries) :
    run host (.mapping frozen known) (.mapping frozen' held) layer = ⟨[], .error fault⟩ ∧
      run host (.mapping frozen known) layer (.mapping frozen' held) = ⟨[], .error fault⟩ := by
  constructor
  · apply run_of_merged_eq_error
    rw [Layers.merged, hlayer]
    rfl
  · apply run_of_merged_eq_error
    rw [Layers.merged, Layers.entries_mapping, hlayer]
    rfl

/-- Two forms of a layer that differ at a key, and the values that they set there. -/
structure Differ (key : SettingKey) (held held' : Entries) (value value' : Value) : Prop where
  entries : List.Forall₂ (Layers.DifferAt key.name) held held'
  set?_eq : Layers.set? held (.text key.name) = some value
  set?_eq' : Layers.set? held' (.text key.name) = some value'

/-- Two outcomes that are the same where two values of a key read the same, and of which the first
fails as the first value does. -/
structure Follows (host : Host) (key : SettingKey) (value value' : Value)
    (outcome outcome' : Except Fault Configuration) : Prop where
  eq_of_read_eq : key.read host value' = key.read host value → outcome' = outcome
  failsOr : ∀ cause, FailsOr cause (key.read host value) (key.read host value') →
    FailsOr cause outcome outcome'

theorem Follows.of_error (fault : Fault) :
    Follows host key value value' (.error fault) (.error fault) :=
  ⟨fun _ => rfl, fun _ _ => ⟨fault, rfl, .inr rfl⟩⟩

theorem AlikeBut.follows
    (h : AlikeBut host defaults raw overrides raw' overrides' merged merged' key)
    (hread : readKey host merged key = key.read host value)
    (hread' : readKey host merged' key = key.read host value') :
    Follows host key value value' (run host defaults raw overrides).outcome
      (run host defaults raw' overrides').outcome := by
  constructor
  case eq_of_read_eq =>
    intro hsame
    exact h.outcome_eq (by rw [hread, hread', hsame])
  case failsOr =>
    intro cause hfails
    rw [← hread, ← hread'] at hfails
    exact h.failsOr_outcome hfails

section

variable (h : Differ key held held' value value')
  (hknown : Table.hasKey known (.text key.name) = true)
  (hkey : key ∉ [.strictScalars, .defaultScalarType]) (host : Host) (frozen frozen' : Bool)

include h hknown hkey

theorem Differ.alikeBut_raw (hupper : Layers.entries (Layers.orEmpty overrides) = .ok upper) :
    AlikeBut host (.mapping frozen known) (.mapping frozen' held) overrides
      (.mapping frozen' held') overrides (Layers.union [upper, held, known])
        (Layers.union [upper, held', known]) key := by
  exact alikeBut_of_forall₂ hupper (Layers.entries_mapping frozen' held) hupper
    (Layers.entries_mapping frozen' held') (Layers.DifferAt.forall₂_refl upper) h.entries hknown
    hkey

/-- As overrides, the two forms come to what their values read as. -/
theorem Differ.follows_overrides (raw : Value) :
    Follows host key value value'
      (run host (.mapping frozen known) raw (.mapping frozen' held)).outcome
      (run host (.mapping frozen known) raw (.mapping frozen' held')).outcome := by
  cases hlower : Layers.entries (Layers.orEmpty raw) with
  | error fault =>
      rw [(run_of_entries_eq_error hlower frozen' held).2,
        (run_of_entries_eq_error hlower frozen' held').2]
      exact .of_error fault
  | ok lower =>
      have halike : AlikeBut host (.mapping frozen known) raw (.mapping frozen' held) raw
          (.mapping frozen' held') _ _ key :=
        alikeBut_of_forall₂ (Layers.entries_mapping frozen' held) hlower
          (Layers.entries_mapping frozen' held') hlower h.entries
          (Layers.DifferAt.forall₂_refl lower) hknown hkey
      exact halike.follows (readKey_of_upper h.set?_eq) (readKey_of_upper h.set?_eq')

/-- So they do as the raw configuration, unless the overrides set the key. -/
theorem Differ.follows_raw (hunset : ¬ Layers.Decides overrides key.name) :
    Follows host key value value'
      (run host (.mapping frozen known) (.mapping frozen' held) overrides).outcome
      (run host (.mapping frozen known) (.mapping frozen' held') overrides).outcome := by
  cases hupper : Layers.entries (Layers.orEmpty overrides) with
  | error fault =>
      rw [(run_of_entries_eq_error hupper frozen' held).1,
        (run_of_entries_eq_error hupper frozen' held').1]
      exact .of_error fault
  | ok upper =>
      rw [Layers.decides_iff hupper] at hunset
      exact (h.alikeBut_raw hknown hkey host frozen frozen' hupper).follows
        (readKey_of_lower hunset h.set?_eq) (readKey_of_lower hunset h.set?_eq')

/-- If the overrides set it, both come to the same. -/
theorem Differ.outcome_eq_of_decides (hset : Layers.Decides overrides key.name) :
    (run host (.mapping frozen known) (.mapping frozen' held') overrides).outcome =
      (run host (.mapping frozen known) (.mapping frozen' held) overrides).outcome := by
  obtain ⟨upper, found, hentries, hfound⟩ := hset
  have hupper := Layers.entries_of_asEntries? hentries
  apply (h.alikeBut_raw hknown hkey host frozen frozen' hupper).outcome_eq
  rw [readKey_of_upper hfound, readKey_of_upper hfound]

end

/-- A null at one of the places in a setting, in either of the layers over any defaults that know
the setting, is as good as left out or refused. It is as good as left out where it is not refused in
its setting, and where the overrides set that setting anew. Otherwise the resolution is refused for
it, or it fails before, as it does without it. -/
theorem run_without (host : Host) (frozen : Bool) {layer value : Value} {steps : List Value.Step}
    {name : String} (hplace : SettingKey.NullPlace key steps name)
    (hknown : Table.hasKey known (.text key.name) = true)
    (hvalue : layer.child? (.entry key.name) = some value)
    (hnull : value.at? (steps ++ [.entry name]) = some .null) :
    let lost := layer.without name (.entry key.name :: steps)
    let outcome raw overrides := (run host (.mapping frozen known) raw overrides).outcome
    ((∀ cause, ¬ SettingKey.RefusesNull value key steps name cause) → ∀ other,
        outcome lost other = outcome layer other ∧ outcome other lost = outcome other layer) ∧
      ∀ cause, SettingKey.RefusesNull value key steps name cause → ∀ other,
        (Layers.Decides other key.name → outcome lost other = outcome layer other) ∧
          (¬ Layers.Decides other key.name →
            FailsOr cause (outcome layer other) (outcome lost other)) ∧
          FailsOr cause (outcome other layer) (outcome other lost) := by
  obtain ⟨frozen', held, rfl, hentry⟩ := Value.child?_entry_eq_some_iff.1 hvalue
  obtain ⟨haccepted, hrefused⟩ := SettingKey.readsNull host hplace hnull
  have hkey : key ∉ [.strictScalars, .defaultScalarType] := by cases hplace <;> decide
  have hset : value.isNull = false := Value.isNull_of_at? hnull
  have hdiffer : Differ key held (Table.change (Value.without name steps) (.text key.name) held)
      value (value.without name steps) := by
    constructor
    case entries => exact Layers.forall₂_change (Value.isNull_without name steps) held
    case set?_eq => exact Layers.set?_of_lookup? hentry hset
    case set?_eq' =>
      apply Layers.set?_of_lookup?
      · rw [Table.lookup?_change_self, hentry, Option.map_some]
      · rw [Value.isNull_without, hset]
  have hoverrides := hdiffer.follows_overrides hknown hkey host frozen frozen'
  constructor
  · intro hall other
    have hread := haccepted hall
    refine ⟨?_, (hoverrides other).eq_of_read_eq hread⟩
    by_cases hdecides : Layers.Decides other key.name
    · exact hdiffer.outcome_eq_of_decides hknown hkey host frozen frozen' hdecides
    · exact (hdiffer.follows_raw hknown hkey host frozen frozen' hdecides).eq_of_read_eq hread
  · intro cause hcause other
    have hread := hrefused cause hcause
    refine ⟨fun hdecides => ?_, fun hdecides => ?_, (hoverrides other).failsOr cause hread⟩
    · exact hdiffer.outcome_eq_of_decides hknown hkey host frozen frozen' hdecides
    · exact (hdiffer.follows_raw hknown hkey host frozen frozen' hdecides).failsOr cause hread

end

/-- An import with a directory that is null, and with a path beside one in its nested section that
is null. -/
def unsetImports : Value :=
  .list [.mapping false [(.text "baseDir", .null), (.text "importPath", .text "./user"),
    (.text "importSource", .mapping false [(.text "path", .null)])]]

def unsetLayer : Value :=
  .mapping false [(.text "fragmentImports", unsetImports)]

/-- The null in the nested section is as good as left out, the directory is refused. -/
theorem run_without_unset :
    SettingKey.NullPlace .fragmentImports [.item 0, .entry "importSource"] "path" ∧
      SettingKey.NullPlace .fragmentImports [.item 0] "baseDir" ∧
      Table.hasKey Layers.standardDefaults (.text "fragmentImports") = true ∧
      unsetLayer.child? (.entry "fragmentImports") = some unsetImports ∧
      unsetImports.at? [.item 0, .entry "importSource", .entry "path"] = some .null ∧
      unsetImports.at? [.item 0, .entry "baseDir"] = some .null ∧
      (∀ cause, ¬ SettingKey.RefusesNull unsetImports .fragmentImports
        [.item 0, .entry "importSource"] "path" cause) ∧
      (Configuration.resolve Host.bare (unsetLayer.without "path"
          [.entry "fragmentImports", .item 0, .entry "importSource"]) .null).outcome =
        (Configuration.resolve Host.bare unsetLayer .null).outcome ∧
      FailsOr (.expected .text "fragmentImports.0.baseDir")
        (Configuration.resolve Host.bare .null unsetLayer).outcome
        (Configuration.resolve Host.bare .null (unsetLayer.without "baseDir"
          [.entry "fragmentImports", .item 0])).outcome := by
  have hpath : SettingKey.NullPlace .fragmentImports [.item 0, .entry "importSource"] "path" :=
    .nested 0 (by decide)
  have hdirectory : SettingKey.NullPlace .fragmentImports [.item 0] "baseDir" :=
    .fragmentImport 0 (by decide)
  have hknown : Table.hasKey Layers.standardDefaults (.text "fragmentImports") = true := by decide
  have haccepted : ∀ cause, ¬ SettingKey.RefusesNull unsetImports .fragmentImports
      [.item 0, .entry "importSource"] "path" cause := by
    intro cause hcause
    generalize hname : "path" = name at hcause
    cases hcause with
    | path _ hunset => cases hunset (.text "./user") rfl
    | identifiers => simp at hname
  have hvalue : unsetLayer.child? (.entry "fragmentImports") = some unsetImports := rfl
  have hleft := (run_without Host.bare true hpath hknown hvalue rfl).1 haccepted
  have hrefused := (run_without Host.bare true hdirectory hknown hvalue rfl).2 _
    (.directory 0 (by decide))
  exact ⟨hpath, hdirectory, hknown, hvalue, rfl, rfl, haccepted, (hleft .null).1,
    (hrefused .null).2.2⟩

/-- Without its null, a convention with one is accepted. -/
theorem exists_resolve_without_null :
    ∃ raw : Value,
      raw.at? [.entry "namingConvention", .entry "transformUnderscore"] = some .null ∧
      (Configuration.resolve Host.bare raw .null).outcome =
        .error (.config (.expected .boolean "namingConvention.transformUnderscore")) ∧
      ∃ c, (Configuration.resolve Host.bare
        (raw.without "transformUnderscore" [.entry "namingConvention"]) .null).outcome = .ok c :=
  ⟨.mapping false
    [(.text "namingConvention", .mapping false [(.text "transformUnderscore", .null)])],
    rfl, rfl, _, rfl⟩

end Resolve

end Nomenclature
