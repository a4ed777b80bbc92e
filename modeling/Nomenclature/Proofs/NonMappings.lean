import Nomenclature.Proofs.Flattening
import Nomenclature.Proofs.Refusals

/-!
# What is no mapping

A layer, and the nested section of an import, may be left out as null and is a mapping otherwise.
Any other value that counts as true is refused in these places. One that counts as false is not
refused: it is taken for what was left out, since the check of its kind comes after an empty mapping
has taken its place.
-/

namespace Nomenclature

/-- Something other than a mapping where a mapping should stand. -/
structure Value.IsNonMapping (v : Value) : Prop where
  present : v.isNull = false
  shape : v.asEntries? = none

namespace Layers

variable {v : Value}

theorem orEmpty_of_isTruthy_eq_false (h : v.isTruthy = false) : orEmpty v = orEmpty .null := by
  rw [orEmpty, if_neg (by simp [h])]
  rfl

theorem entries_of_isNonMapping (hv : v.IsNonMapping) (h : v.isTruthy = true) :
    entries (orEmpty v) = .error (.config (.layerNotMapping v.kindName)) := by
  rw [orEmpty, if_pos h, entries, hv.shape]

end Layers

namespace Resolve

variable {host : Host} {defaults raw overrides : Value} {merged : Entries}

theorem run_of_merged_eq_error {fault : Fault}
    (h : Layers.merged defaults raw overrides = .error fault) :
    run host defaults raw overrides = ⟨[], .error fault⟩ := by
  have hsettle : settle host defaults raw overrides = .error fault := by
    rw [settle, h]
    rfl
  rw [run, hsettle]

/-- Layers that are taken for the same mappings resolve alike. -/
theorem run_congr_orEmpty {raw' overrides' : Value}
    (hraw : Layers.orEmpty raw = Layers.orEmpty raw')
    (hoverrides : Layers.orEmpty overrides = Layers.orEmpty overrides') :
    run host defaults raw overrides = run host defaults raw' overrides' := by
  apply run_congr
  · rw [Layers.merged, Layers.merged, hraw, hoverrides]
  · simp only [Layers.sets, hraw, hoverrides]

theorem setting_eq_ok_iff {key : String} {value : Value} :
    setting merged key = .ok value ↔ Table.lookup? merged (.text key) = some value := by
  rw [setting]
  cases Table.lookup? merged (.text key) <;> simp

/-- Ways in which a resolution fails that are no refusals: a default is missing, the convention
leads to a module of the host, or the extra keys have no order. -/
inductive FailsApart (host : Host) (defaults : Value) (merged : Entries) : Fault → Prop
  | missing {key : SettingKey} (h : Table.lookup? merged (.text key.name) = none) :
      FailsApart host defaults merged (.missingKey (.text key.name))
  | convention {value : Value} {fault : Fault}
      (h : Table.lookup? merged (.text SettingKey.namingConvention.name) = some value)
      (hfault : Convention.ofValue host value = .error fault) :
      FailsApart host defaults merged fault
  | unordered (h : Value.sorted? ((extras defaults merged).map (·.1)) = none) :
      FailsApart host defaults merged .unorderedKeys

theorem FailsApart.of_readKey {key : SettingKey} {fault : Fault}
    (h : readKey host merged key = .error fault) :
    (∃ cause, fault = .config cause) ∨ FailsApart host defaults merged fault := by
  rw [readKey, setting] at h
  cases hlookup : Table.lookup? merged (.text key.name) with
  | none =>
      rw [hlookup] at h
      obtain rfl := Except.error.inj h
      exact .inr (.missing hlookup)
  | some value =>
      rw [hlookup] at h
      change key.read host value = .error fault at h
      by_cases hkey : key = .namingConvention
      · subst hkey
        have hfault : faultOf (Convention.ofValue host value) = some fault := by
          rw [← faultOf_map Convention.toValue, ← faultOf_error]
          exact congrArg faultOf h
        cases hconvention : Convention.ofValue host value with
        | ok convention => simp [hconvention] at hfault
        | error found =>
            obtain rfl : found = fault := by simpa [hconvention] using hfault
            exact .inr (.convention hlookup hconvention)
      · exact .inl (SettingKey.onlyRefuses_read host hkey value fault h)

theorem onlyRefuses_exclusion (merged : Entries) (raw overrides : Value) :
    OnlyRefuses (exclusion merged raw overrides) := by
  rw [exclusion]
  split
  · split
    · exact .refusal _
    · exact .ok _
  · exact .ok _

/-- A resolution that fails is refused, unless it fails apart. -/
theorem FailsApart.of_run (hmerged : Layers.merged defaults raw overrides = .ok merged)
    {fault : Fault} (h : (run host defaults raw overrides).outcome = .error fault) :
    (∃ cause, fault = .config cause) ∨ FailsApart host defaults merged fault := by
  have hsteps : faultOf (run host defaults raw overrides).outcome =
      (steps host defaults raw overrides merged).findSome? faultOf := faultOf_run hmerged
  rw [h, faultOf_error] at hsteps
  obtain ⟨step, hstep, hfault⟩ := List.exists_of_findSome?_eq_some hsteps.symm
  obtain rfl : step = .error fault := by
    cases step with
    | ok value => simp at hfault
    | error found => simpa using hfault
  simp only [steps, List.mem_cons, List.mem_map] at hstep
  rcases hstep with hstrict | hexclusion | hconvention | hordering | ⟨key, -, hkey⟩
  · exact of_readKey hstrict.symm
  · exact .inl (onlyRefuses_exclusion merged raw overrides fault hexclusion.symm)
  · exact of_readKey hconvention.symm
  · rw [ordering] at hordering
    split at hordering
    · rename_i hsorted
      obtain rfl := Except.error.inj hordering
      exact .inr (.unordered hsorted)
    · cases hordering
  · exact of_readKey hkey

end Resolve

theorem Setting.items_ne_ok {α : Type} {read : Value → String → Except Fault α} {path : String}
    {index : Nat} {listed : List Value} {item : Value} (hitem : item ∈ listed)
    (hread : ∀ path a, read item path ≠ .ok a) (as : List α) :
    items read path index listed ≠ .ok as := by
  induction listed generalizing index as with
  | nil => cases hitem
  | cons first rest ih =>
      intro h
      obtain ⟨a, hfirst, h⟩ := bind_eq_ok_iff.1 h
      obtain ⟨others, hothers, -⟩ := bind_eq_ok_iff.1 h
      rcases List.mem_cons.1 hitem with rfl | hitem
      · exact hread _ a hfirst
      · exact ih hitem others hothers

namespace Entries

variable {entries : Entries} {name other : String}

theorem getD_drop (h : name ≠ other) (otherwise : Value) :
    getD (Table.drop entries (.text other)) name otherwise = getD entries name otherwise := by
  have hkeep (entry : Value × Value) (hentry : entry.1.sameAs (.text name) = true) :
      (!entry.1.sameAs (.text other)) = true := by
    rw [Value.sameAs_text] at hentry
    rw [Bool.not_eq_true', ← Bool.not_eq_true, Value.sameAs_text, hentry]
    exact fun hsame => h (Option.some.inj hsame)
  rw [getD, getD, Table.drop, Table.lookup?_filter hkeep, if_pos rfl]

theorem named_drop_self (entries : Entries) (name : String) :
    named (Table.drop entries (.text name)) name = .null := by
  have hkeep (entry : Value × Value) (hentry : entry.1.sameAs (.text name) = true) :
      (!entry.1.sameAs (.text name)) = false := by
    rw [hentry]
    rfl
  rw [named, getD, Table.drop, Table.lookup?_filter hkeep]
  rfl

end Entries

namespace FragmentImport

/-- The key of the nested section. -/
def nestedKey : String :=
  "importSource"

variable {v : Value} {entries : Entries}

/-- The nested section, if it counts as true and is no mapping, is refused at its own path. -/
theorem ofEntries_of_isNonMapping (hv : v.IsNonMapping) (htruthy : v.isTruthy = true)
    (hentry : Entries.named entries nestedKey = v) (path : String) :
    ofEntries entries path =
      .error (.config (.expected .object (path ++ ".importSource"))) := by
  have hplace : Entries.named entries "importSource" = v := hentry
  have hnested : nested entries path =
      .error (.config (.expected .object (path ++ ".importSource"))) := by
    rw [nested, hplace, if_pos htruthy, hv.shape]
  rw [ofEntries, hnested]
  rfl

theorem nested_of_isTruthy_eq_false (hentry : (Entries.named entries nestedKey).isTruthy = false)
    (path : String) : nested entries path = .ok [] := by
  have hplace : (Entries.named entries "importSource").isTruthy = false := hentry
  rw [nested, hplace]
  rfl

/-- If it counts as false, it might as well be left out. -/
theorem ofEntries_drop (hentry : (Entries.named entries nestedKey).isTruthy = false)
    (path : String) :
    ofEntries (Table.drop entries (.text nestedKey)) path = ofEntries entries path := by
  have hleft : (Entries.named (Table.drop entries (.text nestedKey)) nestedKey).isTruthy =
      false := by
    rw [Entries.named_drop_self]
    rfl
  have hgetD (name : String) (otherwise : Value) (hname : name ≠ nestedKey) :
      Entries.getD (Table.drop entries (.text nestedKey)) name otherwise =
        Entries.getD entries name otherwise :=
    Entries.getD_drop hname otherwise
  have heither (name other : String) (otherwise : Value) (hname : name ≠ nestedKey)
      (hother : other ≠ nestedKey) :
      Entries.either (Table.drop entries (.text nestedKey)) name other otherwise =
        Entries.either entries name other otherwise := by
    simp only [Entries.either, Entries.named, hgetD name _ hname, hgetD other _ hother]
  rw [ofEntries, ofEntries, nested_of_isTruthy_eq_false hleft, nested_of_isTruthy_eq_false hentry]
  simp (disch := decide) only [Entries.named, hgetD, heither]
  rfl

end FragmentImport

namespace Resolve

variable {host : Host} {defaults raw overrides : Value} {merged : Entries}

/-- A resolution fails if one of the imports cannot be read. -/
theorem exists_fault_of_import (hmerged : Layers.merged defaults raw overrides = .ok merged)
    {listed : List Value} {item : Value} (hitem : item ∈ listed)
    (hlisted : (Entries.named merged SettingKey.fragmentImports.name).asItems? = some listed)
    (hread : ∀ path entry, FragmentImport.ofValue item path ≠ .ok entry) :
    ∃ fault, (run host defaults raw overrides).outcome = .error fault := by
  cases hrun : (run host defaults raw overrides).outcome with
  | error fault => exact ⟨fault, rfl⟩
  | ok c =>
      exfalso
      have hkey := ((run_eq_ok_iff hmerged c).1 hrun).1 .fragmentImports
      obtain ⟨value, hvalue, hfield⟩ := bind_eq_ok_iff.1 hkey
      obtain ⟨others, hothers, hfield⟩ := bind_eq_ok_iff.1 hfield
      obtain ⟨imports, himports, -⟩ := map_eq_ok_iff.1 hfield
      have hnamed : Entries.named merged SettingKey.fragmentImports.name = value := by
        rw [Entries.named, Entries.getD, setting_eq_ok_iff.1 hvalue]
        rfl
      rw [hnamed] at hlisted
      rw [Setting.list, hlisted] at hothers
      obtain rfl := Except.ok.inj hothers
      exact Setting.items_ne_ok hitem hread imports himports

/-- Whatever is no mapping is refused in the place of a mapping if it counts as true. If it counts
as false, it is not told from what was left out. -/
theorem run_of_isNonMapping (host : Host) (defaults : Value) {v : Value} (hv : v.IsNonMapping) :
    (v.isTruthy = true →
      (∀ overrides upper, Layers.entries (Layers.orEmpty overrides) = .ok upper →
        run host defaults v overrides = ⟨[], .error (.config (.layerNotMapping v.kindName))⟩) ∧
      (∀ raw, run host defaults raw v = ⟨[], .error (.config (.layerNotMapping v.kindName))⟩) ∧
      ∀ frozen entries, Entries.named entries FragmentImport.nestedKey = v →
        (∀ path, FragmentImport.ofValue (.mapping frozen entries) path =
          .error (.config (.expected .object (path ++ ".importSource")))) ∧
        ∀ raw overrides merged listed, Layers.merged defaults raw overrides = .ok merged →
          (Entries.named merged SettingKey.fragmentImports.name).asItems? = some listed →
          .mapping frozen entries ∈ listed →
          ∃ fault, (run host defaults raw overrides).outcome = .error fault ∧
            ((∃ cause, fault = .config cause) ∨ FailsApart host defaults merged fault)) ∧
      (v.isTruthy = false →
        (∀ overrides, run host defaults v overrides = run host defaults .null overrides) ∧
        (∀ raw, run host defaults raw v = run host defaults raw .null) ∧
        ∀ frozen entries path, Entries.named entries FragmentImport.nestedKey = v →
          FragmentImport.ofValue (.mapping frozen entries) path = FragmentImport.ofValue
            (.mapping frozen (Table.drop entries (.text FragmentImport.nestedKey))) path) := by
  constructor
  · intro htruthy
    have hlayer := Layers.entries_of_isNonMapping hv htruthy
    refine ⟨fun overrides upper hupper => run_of_merged_eq_error ?_,
      fun raw => run_of_merged_eq_error ?_, fun frozen entries hentry => ?_⟩
    · rw [Layers.merged, hupper, hlayer]
      rfl
    · rw [Layers.merged, hlayer]
      rfl
    · have hread := FragmentImport.ofEntries_of_isNonMapping hv htruthy hentry
      refine ⟨hread, fun raw overrides merged listed hmerged hlisted hitem => ?_⟩
      have hrefused (path : String) (entry : FragmentImport) :
          FragmentImport.ofValue (.mapping frozen entries) path ≠ .ok entry := by
        intro h
        cases (hread path).symm.trans h
      obtain ⟨fault, hfault⟩ := exists_fault_of_import hmerged hitem hlisted hrefused
      exact ⟨fault, hfault, FailsApart.of_run hmerged hfault⟩
  · intro hfalsy
    have hlayer := Layers.orEmpty_of_isTruthy_eq_false hfalsy
    refine ⟨fun overrides => run_congr_orEmpty hlayer rfl, fun raw => run_congr_orEmpty rfl hlayer,
      ?_⟩
    rintro frozen entries path rfl
    exact (FragmentImport.ofEntries_drop hfalsy path).symm

/-- A list of one key as a layer, a text as a nested section, and a blank as overrides. -/
theorem run_of_isNonMapping_listed :
    (Value.list [.text "typesPrefix"]).IsNonMapping ∧
      Configuration.resolve Host.bare (.list [.text "typesPrefix"]) .null =
        ⟨[], .error (.config (.layerNotMapping "list"))⟩ ∧
      (Value.text "./user").IsNonMapping ∧
      FragmentImport.ofValue (.mapping false [(.text "importSource", .text "./user")])
          "fragmentImports.0" =
        .error (.config (.expected .object ("fragmentImports.0" ++ ".importSource"))) ∧
      (Value.text "").IsNonMapping ∧
      Configuration.resolve Host.bare .null (.text "") =
        Configuration.resolve Host.bare .null .null := by
  have hlist : (Value.list [.text "typesPrefix"]).IsNonMapping := ⟨rfl, rfl⟩
  have hpath : (Value.text "./user").IsNonMapping := ⟨rfl, rfl⟩
  have hblank : (Value.text "").IsNonMapping := ⟨rfl, rfl⟩
  have hlayer := (run_of_isNonMapping Host.bare (.mapping true Layers.standardDefaults) hlist).1 rfl
  have hsection := (run_of_isNonMapping Host.bare .null hpath).1 (by decide)
  have hempty := (run_of_isNonMapping Host.bare (.mapping true Layers.standardDefaults) hblank).2
    (by decide)
  refine ⟨hlist, hlayer.1 .null [] rfl, hpath, ?_, hblank, hempty.2.1 .null⟩
  exact (hsection.2.2 false [(.text "importSource", .text "./user")] rfl).1 "fragmentImports.0"

/-- Empty data that is no mapping resolves, as either layer and as the nested section. -/
theorem exists_resolve_of_isNonMapping :
    (Value.list []).IsNonMapping ∧
      (∃ c, (Configuration.resolve Host.bare (.list []) (.mapping false [])).outcome = .ok c) ∧
      (∃ c, (Configuration.resolve Host.bare (.mapping false []) (.list [])).outcome = .ok c) ∧
      ∃ c, (Configuration.resolve Host.bare
        (.mapping false [(.text "fragmentImports",
          .list [.mapping false [(.text "importSource", .list [])]])]) .null).outcome = .ok c :=
  ⟨⟨rfl, rfl⟩, ⟨_, rfl⟩, ⟨_, rfl⟩, ⟨_, rfl⟩⟩

end Resolve

end Nomenclature
