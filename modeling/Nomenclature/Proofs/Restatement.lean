import Nomenclature.Proofs.Readers
import Nomenclature.Proofs.StandardResolution
import Nomenclature.Proofs.Structure

/-!
# A configuration restates itself

The fields of a configuration can be written down again as a layer, each under its key. Every reader
accepts the field that it once yielded and yields it again: built settings pass as they are, the
built-in scalars are known before and replaced in place, and what was frozen stays frozen. Since
strict scalars exclude a default type, a strict configuration leaves that key out; it has the
standard type anyway. Hence resolving the layer leads back to the configuration.
-/

namespace Nomenclature

/-- The table with other items is built again over any table with the first of its keys. -/
theorem Table.foldl_put {α : Type} {known table : Table α}
    (hkeys : known.map (·.1) <+: table.map (·.1)) (hdistinct : table.Distinct) :
    table.foldl (fun known entry => Table.put entry.1 entry.2 known) known = table := by
  have hput (passed : Table α) (entry : Value × α) (old : Table α)
      (h : ∀ other ∈ passed, other.1.sameAs entry.1 = false) :
      Table.put entry.1 entry.2 (passed ++ old) = passed ++ Table.put entry.1 entry.2 old := by
    induction passed with
    | nil => rfl
    | cons first rest ih =>
        obtain ⟨hfirst, hrest⟩ := List.forall_mem_cons.1 h
        rw [List.cons_append, Table.put, hfirst, ih hrest]
        rfl
  have hstep (passed rest : Table α) (hdistinct : Table.Distinct (passed ++ rest)) (old : Table α)
      (hkeys : old.map (·.1) <+: rest.map (·.1)) :
      rest.foldl (fun known entry => Table.put entry.1 entry.2 known) (passed ++ old) =
        passed ++ rest := by
    induction rest generalizing passed old with
    | nil =>
        obtain rfl : old = [] := by simpa using hkeys
        rfl
    | cons entry rest ih =>
        have hnew (other : Value × α) (h : other ∈ passed) : other.1.sameAs entry.1 = false :=
          (List.pairwise_append.1 hdistinct).2.2 other h entry List.mem_cons_self
        rw [List.append_cons] at hdistinct ⊢
        rw [List.foldl_cons, hput passed entry old hnew]
        cases old with
        | nil =>
            rw [Table.put]
            simpa using ih (passed ++ [entry]) hdistinct [] List.nil_prefix
        | cons first old =>
            obtain ⟨hfirst, hkeys⟩ := List.cons_prefix_cons.1 hkeys
            have hkey : first.1 = entry.1 := hfirst
            rw [Table.put, hkey, Value.sameAs_refl, if_pos rfl, List.append_cons]
            exact ih (passed ++ [entry]) hdistinct old hkeys
  simpa using hstep [] table hdistinct known hkeys

theorem Table.map_put {α : Type} (key : Value) (item : α) (table : Table α) :
    table.map (·.1) <+: (Table.put key item table).map (·.1) := by
  induction table with
  | nil => exact List.nil_prefix
  | cons entry rest ih =>
      rw [Table.put]
      split
      · exact List.prefix_rfl
      · simpa using ih

namespace ScalarTable

/-- What is laid over known scalars keeps their places and repeats no name. -/
theorem overlay_extends {known table : ScalarTable} {entries : Entries}
    (hknown : Table.Distinct known) (h : overlay known entries = .ok table) :
    known.map (·.1) <+: table.map (·.1) ∧ Table.Distinct table := by
  induction entries generalizing known with
  | nil =>
      obtain rfl : known = table := by simpa [overlay] using h
      exact ⟨List.prefix_rfl, hknown⟩
  | cons entry rest ih =>
      obtain ⟨types, -, hrest⟩ := bind_eq_ok_iff.1 h
      obtain ⟨hkeys, hdistinct⟩ := ih (hknown.put entry.1 types) hrest
      exact ⟨(Table.map_put entry.1 types known).trans hkeys, hdistinct⟩

theorem overlay_toValue (known table : ScalarTable) :
    overlay known (table.map fun entry => (entry.1, entry.2.toValue)) =
      .ok (table.foldl (fun known entry => Table.put entry.1 entry.2 known) known) := by
  induction table generalizing known with
  | nil => rfl
  | cons entry rest ih => exact ih _

theorem ofValue_toValue {value : Value} {table : ScalarTable} (h : ofValue value = .ok table) :
    ofValue table.toValue = .ok table := by
  obtain ⟨entries, -, h⟩ := ofValue_eq_ok_iff.1 h
  obtain ⟨hkeys, hdistinct⟩ := overlay_extends (by decide) h
  rw [ofValue_eq_ok_iff]
  refine ⟨_, rfl, ?_⟩
  rw [overlay_toValue, Table.foldl_put hkeys hdistinct]

end ScalarTable

theorem Strategy.ofValue_toValue {value : Value} {strategy : Strategy}
    (h : ofValue value = .ok strategy) : ofValue strategy.toValue = .ok strategy := by
  cases value with
  | callable f =>
      obtain rfl : function f = strategy := Except.ok.inj h
      rfl
  | text name =>
      rw [ofValue] at h
      split at h
      · simp at h
      · rename_i hname
        obtain rfl : named name = strategy := Except.ok.inj h
        rw [toValue, ofValue, if_neg hname]
  | _ => simp [ofValue] at h

namespace Convention

/-- The strategies of a convention resolve again. -/
theorem ofParts_toValue {host : Host} {types enums underscore : Value} {convention : Convention}
    (h : ofParts host types enums underscore = .ok convention) :
    ofValue host convention.toValue = .ok convention := by
  have hresolve {value : Value} {found : Strategy × Callable}
      (h : Strategy.resolveValue host value = .ok found) :
      Strategy.resolveValue host found.1.toValue = .ok found := by
    rw [Strategy.resolveValue_eq_ok_iff] at h ⊢
    exact ⟨Strategy.ofValue_toValue h.1, h.2⟩
  obtain ⟨first, second, hfirst, hsecond, rfl⟩ := ofParts_eq_ok_iff.1 h
  exact ofParts_eq_ok_iff.2 ⟨first, second, hresolve hfirst, hresolve hsecond, rfl⟩

theorem ofValue_toValue {host : Host} {value : Value} {convention : Convention}
    (h : ofValue host value = .ok convention) :
    ofValue host convention.toValue = .ok convention := by
  simp only [ofValue] at h
  split at h
  · exact ofParts_toValue h
  · obtain ⟨underscore, h⟩ := ofParts_of_ofEntries h
    exact ofParts_toValue h
  · split at h
    · exact ofParts_toValue h
    · simp at h

end Convention

/-- Reading a list of values that are each read as what they were made from. -/
theorem Setting.items_map {α : Type} {read : Value → String → Except Fault α} {write : α → Value}
    (hread : ∀ a path, read (write a) path = .ok a) (path : String) (index : Nat) (as : List α) :
    items read path index (as.map write) = .ok as := by
  induction as generalizing index with
  | nil => rfl
  | cons a rest ih =>
      rw [List.map_cons, items, hread, ih]
      rfl

/-- The value under which a key is written down again. The one key whose field says the opposite is
turned back. -/
def SettingKey.restated (key : SettingKey) (c : Configuration) : Value :=
  match key with
  | skipTypename => .boolean !c.addTypename
  | key => c.field key

/-- A key accepts the field that it yielded and yields it again. -/
theorem SettingKey.read_restated {host : Host} {key : SettingKey} {value : Value}
    {c : Configuration} (h : key.read host value = .ok (c.field key)) :
    key.read host (key.restated c) = .ok (c.field key) := by
  cases key with
  | scalars =>
      obtain ⟨table, htable, h⟩ := map_eq_ok_iff.1 h
      obtain rfl := ScalarTable.toValue_injective h
      exact map_eq_ok_iff.2 ⟨c.scalars, ScalarTable.ofValue_toValue htable, rfl⟩
  | defaultScalarType =>
      obtain ⟨type, htype, h⟩ := map_eq_ok_iff.1 h
      obtain rfl := Value.text.inj h
      have hwritten := (Resolve.defaultScalarType_eq_ok_iff.1 htype).2
      have hagain : Resolve.defaultScalarType (.text c.defaultScalarType) =
          .ok c.defaultScalarType := Resolve.defaultScalarType_eq_ok_iff.2 ⟨rfl, hwritten⟩
      exact map_eq_ok_iff.2 ⟨c.defaultScalarType, hagain, rfl⟩
  | namingConvention =>
      obtain ⟨convention, hconvention, h⟩ := map_eq_ok_iff.1 h
      obtain rfl := Convention.toValue_injective h
      exact map_eq_ok_iff.2 ⟨c.convention, Convention.ofValue_toValue hconvention, rfl⟩
  | externalFragments =>
      exact map_eq_ok_iff.2 ⟨c.externalFragments, Setting.items_map (fun _ _ => rfl) .., rfl⟩
  | fragmentImports =>
      exact map_eq_ok_iff.2 ⟨c.fragmentImports, Setting.items_map (fun _ _ => rfl) .., rfl⟩
  | inlineFragmentTypes =>
      have htag (typing : FragmentTyping) :
          Resolve.fragmentTyping (.typing typing) = .ok typing := by
        cases typing <;> rfl
      exact map_eq_ok_iff.2 ⟨c.fragmentTyping, htag c.fragmentTyping, rfl⟩
  | skipTypename =>
      change Except.ok (Value.boolean !(!c.addTypename)) = _
      rw [Bool.not_not]
      rfl
  | _ => rfl

theorem SettingKey.isNull_restated (key : SettingKey) (c : Configuration) :
    (key.restated c).isNull = false := by
  cases key <;> rfl

theorem SettingKey.lookup?_map_name {α : Type} (keys : List SettingKey) (item : SettingKey → α)
    (key : SettingKey) :
    Table.lookup? (keys.map fun key => (.text key.name, item key)) (.text key.name) =
      if key ∈ keys then some (item key) else none := by
  induction keys with
  | nil => rfl
  | cons first rest ih =>
      rw [List.map_cons, Table.lookup?_cons, ih]
      by_cases hfirst : first = key
      · simp [hfirst]
      · have hname : ¬ first.name = key.name := fun h => hfirst (SettingKey.name_injective h)
        simp [hname, Ne.symm hfirst]

theorem SettingKey.distinct_map_name {α : Type} {keys : List SettingKey} (hkeys : keys.Nodup)
    (item : SettingKey → α) :
    Table.Distinct (keys.map fun key => (Value.text key.name, item key)) := by
  refine List.pairwise_map.2 (List.Pairwise.imp (fun {first second} hkeys => ?_) hkeys)
  rw [← Bool.not_eq_true, Value.sameAs_text, Value.asText?_text, Option.some.injEq]
  exact fun hname => hkeys (SettingKey.name_injective hname)

/-- Entries that were put aside as extras: no default knows a key, none stands twice, and every
value is set and frozen. -/
structure Entries.AreExtras (entries : Entries) : Prop where
  foreign : ∀ entry ∈ entries, Table.hasKey Layers.standardDefaults entry.1 = false
  distinct : Table.Distinct entries
  set : ∀ entry ∈ entries, entry.2.isNull = false
  frozen : Value.freezeEntries entries = entries

namespace Layers

/-- A layer repeats no key, if it is a mapping at all. -/
def Distinct (layer : Value) : Prop :=
  ∀ entries, layer.asEntries? = some entries → Table.Distinct entries

theorem Distinct.of_entries {layer : Value} (hlayer : Distinct layer) {held : Entries}
    (h : entries (orEmpty layer) = .ok held) : Table.Distinct held := by
  rcases asEntries?_of_orEmpty h with hentries | rfl
  · exact hlayer held hentries
  · exact Table.distinct_nil

end Layers

namespace Configuration

/-- The keys under which a configuration is written down again. -/
def restatedKeys (c : Configuration) : List SettingKey :=
  SettingKey.all.filter fun key => !(c.strictScalars && key == .defaultScalarType)

/-- The configuration as a layer: its fields under their keys, and the extras. -/
def restated (c : Configuration) : Entries :=
  c.restatedKeys.map (fun key => (.text key.name, key.restated c)) ++ c.extras

theorem mem_restatedKeys {c : Configuration} {key : SettingKey} :
    key ∈ c.restatedKeys ↔ (c.strictScalars = true → key ≠ .defaultScalarType) := by
  cases hstrict : c.strictScalars <;> simp [restatedKeys, SettingKey.mem_all, hstrict]

section

variable {c : Configuration}

theorem asText?_extras (hextras : c.extras.AreExtras) (key : SettingKey) :
    ∀ entry ∈ c.extras, entry.1.sameAs (.text key.name) = false := by
  intro entry hentry
  rw [← Bool.not_eq_true]
  intro hname
  have hforeign := hextras.foreign entry hentry
  rw [Table.hasKey_congr hname, ← Bool.not_eq_true, SettingKey.hasKey_standardDefaults_iff]
    at hforeign
  exact hforeign (List.mem_map_of_mem key.mem_all)

theorem named_restated (hextras : c.extras.AreExtras) (key : SettingKey) :
    Entries.named c.restated key.name = if key ∈ c.restatedKeys then key.restated c else .null := by
  rw [Entries.named, Entries.getD, restated, Table.lookup?_append, SettingKey.lookup?_map_name,
    Table.lookup?_eq_none_iff.2 (asText?_extras hextras key), Option.or_none]
  split <;> rfl

theorem isNull_restated (hextras : c.extras.AreExtras) :
    ∀ entry ∈ c.restated, entry.2.isNull = false := by
  intro entry hentry
  rcases List.mem_append.1 hentry with hentry | hentry
  · obtain ⟨key, -, rfl⟩ := List.mem_map.1 hentry
    exact key.isNull_restated c
  · exact hextras.set entry hentry

theorem distinct_restated (hextras : c.extras.AreExtras) : Table.Distinct c.restated := by
  refine List.pairwise_append.2 ⟨?_, hextras.distinct, ?_⟩
  · exact SettingKey.distinct_map_name (SettingKey.nodup_all.filter _) _
  · intro entry hentry other hother
    obtain ⟨key, -, rfl⟩ := List.mem_map.1 hentry
    have hforeign := hextras.foreign other hother
    simp only [Table.hasKey, List.any_eq_false] at hforeign
    have hkey := hforeign (.text key.name, key.standard)
      (by rw [SettingKey.standardDefaults_eq]; exact List.mem_map_of_mem key.mem_all)
    simpa using hkey

/-- What the layer comes to over the standard defaults: itself, and the standard values of the keys
that it leaves out. -/
theorem union_restated (hextras : c.extras.AreExtras) :
    Layers.union [[], c.restated, Layers.standardDefaults] =
      c.restated ++ Layers.standardDefaults.filter fun entry =>
        !Table.hasKey c.restated entry.1 := by
  have hdistinct : Table.Distinct Layers.standardDefaults := by
    rw [SettingKey.standardDefaults_eq]
    exact SettingKey.distinct_map_name SettingKey.nodup_all SettingKey.standard
  have hset : ∀ entry ∈ Layers.standardDefaults, entry.2.isNull = false := by
    simp [Layers.standardDefaults, Value.isNull]
  have hkeep (layer known : Entries) (hlayer : ∀ entry ∈ layer, entry.2.isNull = false) :
      (layer.filter fun entry => !entry.2.isNull && !Table.hasKey known entry.1) =
        layer.filter fun entry => !Table.hasKey known entry.1 := by
    apply List.filter_congr
    intro entry hentry
    rw [hlayer entry hentry, Bool.not_false, Bool.true_and]
  simp only [Layers.union, List.foldl_cons, List.foldl_nil]
  rw [Layers.foldl_take (distinct_restated hextras), Layers.foldl_take hdistinct,
    hkeep _ _ (isNull_restated hextras), hkeep _ _ hset]
  simp [Table.hasKey]

/-- The layer brings back the extras and no other ones. -/
theorem extras_restated (hextras : c.extras.AreExtras) :
    Resolve.extras (.mapping true Layers.standardDefaults)
      (Layers.union [[], c.restated, Layers.standardDefaults]) = c.extras := by
  have hknown (key : SettingKey) :
      Table.hasKey Layers.standardDefaults (.text key.name) = true :=
    (SettingKey.hasKey_standardDefaults_iff key.name).2 (List.mem_map_of_mem key.mem_all)
  have hnames : (c.restatedKeys.map fun key => (Value.text key.name, key.restated c)).filter
      (fun entry => !Table.hasKey Layers.standardDefaults entry.1) = [] := by
    simp [List.filter_eq_nil_iff, hknown]
  have hextras : c.extras.filter
      (fun entry => !Table.hasKey Layers.standardDefaults entry.1) = c.extras := by
    rw [List.filter_eq_self]
    intro entry hentry
    simp [hextras.foreign entry hentry]
  have hdefaults (keep : Value × Value → Bool) : (Layers.standardDefaults.filter keep).filter
      (fun entry => !Table.hasKey Layers.standardDefaults entry.1) = [] := by
    simp only [List.filter_eq_nil_iff, List.mem_filter, Bool.not_eq_true', Bool.not_eq_false]
    rintro entry ⟨hentry, -⟩
    rw [SettingKey.standardDefaults_eq] at hentry
    obtain ⟨key, -, rfl⟩ := List.mem_map.1 hentry
    exact hknown key
  rw [union_restated ‹_›, restated]
  change List.filter _ _ = _
  rw [List.filter_append, List.filter_append, hnames, hextras, hdefaults]
  simp

/-- The effective value of a key in the layer is the field written down again, or the standard
value where the layer leaves the key out. -/
theorem effective_restated (hextras : c.extras.AreExtras) (key : SettingKey) :
    key.effective [] c.restated =
      if key ∈ c.restatedKeys then key.restated c else key.standard := by
  change (Entries.named c.restated key.name).orElse key.standard = _
  rw [named_restated hextras]
  split
  · rw [Value.orElse, key.isNull_restated c]
    rfl
  · rfl

/-- The layer sets no default type where scalars are strict. -/
theorem not_clash_restated (hextras : c.extras.AreExtras) :
    ¬ Resolve.Clash [] c.restated := by
  rw [Resolve.clash_iff Table.distinct_nil (distinct_restated hextras),
    effective_restated hextras, if_pos (mem_restatedKeys.2 fun _ => by decide)]
  rintro ⟨hboolean, hset⟩
  have hstrict : c.strictScalars = true := Except.ok.inj hboolean
  have hnamed := named_restated hextras .defaultScalarType
  rw [if_neg fun hmem => mem_restatedKeys.1 hmem hstrict rfl] at hnamed
  rw [show "defaultScalarType" = SettingKey.defaultScalarType.name from rfl, hnamed] at hset
  simp [Entries.named, Entries.getD, Value.isNull] at hset

end

theorem entries_of_resolve {host : Host} {raw overrides : Value} {c : Configuration}
    (h : (resolve host raw overrides).outcome = .ok c) :
    ∃ upper lower, Layers.entries (Layers.orEmpty overrides) = .ok upper ∧
      Layers.entries (Layers.orEmpty raw) = .ok lower := by
  obtain ⟨upper, lower, -, hupper, hlower, -⟩ := Resolve.entries_of_run h
  exact ⟨upper, lower, hupper, hlower⟩

theorem areExtras_of_resolve {host : Host} {raw overrides : Value} {c : Configuration}
    (h : (resolve host raw overrides).outcome = .ok c) : c.extras.AreExtras := by
  obtain ⟨upper, lower, hupper, hlower⟩ := entries_of_resolve h
  rw [Resolve.extras_of_resolve hlower hupper h]
  constructor
  case frozen => exact Value.freezeEntries_freezeEntries _
  all_goals rw [Value.freezeEntries_eq_map]
  case distinct => exact List.pairwise_map.2 (List.Pairwise.filter _ (Layers.distinct_union _))
  all_goals
    intro entry hentry
    obtain ⟨old, hold, rfl⟩ := List.mem_map.1 hentry
    obtain ⟨hmem, hforeign⟩ := List.mem_filter.1 hold
  case foreign => simpa using hforeign
  case set =>
    obtain ⟨layer, -, -, hset⟩ := Layers.mem_of_mem_union hmem
    rw [Value.isNull_freeze, hset]

/-- Where scalars are strict no layer sets a default type. -/
theorem unset_of_strict {host : Host} {raw overrides : Value} {upper lower : Entries}
    {c : Configuration} (hupper : Layers.entries (Layers.orEmpty overrides) = .ok upper)
    (hlower : Layers.entries (Layers.orEmpty raw) = .ok lower)
    (h : (resolve host raw overrides).outcome = .ok c) (hstrict : c.strictScalars = true) :
    (Entries.named lower "defaultScalarType").isNull = true ∧
      (Entries.named upper "defaultScalarType").isNull = true := by
  have hmerged := Layers.merged_standard hlower hupper
  obtain ⟨hkeys, hexclusion, -⟩ := (Resolve.run_eq_ok_iff hmerged c).1 h
  have hclash : ¬ Resolve.Clash upper lower := by
    rcases Resolve.exclusion_eq hlower hupper with ⟨-, hclash⟩ | ⟨herror, -⟩
    · exact hclash
    · rw [herror] at hexclusion
      simp at hexclusion
  have hboolean : Resolve.booleanSetting
      (Layers.union [upper, lower, Layers.standardDefaults]) "strictScalars" = .ok true := by
    have hkey := hkeys .strictScalars
    obtain ⟨value, hvalue, hread⟩ := bind_eq_ok_iff.1 hkey
    obtain ⟨b, hb, hfield⟩ := map_eq_ok_iff.1 hread
    obtain rfl : b = c.strictScalars := Value.boolean.inj hfield
    rw [← hstrict]
    exact bind_eq_ok_iff.2 ⟨value, hvalue, hb⟩
  simpa only [Resolve.Clash, hboolean, true_and, not_or, Bool.not_eq_false] using hclash

/-- So the default type is the standard one. -/
theorem read_standard_of_strict {host : Host} {raw overrides : Value} {c : Configuration}
    (hraw : Layers.Distinct raw) (hoverrides : Layers.Distinct overrides)
    (h : (resolve host raw overrides).outcome = .ok c) (hstrict : c.strictScalars = true) :
    SettingKey.defaultScalarType.read host SettingKey.defaultScalarType.standard =
      .ok (c.field .defaultScalarType) := by
  obtain ⟨upper, lower, hupper, hlower⟩ := entries_of_resolve h
  obtain ⟨hlowerUnset, hupperUnset⟩ := unset_of_strict hupper hlower h hstrict
  have hread := Resolve.field_of_resolve hlower hupper (hraw.of_entries hlower)
    (hoverrides.of_entries hupper) h .defaultScalarType
  have hunset : SettingKey.defaultScalarType.effective upper lower =
      SettingKey.defaultScalarType.standard := by
    simp only [SettingKey.effective, Layers.value, SettingKey.name, Value.orElse, hlowerUnset,
      hupperUnset, if_true]
  rwa [hunset] at hread

/-- Resolving what a configuration restates leads back to the configuration, whatever it was
resolved from. -/
theorem resolve_restated (host : Host) {raw overrides : Value} {c : Configuration}
    (hraw : Layers.Distinct raw) (hoverrides : Layers.Distinct overrides)
    (hresolved : (resolve host raw overrides).outcome = .ok c) :
    (resolve host (.mapping false c.restated) .null).outcome = .ok c := by
  have hextras := areExtras_of_resolve hresolved
  obtain ⟨upper, lower, hupper, hlower⟩ := entries_of_resolve hresolved
  have hmerged := Layers.merged_standard hlower hupper
  have hlayer := Layers.entries_mapping false c.restated
  have hagain := Layers.merged_standard hlayer Layers.entries_null
  obtain ⟨-, -, hordering, hfrozen⟩ := (Resolve.run_eq_ok_iff hmerged c).1 hresolved
  refine (Resolve.run_eq_ok_iff hagain c).2 ⟨fun key => ?_, ?_, ?_, ?_⟩
  · rw [Resolve.readKey_merged Table.distinct_nil (distinct_restated hextras),
      effective_restated hextras]
    split
    · exact SettingKey.read_restated (Resolve.field_of_resolve hlower hupper
        (hraw.of_entries hlower) (hoverrides.of_entries hupper) hresolved key)
    · rename_i hkey
      rw [mem_restatedKeys, Classical.not_imp, not_not] at hkey
      obtain ⟨hstrict, rfl⟩ := hkey
      exact read_standard_of_strict hraw hoverrides hresolved hstrict
  · rcases Resolve.exclusion_eq hlayer Layers.entries_null with ⟨hok, -⟩ | ⟨-, hclash⟩
    · exact hok
    · exact absurd hclash (not_clash_restated hextras)
  · have hkeys : c.extras.map (·.1) = (Resolve.extras (.mapping true Layers.standardDefaults)
        (Layers.union [upper, lower, Layers.standardDefaults])).map (·.1) := by
      simp only [hfrozen, Value.freezeEntries_eq_map, List.map_map, Function.comp_def]
    rw [Resolve.ordering] at hordering ⊢
    rw [extras_restated hextras, hkeys]
    exact hordering
  · rw [extras_restated hextras, hextras.frozen]

/-- A strict configuration with a scalar of its own, an inverted key and an extra. -/
theorem resolve_restated_strict :
    Layers.Distinct (.mapping false [(.text "strictScalars", .boolean true),
        (.text "scalars", .mapping false [(.text "ID", .text "number")]),
        (.text "skipTypename", .boolean true), (.text "plugin", .list [.integer 1])]) ∧
      Layers.Distinct .null ∧
      ∃ c, (resolve Host.bare (.mapping false [(.text "strictScalars", .boolean true),
          (.text "scalars", .mapping false [(.text "ID", .text "number")]),
          (.text "skipTypename", .boolean true), (.text "plugin", .list [.integer 1])])
          .null).outcome = .ok c ∧
        c.strictScalars = true ∧ c.addTypename = false ∧
        Table.lookup? c.scalars (.text "ID") = some (.both "number") ∧
        c.extras = [(.text "plugin", .tuple [.integer 1])] ∧
        (resolve Host.bare (.mapping false c.restated) .null).outcome = .ok c := by
  have hraw : Layers.Distinct (.mapping false [(.text "strictScalars", .boolean true),
      (.text "scalars", .mapping false [(.text "ID", .text "number")]),
      (.text "skipTypename", .boolean true), (.text "plugin", .list [.integer 1])]) := by
    intro entries hentries
    obtain rfl := Option.some.inj hentries
    decide
  have hoverrides : Layers.Distinct .null := by
    intro entries hentries
    simp [Value.asEntries?] at hentries
  exact ⟨hraw, hoverrides, _, rfl, rfl, rfl, rfl, rfl,
    resolve_restated Host.bare hraw hoverrides rfl⟩

end Configuration

end Nomenclature
