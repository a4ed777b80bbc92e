import Nomenclature.Proofs.SettingKey

/-!
# Resolution step by step

A resolution takes its steps in a fixed order and stops at the first that fails: strictness, the
exclusion of a default type under strictness, the naming convention, the order of the keys that no
default knows, and then one key after the other. The main statement lists these steps and says that
a resolution comes to what they come to in order. Hence a configuration is the outcome exactly if
every key is read as the field that it drives, and a fault is that of the first failing step.
-/

namespace Nomenclature

variable {α β γ δ : Type}

def faultOf : Except Fault α → Option Fault
  | .ok _ => none
  | .error fault => some fault

@[simp]
theorem faultOf_ok (a : α) : faultOf (.ok a : Except Fault α) = none := rfl

@[simp]
theorem faultOf_error (fault : Fault) : faultOf (.error fault : Except Fault α) = some fault := rfl

@[simp]
theorem faultOf_map (f : α → β) (step : Except Fault α) :
    faultOf (step.map f) = faultOf step := by
  cases step <;> rfl

theorem faultOf_eq_none_iff {step : Except Fault α} :
    faultOf step = none ↔ ∃ a, step = .ok a := by
  cases step <;> simp

theorem faultOf_eq_some_iff {step : Except Fault α} {fault : Fault} :
    faultOf step = some fault ↔ step = .error fault := by
  cases step <;> simp

theorem isSome_faultOf_iff {step : Except Fault α} :
    (faultOf step).isSome = true ↔ ∃ fault, step = .error fault := by
  cases step <;> simp

/-- A step after another one has its fault, whatever the first yields, where the first has none. -/
theorem faultOf_bind {step : Except Fault α} {next : α → Except Fault β} {fault : Option Fault}
    (h : ∀ a, step = .ok a → faultOf (next a) = fault) :
    faultOf (step >>= next) = (faultOf step).or fault := by
  cases step with
  | error found => rfl
  | ok a => exact h a rfl

theorem bind_eq_ok_iff {step : Except Fault α} {next : α → Except Fault β} {b : β} :
    step >>= next = .ok b ↔ ∃ a, step = .ok a ∧ next a = .ok b := by
  cases step with
  | error fault => simp [Bind.bind, Except.bind]
  | ok a => simp [Bind.bind, Except.bind]

theorem map_eq_ok_iff {step : Except Fault α} {f : α → β} {b : β} :
    step.map f = .ok b ↔ ∃ a, step = .ok a ∧ f a = b := by
  cases step <;> simp [Except.map]

/-- What steps come to, one after the other, up to the first that fails. -/
def inOrder : List (Except Fault Value) → Except Fault (List Value)
  | [] => .ok []
  | .error fault :: _ => .error fault
  | .ok value :: rest => (inOrder rest).map (value :: ·)

theorem inOrder_map_ok (values : List Value) : inOrder (values.map .ok) = .ok values := by
  induction values with
  | nil => rfl
  | cons value rest ih => simp [inOrder, ih, Except.map]

theorem inOrder_eq_ok_iff {steps : List (Except Fault Value)} {values : List Value} :
    inOrder steps = .ok values ↔ steps = values.map .ok := by
  constructor
  · intro h
    induction steps generalizing values with
    | nil =>
        obtain rfl : [] = values := by simpa [inOrder] using h
        rfl
    | cons step rest ih =>
        cases step with
        | error fault => simp [inOrder] at h
        | ok value =>
            cases hrest : inOrder rest with
            | error fault => simp [inOrder, hrest, Except.map] at h
            | ok others =>
                obtain rfl : value :: others = values := by
                  simpa [inOrder, hrest, Except.map] using h
                rw [ih hrest, List.map_cons]
  · rintro rfl
    exact inOrder_map_ok values

theorem faultOf_inOrder (steps : List (Except Fault Value)) :
    faultOf (inOrder steps) = steps.findSome? faultOf := by
  induction steps with
  | nil => rfl
  | cons step rest ih =>
      cases step with
      | error fault => rfl
      | ok value => rw [inOrder, faultOf_map, ih, List.findSome?_cons, faultOf_ok]

/-- A first step whose value is kept in front of what the rest comes to. -/
theorem map_bind_eq_inOrder {step : Except Fault α} {next : α → Except Fault β}
    {view : β → δ} {kept : Except Fault Value} {rest : List (Except Fault Value)}
    {extend : List Value → δ} (encode : α → Value) (hkept : kept = step.map encode)
    (hnext : ∀ a, (next a).map view =
      (inOrder rest).map fun values => extend (encode a :: values)) :
    (step >>= next).map view = (inOrder (kept :: rest)).map extend := by
  subst hkept
  cases step with
  | error fault => rfl
  | ok a =>
      refine (hnext a).trans ?_
      cases h : inOrder rest <;> simp [inOrder, Except.map, h]

/-- The same where the value of the first step is read from what was looked up before. -/
theorem map_bind_bind_eq_inOrder {lookup : Except Fault γ} {step : γ → Except Fault α}
    {next : α → Except Fault β} {view : β → δ} {kept : Except Fault Value}
    {rest : List (Except Fault Value)} {extend : List Value → δ} (encode : α → Value)
    (hkept : kept = lookup >>= fun found => (step found).map encode)
    (hnext : ∀ a, (next a).map view =
      (inOrder rest).map fun values => extend (encode a :: values)) :
    (lookup >>= fun found => step found >>= next).map view =
      (inOrder (kept :: rest)).map extend := by
  cases lookup with
  | error fault => rw [hkept]; rfl
  | ok found =>
      change (step found >>= next).map view = _
      exact map_bind_eq_inOrder encode hkept hnext

namespace Resolve

/-- Reads a key from merged layers as the value of its field. -/
def readKey (host : Host) (merged : Entries) (key : SettingKey) : Except Fault Value :=
  setting merged key.name >>= key.read host

/-- Fails if scalars are strict although a layer sets a default type. -/
def exclusion (merged : Entries) (raw overrides : Value) : Except Fault Value :=
  match booleanSetting merged "strictScalars" with
  | .ok true =>
    if Layers.sets raw "defaultScalarType" || Layers.sets overrides "defaultScalarType" then
      .error (.config .strictWithDefault)
    else .ok .null
  | _ => .ok .null

/-- Fails if the keys that no default knows cannot be put in order. -/
def ordering (defaults : Value) (merged : Entries) : Except Fault Value :=
  match Value.sorted? ((extras defaults merged).map (·.1)) with
  | none => .error .unorderedKeys
  | some _ => .ok .null

/-- The steps of a resolution, in order. -/
def steps (host : Host) (defaults raw overrides : Value) (merged : Entries) :
    List (Except Fault Value) :=
  readKey host merged .strictScalars :: exclusion merged raw overrides ::
    readKey host merged .namingConvention :: ordering defaults merged ::
      SettingKey.later.map (readKey host merged)

/-- Reading a key is one of the steps. -/
theorem readKey_mem_steps {host : Host} {defaults raw overrides : Value} {merged : Entries}
    (key : SettingKey) : readKey host merged key ∈ steps host defaults raw overrides merged := by
  refine SettingKey.forall_of_later (P := fun key => readKey host merged key ∈
    steps host defaults raw overrides merged) ?_ ?_ (fun key hkey => ?_) key
  · simp [steps]
  · simp [steps]
  · simp only [steps, List.mem_cons]
    exact .inr (.inr (.inr (.inr (List.mem_map_of_mem hkey))))

/-- What the steps come to that lead to a configuration. -/
def trail (c : Configuration) : List Value :=
  c.field .strictScalars :: .null :: c.field .namingConvention :: .null ::
    SettingKey.later.map c.field

theorem booleanSetting_map (merged : Entries) (key : String) (encode : Bool → Value) :
    (booleanSetting merged key).map encode =
      setting merged key >>= fun value => (Setting.boolean value key).map encode := by
  rw [booleanSetting]
  cases setting merged key <;> rfl

theorem textSetting_map (merged : Entries) (key : String) (encode : String → Value) :
    (textSetting merged key).map encode =
      setting merged key >>= fun value => (Setting.text value key).map encode := by
  rw [textSetting]
  cases setting merged key <;> rfl

theorem listSetting_bind (merged : Entries) (key : String)
    (next : List Value → Except Fault Value) :
    listSetting merged key >>= next =
      setting merged key >>= fun value => Setting.list value key >>= next := by
  rw [listSetting]
  cases setting merged key <;> rfl

/-- Reading what is left reads one key after the other and keeps what was settled. -/
theorem map_read (host : Host) (settled : Settled) (extras : Entries) :
    (read settled extras).map (fun c => (trail c, c.extras)) =
      (inOrder (SettingKey.later.map (readKey host settled.merged))).map fun values =>
        (.boolean settled.strictScalars :: .null :: settled.convention.toValue :: .null :: values,
          Value.freezeEntries extras) := by
  have hboolean (key : SettingKey)
      (hkey : key.read host = fun value => (Setting.boolean value key.name).map .boolean) :
      readKey host settled.merged key = (booleanSetting settled.merged key.name).map .boolean := by
    rw [booleanSetting_map, readKey, hkey]
  have htext (key : SettingKey)
      (hkey : key.read host = fun value => (Setting.text value key.name).map .text) :
      readKey host settled.merged key = (textSetting settled.merged key.name).map .text := by
    rw [textSetting_map, readKey, hkey]
  simp only [SettingKey.later, List.map_cons, List.map_nil]
  refine map_bind_bind_eq_inOrder ScalarTable.toValue rfl fun scalars => ?_
  refine map_bind_bind_eq_inOrder .text rfl fun defaultType => ?_
  refine map_bind_eq_inOrder .text (htext .typesPrefix rfl) fun typesPrefix => ?_
  refine map_bind_eq_inOrder .text (htext .typesSuffix rfl) fun typesSuffix => ?_
  refine map_bind_eq_inOrder (fun b => .boolean !b) (booleanSetting_map ..).symm
    fun skipTypename => ?_
  refine map_bind_eq_inOrder .boolean (hboolean .nonOptionalTypename rfl) fun nonOptional => ?_
  refine map_bind_eq_inOrder .boolean (hboolean .omitOperationSuffix rfl) fun omitSuffix => ?_
  refine map_bind_eq_inOrder .boolean (hboolean .dedupeOperationSuffix rfl) fun dedupeSuffix => ?_
  refine map_bind_eq_inOrder .text (htext .fragmentVariableSuffix rfl) fun variableSuffix => ?_
  refine map_bind_eq_inOrder .text (htext .fragmentVariablePrefix rfl) fun variablePrefix => ?_
  refine map_bind_bind_eq_inOrder
    (fun fragments => .tuple (fragments.map ExternalFragment.toValue))
    (listSetting_bind ..).symm fun fragments => ?_
  refine map_bind_bind_eq_inOrder (fun imports => .tuple (imports.map FragmentImport.toValue))
    (listSetting_bind ..).symm fun imports => ?_
  refine map_bind_eq_inOrder .boolean (hboolean .dedupeFragments rfl) fun dedupe => ?_
  refine map_bind_eq_inOrder .boolean (hboolean .allowEnumStringTypes rfl) fun allowEnum => ?_
  refine map_bind_bind_eq_inOrder .typing rfl fun typing => ?_
  refine map_bind_eq_inOrder .boolean (hboolean .immutableTypes rfl) fun immutableTypes => ?_
  refine map_bind_eq_inOrder .boolean (hboolean .useTypeImports rfl) fun useTypeImports => ?_
  refine map_bind_eq_inOrder .boolean (hboolean .globalNamespace rfl) fun globalNamespace => ?_
  rfl

theorem exclusion_eq_map (merged : Entries) (raw overrides : Value) :
    exclusion merged raw overrides = (exclusion merged raw overrides).map fun _ => .null := by
  rw [exclusion]
  split
  · split <;> rfl
  · rfl

theorem ordering_eq_map (defaults : Value) (merged : Entries) :
    ordering defaults merged = (ordering defaults merged).map fun _ => .null := by
  rw [ordering]
  split <;> rfl

/-- Strictness, the exclusion and the convention are settled one after the other. -/
theorem settle_eq {host : Host} {defaults raw overrides : Value} {merged : Entries}
    (hmerged : Layers.merged defaults raw overrides = .ok merged) :
    settle host defaults raw overrides =
      booleanSetting merged "strictScalars" >>= fun strict =>
        exclusion merged raw overrides >>= fun _ =>
          setting merged "namingConvention" >>= fun value =>
            Convention.ofValue host value >>= fun convention =>
              pure ⟨merged, strict, convention⟩ := by
  rw [settle, hmerged, exclusion]
  change (booleanSetting merged "strictScalars" >>= _) = _
  cases hstrict : booleanSetting merged "strictScalars" with
  | error fault => rfl
  | ok strict =>
      cases strict with
      | false => rfl
      | true =>
          cases Layers.sets raw "defaultScalarType" ||
            Layers.sets overrides "defaultScalarType" <;> rfl

theorem outcome_run (host : Host) (defaults raw overrides : Value) :
    (run host defaults raw overrides).outcome =
      settle host defaults raw overrides >>= fun settled =>
        ordering defaults settled.merged >>= fun _ =>
          read settled (extras defaults settled.merged) := by
  rw [run]
  cases settle host defaults raw overrides with
  | error fault => rfl
  | ok settled =>
      change _ = (ordering defaults settled.merged >>= fun _ => _)
      rw [ordering]
      cases hsorted : Value.sorted? ((extras defaults settled.merged).map (·.1)) with
      | none => simp [hsorted]; rfl
      | some keys => cases keys <;> simp [hsorted] <;> rfl

/-- Where a resolution succeeds, all three layers are mappings, and they were merged. -/
theorem entries_of_run {host : Host} {defaults raw overrides : Value} {c : Configuration}
    (h : (run host defaults raw overrides).outcome = .ok c) :
    ∃ upper lower known, Layers.entries (Layers.orEmpty overrides) = .ok upper ∧
      Layers.entries (Layers.orEmpty raw) = .ok lower ∧ Layers.entries defaults = .ok known ∧
        Layers.merged defaults raw overrides = .ok (Layers.union [upper, lower, known]) := by
  rw [outcome_run] at h
  obtain ⟨settled, hsettled, -⟩ := bind_eq_ok_iff.1 h
  obtain ⟨merged, hmerged, -⟩ := bind_eq_ok_iff.1 hsettled
  obtain ⟨upper, hupper, hrest⟩ := bind_eq_ok_iff.1 hmerged
  obtain ⟨lower, hlower, hrest⟩ := bind_eq_ok_iff.1 hrest
  obtain ⟨known, hknown, hrest⟩ := bind_eq_ok_iff.1 hrest
  obtain rfl : Layers.union [upper, lower, known] = merged := Except.ok.inj hrest
  exact ⟨upper, lower, known, hupper, hlower, hknown, hmerged⟩

/-- A resolution comes to what its steps come to in order. -/
theorem map_run (host : Host) {defaults raw overrides : Value} {merged : Entries}
    (hmerged : Layers.merged defaults raw overrides = .ok merged) :
    (run host defaults raw overrides).outcome.map (fun c => (trail c, c.extras)) =
      (inOrder (steps host defaults raw overrides merged)).map fun values =>
        (values, Value.freezeEntries (extras defaults merged)) := by
  rw [outcome_run, settle_eq hmerged]
  simp only [bind_assoc, pure_bind]
  refine map_bind_eq_inOrder .boolean (booleanSetting_map ..).symm fun strict => ?_
  refine map_bind_eq_inOrder (fun _ => .null) (exclusion_eq_map ..) fun _ => ?_
  refine map_bind_bind_eq_inOrder Convention.toValue rfl fun convention => ?_
  refine map_bind_eq_inOrder (fun _ => .null) (ordering_eq_map ..) fun _ => ?_
  exact map_read host ⟨merged, strict, convention⟩ (extras defaults merged)

/-- A configuration is the outcome exactly if every key is read as the field that it drives, the
other steps pass, and the extras are what no default knows. -/
theorem run_eq_ok_iff {host : Host} {defaults raw overrides : Value} {merged : Entries}
    (hmerged : Layers.merged defaults raw overrides = .ok merged) (c : Configuration) :
    (run host defaults raw overrides).outcome = .ok c ↔
      (∀ key, readKey host merged key = .ok (c.field key)) ∧
        exclusion merged raw overrides = .ok .null ∧ ordering defaults merged = .ok .null ∧
          c.extras = Value.freezeEntries (extras defaults merged) := by
  have hrun := map_run host hmerged
  constructor
  · intro h
    rw [h] at hrun
    obtain ⟨values, hvalues, hpair⟩ : ∃ values,
        inOrder (steps host defaults raw overrides merged) = .ok values ∧
          (values, Value.freezeEntries (extras defaults merged)) = (trail c, c.extras) := by
      cases hsteps : inOrder (steps host defaults raw overrides merged) with
      | error fault => simp [hsteps, Except.map] at hrun
      | ok values => exact ⟨values, rfl, by simpa [hsteps, Except.map, eq_comm] using hrun⟩
    obtain ⟨rfl, hextras⟩ := Prod.mk.inj hpair
    have hsteps := inOrder_eq_ok_iff.1 hvalues
    simp only [steps, trail, List.map_cons, List.map_map, List.cons.injEq,
      List.map_inj_left] at hsteps
    obtain ⟨hstrict, hexclusion, hconvention, hordering, hlater⟩ := hsteps
    exact ⟨SettingKey.forall_of_later hstrict hconvention hlater, hexclusion, hordering,
      hextras.symm⟩
  · rintro ⟨hkeys, hexclusion, hordering, hextras⟩
    have hsteps : steps host defaults raw overrides merged = (trail c).map .ok := by
      simp [steps, trail, hkeys, hexclusion, hordering]
    rw [inOrder_eq_ok_iff.2 hsteps] at hrun
    cases hd : (run host defaults raw overrides).outcome with
    | error fault => simp [hd, Except.map] at hrun
    | ok d =>
        obtain ⟨htrail, hextras'⟩ : trail d = trail c ∧ d.extras = c.extras := by
          simpa [hd, Except.map, hextras] using hrun
        simp only [trail, List.cons.injEq, List.map_inj_left, true_and] at htrail
        obtain ⟨hstrict, hconvention, hlater⟩ := htrail
        have hfields := SettingKey.forall_of_later hstrict hconvention hlater
        exact congrArg _ (Configuration.ext_field hfields hextras')

/-- The fault of a resolution is that of its first failing step. -/
theorem faultOf_run {host : Host} {defaults raw overrides : Value} {merged : Entries}
    (hmerged : Layers.merged defaults raw overrides = .ok merged) :
    faultOf (run host defaults raw overrides).outcome =
      (steps host defaults raw overrides merged).findSome? faultOf := by
  have hrun := congrArg faultOf (map_run host hmerged)
  rw [faultOf_map, faultOf_map, faultOf_inOrder] at hrun
  exact hrun

end Resolve

end Nomenclature
