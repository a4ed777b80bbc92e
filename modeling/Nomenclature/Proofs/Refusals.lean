import Nomenclature.Proofs.Readers

/-!
# Refusals

Whatever value it is given, a reader accepts it or refuses it with a fault of the configuration. So
do the readers of all keys but that of the naming convention, which may lead to a module of the
host: what fails there is no matter of the configuration.
-/

namespace Nomenclature

variable {α β : Type}

/-- The one way in which a step fails is that something in the configuration is refused. -/
def OnlyRefuses (step : Except Fault α) : Prop :=
  ∀ fault, step = .error fault → ∃ cause, fault = .config cause

namespace OnlyRefuses

theorem ok (a : α) : OnlyRefuses (.ok a) :=
  fun _ h => nomatch h

theorem refusal (cause : ConfigFault) : OnlyRefuses (.error (.config cause) : Except Fault α) :=
  fun _ h => ⟨cause, (Except.error.inj h).symm⟩

theorem bind {step : Except Fault α} {next : α → Except Fault β} (hstep : OnlyRefuses step)
    (hnext : ∀ a, step = .ok a → OnlyRefuses (next a)) : OnlyRefuses (step >>= next) := by
  cases step with
  | error fault => exact fun _ h => hstep _ (congrArg Except.error (Except.error.inj h))
  | ok a => exact hnext a rfl

theorem map {step : Except Fault α} (hstep : OnlyRefuses step) (f : α → β) :
    OnlyRefuses (step.map f) := by
  cases step with
  | error fault => exact fun _ h => hstep _ (congrArg Except.error (Except.error.inj h))
  | ok a => exact ok (f a)

end OnlyRefuses

theorem onlyRefuses_iff {step : Except Fault α} :
    OnlyRefuses step ↔ ∀ fault, faultOf step = some fault → ∃ cause, fault = .config cause := by
  cases step <;> simp [OnlyRefuses, faultOf]

section Readers

theorem Setting.onlyRefuses_boolean (value : Value) (path : String) :
    OnlyRefuses (boolean value path) := by
  simp only [boolean]
  split
  · exact .ok _
  · split
    · split
      · exact .ok _
      · exact .refusal _
    · exact .refusal _

theorem Setting.onlyRefuses_text (value : Value) (path : String) :
    OnlyRefuses (text value path) := by
  rw [text]
  split
  · exact .ok _
  · exact .refusal _

theorem Setting.onlyRefuses_list (value : Value) (path : String) :
    OnlyRefuses (list value path) := by
  rw [list]
  split
  · exact .ok _
  · exact .refusal _

theorem Setting.onlyRefuses_items {read : Value → String → Except Fault α}
    (hread : ∀ value path, OnlyRefuses (read value path)) (path : String) (index : Nat)
    (listed : List Value) : OnlyRefuses (items read path index listed) := by
  induction listed generalizing index with
  | nil => exact .ok []
  | cons item rest ih =>
      refine .bind (hread item _) fun first _ => ?_
      exact .bind (ih (index + 1)) fun others _ => .ok (first :: others)

theorem ScalarTypes.onlyRefuses_ofValue (value : Value) (path : String) :
    OnlyRefuses (ofValue value path) := by
  unfold ofValue
  split
  · exact .ok _
  · simp only [ofEntries]
    split
    · exact .refusal _
    · refine .bind (Setting.onlyRefuses_text _ _) fun input _ => ?_
      exact .bind (Setting.onlyRefuses_text _ _) fun output _ => .ok _
  · split
    · exact .ok _
    · exact .refusal _

theorem ScalarTable.onlyRefuses_overlay (known : ScalarTable) (entries : Entries) :
    OnlyRefuses (overlay known entries) := by
  induction entries generalizing known with
  | nil => exact .ok known
  | cons entry rest ih => exact .bind (ScalarTypes.onlyRefuses_ofValue _ _) fun types _ => ih _

theorem ScalarTable.onlyRefuses_ofValue (value : Value) : OnlyRefuses (ofValue value) := by
  rw [ofValue]
  split
  · exact onlyRefuses_overlay _ _
  · exact .refusal _

theorem ExternalFragment.onlyRefuses_ofValue (value : Value) (path : String) :
    OnlyRefuses (ofValue value path) := by
  unfold ofValue
  split
  · exact .ok _
  · split
    · refine .bind (Setting.onlyRefuses_text _ _) fun name _ => ?_
      refine .bind (Setting.onlyRefuses_text _ _) fun onType _ => ?_
      exact .bind (Setting.onlyRefuses_boolean _ _) fun isExternal _ => .ok _
    · exact .refusal _
  · exact .refusal _

theorem ImportedIdentifier.onlyRefuses_ofValue (value : Value) (path : String) :
    OnlyRefuses (ofValue value path) := by
  unfold ofValue
  split
  · exact .ok _
  · dsimp only
    split
    · exact .bind (Setting.onlyRefuses_text _ _) fun name _ => .ok _
    · exact .refusal _
  · exact .refusal _

theorem FragmentImport.onlyRefuses_nested (entries : Entries) (path : String) :
    OnlyRefuses (nested entries path) := by
  simp only [nested]
  split
  · split
    · exact .ok _
    · exact .refusal _
  · exact .ok _

theorem FragmentImport.onlyRefuses_readScope (value : Value) (path : String) :
    OnlyRefuses (readScope value path) := by
  rw [readScope]
  split
  · exact .ok _
  · exact .map (Setting.onlyRefuses_text _ _) Value.text

theorem FragmentImport.onlyRefuses_ofEntries (entries : Entries) (path : String) :
    OnlyRefuses (ofEntries entries path) := by
  rw [ofEntries_eq]
  refine .bind (onlyRefuses_nested entries path) fun inner _ => ?_
  refine .bind (onlyRefuses_readScope _ _) fun scope _ => ?_
  refine .bind (Setting.onlyRefuses_list _ _) fun listed _ => ?_
  refine .bind (Setting.onlyRefuses_items ImportedIdentifier.onlyRefuses_ofValue _ _ _)
    fun identifiers _ => ?_
  refine .bind (Setting.onlyRefuses_text _ _) fun baseDir _ => ?_
  refine .bind (Setting.onlyRefuses_text _ _) fun baseOutputDir _ => ?_
  refine .bind (Setting.onlyRefuses_text _ _) fun outputPath _ => ?_
  refine .bind (Setting.onlyRefuses_text _ _) fun importPath _ => ?_
  exact .bind (Setting.onlyRefuses_boolean _ _) fun typeImport _ => .ok _

theorem FragmentImport.onlyRefuses_ofValue (value : Value) (path : String) :
    OnlyRefuses (ofValue value path) := by
  unfold ofValue
  split
  · exact .ok _
  · exact onlyRefuses_ofEntries _ _
  · exact .refusal _

theorem Resolve.onlyRefuses_defaultScalarType (value : Value) :
    OnlyRefuses (defaultScalarType value) := by
  refine .bind (Setting.onlyRefuses_text _ _) fun type _ => ?_
  split
  · exact .refusal _
  · exact .ok _

theorem Resolve.onlyRefuses_fragmentTyping (value : Value) :
    OnlyRefuses (fragmentTyping value) := by
  rw [fragmentTyping]
  split
  · exact .ok _
  · exact .refusal _

/-- Every key but that of the convention is read or refused, whatever its value is. -/
theorem SettingKey.onlyRefuses_read (host : Host) {key : SettingKey} (hkey : key ≠ namingConvention)
    (value : Value) : OnlyRefuses (key.read host value) := by
  cases key
  case namingConvention => exact absurd rfl hkey
  case scalars => exact .map (ScalarTable.onlyRefuses_ofValue value) _
  case defaultScalarType => exact .map (Resolve.onlyRefuses_defaultScalarType value) _
  case inlineFragmentTypes => exact .map (Resolve.onlyRefuses_fragmentTyping value) _
  case externalFragments =>
    refine .bind (Setting.onlyRefuses_list _ _) fun listed _ => ?_
    exact .map (Setting.onlyRefuses_items ExternalFragment.onlyRefuses_ofValue _ _ _) _
  case fragmentImports =>
    refine .bind (Setting.onlyRefuses_list _ _) fun listed _ => ?_
    exact .map (Setting.onlyRefuses_items FragmentImport.onlyRefuses_ofValue _ _ _) _
  case typesPrefix | typesSuffix | fragmentVariableSuffix | fragmentVariablePrefix =>
    exact .map (Setting.onlyRefuses_text _ _) _
  all_goals exact .map (Setting.onlyRefuses_boolean _ _) _

end Readers

end Nomenclature
