import Nomenclature.Proofs.Readers
import Nomenclature.Proofs.StyleWriting

/-!
# What resolves can be used

Strategies are resolved twice: when a convention is read, to refuse it if one of them stands for
nothing, and when a writer is built. The two go by different cases, but the second cannot fail where
the first did not, and it comes to the same functions. So a namer is refused only where the
configuration is, with the same fault.
-/

namespace Nomenclature

namespace Convention

variable {host : Host} {value : Value} {convention : Convention}

/-- The strategy that a value gives to a category. -/
def strategyValue (value : Value) (category : NameCategory) : Value :=
  match value with
  | .convention typeNames enumValues _ =>
    match category with
    | .typeNames => typeNames
    | .enumValues => enumValues
  | .mapping _ entries =>
    (Entries.named entries category.tag).orElse Strategy.standard.toValue
  | value => value

theorem resolveValue_of_ofParts (strategy : NameCategory → Value) {underscore : Value}
    (h : ofParts host (strategy .typeNames) (strategy .enumValues) underscore = .ok convention)
    (category : NameCategory) :
    ∃ f, Strategy.resolveValue host (strategy category) =
      .ok (convention.strategyOf category, f) := by
  obtain ⟨first, second, hfirst, hsecond, rfl⟩ := ofParts_eq_ok_iff.1 h
  cases category with
  | typeNames => exact ⟨first.2, hfirst⟩
  | enumValues => exact ⟨second.2, hsecond⟩

/-- In every form that is accepted, the strategy of each category resolves. -/
theorem resolveValue_of_ofValue (h : ofValue host value = .ok convention)
    (category : NameCategory) :
    ∃ f, Strategy.resolveValue host (strategyValue value category) =
      .ok (convention.strategyOf category, f) := by
  have hparts : ∃ underscore, ofParts host (strategyValue value .typeNames)
      (strategyValue value .enumValues) underscore = .ok convention := by
    cases value
    case convention typeNames enumValues underscore => exact ⟨underscore, h⟩
    case mapping frozen entries =>
      obtain ⟨underscore, hparts⟩ := ofParts_of_ofEntries h
      exact ⟨.boolean underscore, hparts⟩
    all_goals
      simp only [ofValue] at h
      split at h
      · exact ⟨.boolean false, h⟩
      · cases h
  obtain ⟨underscore, hparts⟩ := hparts
  exact resolveValue_of_ofParts (strategyValue value) hparts category

end Convention

namespace NameWriter

variable {host : Host} {value : Value} {convention : Convention}

/-- A writer that applies to each category the function that its strategy stood for when the
convention was read from a value. -/
structure Applies (host : Host) (value : Value) (convention : Convention) (writer : NameWriter) :
    Prop where
  convention_eq : writer.convention = convention
  /-- The function found when the convention was read is held, unless names are kept, and is what
  writes the names of the category. -/
  validated : ∀ category, ∃ f,
    Strategy.resolveValue host (Convention.strategyValue value category) =
        .ok (convention.strategyOf category, f) ∧
      writer.functionFor category =
        (if convention.strategyOf category = Strategy.identity then none else some f) ∧
      ∀ name policy, writer.write host category name policy =
        writeText host f (policy.getD convention.transformUnderscore.isTruthy) name
  /-- The strategy that keeps names is the identity. -/
  kept : ∀ category, convention.strategyOf category = Strategy.identity →
    ∀ name policy, writer.write host category name policy = .ok name

theorem exists_applies (h : Convention.ofValue host value = .ok convention) :
    ∃ writer, ofConvention host convention = .ok writer ∧ Applies host value convention writer := by
  have hresolved (category : NameCategory) : ∃ f,
      Strategy.resolveValue host (Convention.strategyValue value category) =
          .ok (convention.strategyOf category, f) ∧
        (convention.strategyOf category).resolve host = .ok f := by
    obtain ⟨f, hf⟩ := Convention.resolveValue_of_ofValue h category
    exact ⟨f, hf, (Strategy.resolveValue_eq_ok_iff.1 hf).2⟩
  obtain ⟨writer, hwriter⟩ := exists_ofConvention fun category =>
    (hresolved category).imp fun _ hf => hf.2
  refine ⟨writer, hwriter, (of_ofConvention hwriter).1, ?_, ?_⟩
  · intro category
    obtain ⟨f, hvalue, hf⟩ := hresolved category
    exact ⟨f, hvalue, functionFor_eq hwriter hf, write_eq_writeText hwriter hf⟩
  · intro category hidentity name policy
    have hkeep : (convention.strategyOf category).resolve host = .ok (.style .keep) := by
      rw [hidentity, resolve_identity]
    rw [write_eq_writeText hwriter hkeep, writeText_keep]

end NameWriter

/-- The convention of a configuration was read from some value. -/
theorem Configuration.exists_ofValue {host : Host} {raw overrides : Value} {c : Configuration}
    (h : (Configuration.resolve host raw overrides).outcome = .ok c) :
    ∃ value, Convention.ofValue host value = .ok c.convention := by
  obtain ⟨upper, lower, known, -, -, -, hmerged⟩ := Resolve.entries_of_run h
  have hread := ((Resolve.run_eq_ok_iff hmerged c).1 h).1 .namingConvention
  obtain ⟨value, -, hvalue⟩ := bind_eq_ok_iff.1 hread
  obtain ⟨convention, hconvention, hfield⟩ := map_eq_ok_iff.1 hvalue
  obtain rfl : convention = c.convention := Convention.toValue_injective hfield
  exact ⟨value, hconvention⟩

namespace Namer

variable {host : Host} {raw overrides : Value} {c : Configuration}

theorem exists_of_resolve (h : (Configuration.resolve host raw overrides).outcome = .ok c) :
    ∃ namer, resolve host raw overrides = .ok namer ∧ namer.configuration = c := by
  obtain ⟨value, hvalue⟩ := Configuration.exists_ofValue h
  obtain ⟨writer, hwriter, -⟩ := NameWriter.exists_applies hvalue
  have hnamer : ofConfiguration host c = .ok ⟨c, writer, .ofConfiguration c⟩ :=
    bind_eq_ok_iff.2 ⟨writer, hwriter, rfl⟩
  exact ⟨_, bind_eq_ok_iff.2 ⟨c, h, hnamer⟩, rfl⟩

theorem resolve_eq_error_iff (host : Host) (raw overrides : Value) (fault : Fault) :
    resolve host raw overrides = .error fault ↔
      (Configuration.resolve host raw overrides).outcome = .error fault := by
  cases hc : (Configuration.resolve host raw overrides).outcome with
  | error found => simp only [resolve, hc, bind, Except.bind, Except.error.injEq]
  | ok c =>
      obtain ⟨namer, hnamer, -⟩ := exists_of_resolve hc
      rw [hnamer]
      exact ⟨nofun, nofun⟩

/-- Whatever resolves can be used. A namer is refused exactly where the configuration is, with the
same fault, and is one of that configuration otherwise. And a writer can be built from whatever is
read as a convention; it applies to each category the function that was found when the convention
was read. -/
theorem usable (host : Host) :
    (∀ raw overrides fault, resolve host raw overrides = .error fault ↔
      (Configuration.resolve host raw overrides).outcome = .error fault) ∧
    (∀ raw overrides c, (Configuration.resolve host raw overrides).outcome = .ok c →
      ∃ namer, resolve host raw overrides = .ok namer ∧ namer.configuration = c) ∧
    ∀ value convention, Convention.ofValue host value = .ok convention →
      ∃ writer, NameWriter.ofConvention host convention = .ok writer ∧
        NameWriter.Applies host value convention writer :=
  ⟨resolve_eq_error_iff host, fun _ _ _ => exists_of_resolve, fun _ _ => NameWriter.exists_applies⟩

def capitals : HostFunction :=
  ⟨"styles", "capitals", "styles#capitals", "<function capitals>", "function"⟩

/-- A host with one module, of which one function writes names in capitals. -/
def capitalsHost : Host :=
  ⟨[("styles", .loaded false [("capitals", .callable (.host capitals))])],
    fun _ s => .ok (.text (CaseStyle.upper.write s))⟩

/-- A convention by a module for types, and without any for the values of an enumeration. -/
def capitalsConvention : Value :=
  .mapping false [(.text "typeNames", .text "styles#capitals"), (.text "enumValues", .text "keep")]

/-- The function of the module is found twice, and is what types are written by. -/
theorem usable_of_capitals :
    (∃ convention writer, Convention.ofValue capitalsHost capitalsConvention = .ok convention ∧
      NameWriter.ofConvention capitalsHost convention = .ok writer ∧
      writer.write capitalsHost .typeNames "user_id" none = .ok "USER_ID" ∧
      writer.write capitalsHost .enumValues "user_id" none = .ok "user_id") ∧
    ∃ c namer,
      (Configuration.resolve capitalsHost
          (.mapping false [(.text "namingConvention", capitalsConvention)]) .null).outcome = .ok c ∧
        resolve capitalsHost (.mapping false [(.text "namingConvention", capitalsConvention)]) .null =
          .ok namer ∧
        namer.configuration = c := by
  obtain ⟨-, hnamer, hwriter⟩ := usable capitalsHost
  have hconvention : Convention.ofValue capitalsHost capitalsConvention =
      .ok ⟨.named "styles#capitals", .named "keep", .boolean false⟩ := by
    rfl
  have hfound : Strategy.resolveValue capitalsHost (.text "styles#capitals") =
      .ok (.named "styles#capitals", .host capitals) := by
    rfl
  constructor
  · obtain ⟨writer, hbuilt, happlies⟩ := hwriter _ _ hconvention
    refine ⟨_, writer, hconvention, hbuilt, ?_, happlies.kept .enumValues rfl _ _⟩
    obtain ⟨f, hf, -, hwrite⟩ := happlies.validated .typeNames
    obtain rfl : Callable.host capitals = f :=
      (Prod.mk.inj (Except.ok.inj (hfound.symm.trans hf))).2
    rw [hwrite]
    rfl
  · obtain ⟨c, hc⟩ : ∃ c, (Configuration.resolve capitalsHost
        (.mapping false [(.text "namingConvention", capitalsConvention)]) .null).outcome = .ok c :=
      ⟨_, rfl⟩
    obtain ⟨namer, hresolved, hconfiguration⟩ := hnamer _ _ c hc
    exact ⟨c, namer, hc, hresolved, hconfiguration⟩

end Namer

end Nomenclature
