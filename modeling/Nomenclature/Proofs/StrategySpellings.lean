import Nomenclature.Proofs.StrategyReferences

/-!
# Spellings of a style

A built-in style is given by its name, by its name behind one of the customary modules, or as the
function itself. A convention may use any of them: what its writer makes of a name depends on the
style and the underscore policy alone. The plain name of the style that keeps names is the one
spelling for which a writer has no function, and the pieces between underscores, put back together,
are the name again. A name that no style has is refused in every spelling.
-/

namespace Nomenclature

namespace Strategy

variable {host : Host} {name spelled : String} {style : CaseStyle} {spelling : Strategy}

/-- The name of a style, plain and behind the modules of the styles. -/
def styleNames (name : String) : List String :=
  name :: styleModules.map fun home => home ++ "#" ++ name

/-- The ways to give a style. -/
def spellings (style : CaseStyle) : List Strategy :=
  function (.style style) :: (styleNames style.name).map named

/-- In every spelling, the name alone is looked up. -/
theorem resolveName_of_mem_styleNames (hname : name ≠ "") (hplain : '#' ∉ name.toList)
    (h : spelled ∈ styleNames name) : resolveName host spelled = Strategy.style name spelled := by
  rcases List.mem_cons.1 h with rfl | h
  · exact resolveName_of_not_mem hplain
  · obtain ⟨home, hhome, rfl⟩ := List.mem_map.1 h
    obtain ⟨hnamed, hundivided⟩ := styleModules_plain home hhome
    rw [resolveName_reference hundivided, if_neg (not_or.2 ⟨hnamed, hname⟩), if_pos hhome]

theorem ne_empty_of_mem_styleNames (hname : name ≠ "") (h : spelled ∈ styleNames name) :
    spelled ≠ "" := by
  rcases List.mem_cons.1 h with rfl | h
  · exact hname
  · obtain ⟨home, -, rfl⟩ := List.mem_map.1 h
    simp

theorem resolve_of_mem_spellings (host : Host) (h : spelling ∈ spellings style) :
    spelling.resolve host = .ok (.style style) := by
  rcases List.mem_cons.1 h with rfl | h
  · rfl
  · obtain ⟨spelled, hspelled, rfl⟩ := List.mem_map.1 h
    rw [resolve, resolveName_of_mem_styleNames style.name_plain.1 style.name_plain.2 hspelled]
    exact style_eq_ok_iff.2 ⟨style, rfl, rfl⟩

end Strategy

namespace Convention

variable {host : Host} {convention : Convention} {category : NameCategory} {strategy : Strategy}

/-- The convention with another strategy for a category. -/
def withStrategy (convention : Convention) (category : NameCategory) (strategy : Strategy) :
    Convention :=
  match category with
  | .typeNames => { convention with typeNames := strategy }
  | .enumValues => { convention with enumValues := strategy }

@[simp]
theorem strategyOf_withStrategy :
    (convention.withStrategy category strategy).strategyOf category = strategy := by
  cases category <;> rfl

theorem strategyOf_withStrategy_of_ne {other : NameCategory} (h : other ≠ category) :
    (convention.withStrategy category strategy).strategyOf other = convention.strategyOf other := by
  cases category <;> cases other <;> first | rfl | exact absurd rfl h

@[simp]
theorem transformUnderscore_withStrategy :
    (convention.withStrategy category strategy).transformUnderscore =
      convention.transformUnderscore := by
  cases category <;> rfl

/-- What the convention makes of a name in a style, its own underscore policy holding unless another
one is given. -/
def styled (convention : Convention) (style : CaseStyle) (policy : Option Bool) (name : String) :
    String :=
  String.ofList
    (style.applyUnder (policy.getD convention.transformUnderscore.isTruthy) name.toList)

theorem styled_keep (policy : Option Bool) (name : String) :
    convention.styled .keep policy name = name := by
  rw [styled, CaseStyle.applyUnder_keep, String.ofList_toList]

/-- The strategies of all other categories resolve. -/
def ResolvesBeside (host : Host) (convention : Convention) (category : NameCategory) : Prop :=
  ∀ other ≠ category, ∃ f, (convention.strategyOf other).resolve host = .ok f

end Convention

namespace NameWriter

variable {host : Host} {convention : Convention} {category : NameCategory} {strategy : Strategy}

theorem function_of_error {fault : Fault} (h : strategy.resolve host = .error fault) :
    function host strategy = .error fault := by
  have hidentity : strategy ≠ Strategy.identity := by
    rintro rfl
    rw [resolve_identity] at h
    cases h
  rw [function, if_neg hidentity, h]
  rfl

/-- A strategy that resolves can take the place of the strategy of a category. -/
theorem exists_ofConvention_withStrategy (hrest : convention.ResolvesBeside host category)
    {f : Callable} (hf : strategy.resolve host = .ok f) :
    ∃ writer, ofConvention host (convention.withStrategy category strategy) = .ok writer := by
  refine exists_ofConvention fun other => ?_
  by_cases hother : other = category
  · exact ⟨f, by rw [hother, Convention.strategyOf_withStrategy, hf]⟩
  · rw [Convention.strategyOf_withStrategy_of_ne hother]
    exact hrest other hother

/-- One that does not resolve fails in that place as it does by itself. -/
theorem ofConvention_withStrategy_of_error (hrest : convention.ResolvesBeside host category)
    {fault : Fault} (hfault : strategy.resolve host = .error fault) :
    ofConvention host (convention.withStrategy category strategy) = .error fault := by
  cases category with
  | typeNames =>
      rw [ofConvention, Convention.withStrategy, function_of_error hfault]
      rfl
  | enumValues =>
      obtain ⟨f, hf⟩ := hrest .typeNames (by decide)
      have hfirst : function host convention.typeNames = .ok _ := function_eq hf
      rw [ofConvention, Convention.withStrategy, hfirst, function_of_error hfault]
      rfl

/-- In whichever spelling a category has a style, a writer can be built, and what it makes of a name
is the same for all of them; kept names stay as they are, with a function and without. A name that
no style has is refused in every spelling. -/
theorem write_spellings (host : Host) (convention : Convention) (category : NameCategory)
    (hrest : convention.ResolvesBeside host category) :
    (∀ style, ∀ spelling ∈ Strategy.spellings style, ∃ writer,
      ofConvention host (convention.withStrategy category spelling) = .ok writer ∧
        writer.functionFor category =
          (if spelling = Strategy.identity then none else some (.style style)) ∧
        ∀ (source : NameSource) (policy : Option Bool),
          writer.write host category source.name policy =
            .ok (convention.styled style policy source.name) ∧
          (source.category = category → writer.writeSource host source policy =
            .ok (convention.styled style policy source.name))) ∧
      (∀ policy name, convention.styled .keep policy name = name) ∧
      ∀ name, name ≠ "" → '#' ∉ name.toList → (∀ style : CaseStyle, style.name ≠ name) →
        ∀ spelled ∈ Strategy.styleNames name,
          Strategy.resolveValue host (.text spelled) =
            .error (.config (.unknownStrategy spelled)) ∧
          ofConvention host (convention.withStrategy category (.named spelled)) =
            .error (.config (.unknownStrategy spelled)) := by
  refine ⟨fun style spelling hspelling => ?_, fun policy name => Convention.styled_keep policy name,
    fun name hname hplain hunknown spelled hspelled => ?_⟩
  · have hresolve := Strategy.resolve_of_mem_spellings host hspelling
    obtain ⟨writer, hwriter⟩ := exists_ofConvention_withStrategy hrest hresolve
    have hstyle : ((convention.withStrategy category spelling).strategyOf category).resolve host =
        .ok (.style style) := by
      rw [Convention.strategyOf_withStrategy, hresolve]
    have hwrite (source : NameSource) (policy : Option Bool) :
        writer.write host category source.name policy =
          .ok (convention.styled style policy source.name) := by
      rw [write_of_style hwriter hstyle, Convention.transformUnderscore_withStrategy,
        Convention.styled]
    refine ⟨writer, hwriter, ?_, fun source policy => ⟨hwrite source policy, ?_⟩⟩
    · rw [functionFor_eq hwriter hstyle, Convention.strategyOf_withStrategy]
    · rintro rfl
      exact hwrite source policy
  · have hresolve : Strategy.resolveName host spelled =
        .error (.config (.unknownStrategy spelled)) := by
      rw [Strategy.resolveName_of_mem_styleNames hname hplain hspelled,
        Strategy.style_of_forall_ne hunknown]
    refine ⟨?_, ofConvention_withStrategy_of_error hrest hresolve⟩
    rw [Strategy.resolveValue_text (Strategy.ne_empty_of_mem_styleNames hname hspelled), hresolve]
    rfl

/-- The standard strategies, applied to the pieces between underscores. -/
def piecewise : Convention :=
  ⟨Strategy.standard, Strategy.standard, .boolean false⟩

/-- A spelling of snake case for the values of enums, and a name of no style. -/
theorem write_spellings_piecewise :
    piecewise.ResolvesBeside Host.bare .enumValues ∧
      .named "change-case#snakeCase" ∈ Strategy.spellings .snake ∧
      (∃ writer, ofConvention Host.bare
          (piecewise.withStrategy .enumValues (.named "change-case#snakeCase")) = .ok writer ∧
        writer.write Host.bare .enumValues "_userId__X" none = .ok "_user_id__x") ∧
      "kebabCase" ≠ "" ∧ '#' ∉ "kebabCase".toList ∧
      (∀ style : CaseStyle, style.name ≠ "kebabCase") ∧
      "change-case#kebabCase" ∈ Strategy.styleNames "kebabCase" ∧
      ofConvention Host.bare
          (piecewise.withStrategy .enumValues (.named "change-case#kebabCase")) =
        .error (.config (.unknownStrategy "change-case#kebabCase")) := by
  have hrest : piecewise.ResolvesBeside Host.bare .enumValues := by
    intro other hother
    cases other with
    | typeNames => exact ⟨.style .pascal, rfl⟩
    | enumValues => exact absurd rfl hother
  have hspelling : .named "change-case#snakeCase" ∈ Strategy.spellings .snake := by
    decide
  have hunknown : ∀ style : CaseStyle, style.name ≠ "kebabCase" := by
    intro style
    cases style <;> decide
  have hspelled : "change-case#kebabCase" ∈ Strategy.styleNames "kebabCase" := by
    decide
  obtain ⟨hknown, -, hrefused⟩ := write_spellings Host.bare piecewise .enumValues hrest
  obtain ⟨writer, hwriter, -, hwrite⟩ := hknown .snake _ hspelling
  refine ⟨hrest, hspelling, ⟨writer, hwriter, ?_⟩, by decide, by decide, hunknown, hspelled, ?_⟩
  · exact (hwrite (.text "_userId__X") none).1
  · exact (hrefused "kebabCase" (by decide) (by decide) hunknown _ hspelled).2

end NameWriter

end Nomenclature
