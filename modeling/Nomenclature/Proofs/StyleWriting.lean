import Nomenclature.Namer
import Nomenclature.Proofs.Resolution
import Nomenclature.Proofs.Separators

/-!
# Writing names

A writer can be built wherever both strategies of a convention resolve, and it writes the names of a
category by the function that the strategy comes to. The strategy that keeps names, for which a
writer has no function, is no exception: it writes what the style of that name would. Where the
strategy comes to a built-in style, writing never fails, and what is written depends on the style,
the underscore policy and the text alone.
-/

namespace Nomenclature

namespace CaseStyle

/-- What a style makes of a text under an underscore policy: of the whole where underscores are
transformed, of the pieces between them where they are not. -/
def applyUnder (style : CaseStyle) (transformUnderscore : Bool) (cs : List Char) : List Char :=
  if transformUnderscore then style.apply cs
  else ['_'].intercalate ((cs.splitOn '_').map style.apply)

theorem applyUnder_true (style : CaseStyle) (cs : List Char) :
    style.applyUnder true cs = style.apply cs := rfl

theorem applyUnder_false (style : CaseStyle) (cs : List Char) :
    style.applyUnder false cs = ['_'].intercalate ((cs.splitOn '_').map style.apply) := rfl

theorem applyUnder_keep (transformUnderscore : Bool) (cs : List Char) :
    keep.applyUnder transformUnderscore cs = cs := by
  cases transformUnderscore with
  | true => rfl
  | false =>
      have hkeep : keep.apply = id := rfl
      rw [applyUnder_false, hkeep, List.map_id, List.intercalate_splitOn]

/-- The part of a text that a style sees together with what is joined at the end. -/
def lastSeen (transformUnderscore : Bool) (cs : List Char) : List Char :=
  if transformUnderscore then cs else cs.rtakeWhile (· != '_')

/-- What a style writes at the end of the part that it sees stands at the end of the whole. -/
theorem applyUnder_append {style : CaseStyle} {transformUnderscore : Bool}
    {cs word ending : List Char} (hword : '_' ∉ word)
    (h : style.apply (lastSeen transformUnderscore cs ++ word) =
      style.apply (lastSeen transformUnderscore cs) ++ ending) :
    style.applyUnder transformUnderscore (cs ++ word) =
      style.applyUnder transformUnderscore cs ++ ending := by
  cases transformUnderscore with
  | true => exact h
  | false =>
      obtain ⟨front, hsplit⟩ := exists_splitOn_append '_' cs
      have hwhole : cs.splitOn '_' = front ++ [lastSeen false cs] := by
        simpa [lastSeen] using hsplit [] List.not_mem_nil
      have hlonger : (cs ++ word).splitOn '_' = front ++ [lastSeen false cs ++ word] :=
        hsplit word hword
      rw [applyUnder_false, applyUnder_false, hwhole, hlonger, List.map_append, List.map_append,
        List.map_singleton, List.map_singleton, h]
      apply intercalate_concat_append

end CaseStyle

namespace NameWriter

variable {host : Host}

theorem toList_underscored (parts : List String) :
    (underscored parts).toList = ['_'].intercalate (parts.map String.toList) :=
  String.toList_intercalate

theorem appliedEach_style (style : CaseStyle) (parts : List String) :
    appliedEach host (.style style) parts = .ok (parts.map style.write) := by
  induction parts with
  | nil => rfl
  | cons s rest ih =>
      rw [appliedEach, ih]
      rfl

theorem writeText_style (style : CaseStyle) (transformUnderscore : Bool) (s : String) :
    writeText host (.style style) transformUnderscore s =
      .ok (String.ofList (style.applyUnder transformUnderscore s.toList)) := by
  cases transformUnderscore with
  | true => rfl
  | false =>
      rw [writeText, if_neg Bool.false_ne_true, appliedEach_style, CaseStyle.applyUnder_false]
      have hwrite : (String.toList ∘ style.write) ∘ String.ofList = style.apply := by
        funext piece
        simp [CaseStyle.write]
      apply congrArg Except.ok
      rw [← String.toList_inj, toList_underscored, pieces, List.map_map, List.map_map, hwrite,
        String.toList_ofList]

theorem of_ofConvention {convention : Convention} {writer : NameWriter}
    (h : ofConvention host convention = .ok writer) :
    writer.convention = convention ∧ ∀ category,
      function host (convention.strategyOf category) = .ok (writer.functionFor category) := by
  obtain ⟨typeNames, htypes, h⟩ := bind_eq_ok_iff.1 h
  obtain ⟨enumValues, henums, h⟩ := bind_eq_ok_iff.1 h
  obtain rfl := Except.ok.inj h
  refine ⟨rfl, fun category => ?_⟩
  cases category with
  | typeNames => exact htypes
  | enumValues => exact henums

theorem resolve_identity : Strategy.identity.resolve host = .ok (.style .keep) := by
  rw [Strategy.identity, Strategy.resolve, Strategy.resolveName]
  rfl

theorem writeText_keep (transformUnderscore : Bool) (s : String) :
    writeText host (.style .keep) transformUnderscore s = .ok s := by
  rw [writeText_style, CaseStyle.applyUnder_keep, String.ofList_toList]

theorem function_eq {strategy : Strategy} {f : Callable} (hf : strategy.resolve host = .ok f) :
    function host strategy = .ok (if strategy = Strategy.identity then none else some f) := by
  rw [function, hf]
  split <;> rfl

/-- A writer can be built from a convention of which both strategies resolve. -/
theorem exists_ofConvention {convention : Convention}
    (h : ∀ category, ∃ f, (convention.strategyOf category).resolve host = .ok f) :
    ∃ writer, ofConvention host convention = .ok writer := by
  obtain ⟨typeNames, htypes⟩ := h .typeNames
  obtain ⟨enumValues, henums⟩ := h .enumValues
  have hfirst : function host convention.typeNames = .ok _ := function_eq htypes
  have hsecond : function host convention.enumValues = .ok _ := function_eq henums
  rw [ofConvention, hfirst, hsecond]
  exact ⟨_, rfl⟩

section Writing

variable {convention : Convention} {writer : NameWriter} {category : NameCategory}

theorem functionFor_eq {f : Callable} (hwriter : ofConvention host convention = .ok writer)
    (hf : (convention.strategyOf category).resolve host = .ok f) :
    writer.functionFor category =
      if convention.strategyOf category = Strategy.identity then none else some f :=
  Except.ok.inj (((of_ofConvention hwriter).2 category).symm.trans (function_eq hf))

/-- Names are written by the function that the strategy of their category comes to, those that are
kept as well. -/
theorem write_eq_writeText {f : Callable} (hwriter : ofConvention host convention = .ok writer)
    (hf : (convention.strategyOf category).resolve host = .ok f) (name : String)
    (policy : Option Bool) :
    writer.write host category name policy =
      writeText host f (policy.getD convention.transformUnderscore.isTruthy) name := by
  rw [write, functionFor_eq hwriter hf, (of_ofConvention hwriter).1]
  by_cases hidentity : convention.strategyOf category = Strategy.identity
  · rw [hidentity, resolve_identity] at hf
    rw [if_pos hidentity, ← Except.ok.inj hf, writeText_keep]
  · rw [if_neg hidentity]

/-- Names of a category whose strategy comes to a built-in style are written in that style. -/
theorem write_of_style {style : CaseStyle} (hwriter : ofConvention host convention = .ok writer)
    (hstyle : (convention.strategyOf category).resolve host = .ok (.style style))
    (name : String) (policy : Option Bool) :
    writer.write host category name policy = .ok (String.ofList
      (style.applyUnder (policy.getD convention.transformUnderscore.isTruthy) name.toList)) := by
  rw [write_eq_writeText hwriter hstyle, writeText_style]

end Writing

end NameWriter

namespace Namer

variable {host : Host} {c : Configuration} {namer : Namer}

theorem of_ofConfiguration (h : ofConfiguration host c = .ok namer) :
    namer.configuration = c ∧ NameWriter.ofConvention host c.convention = .ok namer.writer := by
  obtain ⟨writer, hwriter, h⟩ := bind_eq_ok_iff.1 h
  obtain rfl := Except.ok.inj h
  exact ⟨rfl, hwriter⟩

theorem exists_ofConfiguration
    (h : ∀ category, ∃ f, (c.convention.strategyOf category).resolve host = .ok f) :
    ∃ namer, ofConfiguration host c = .ok namer := by
  obtain ⟨writer, hwriter⟩ := NameWriter.exists_ofConvention h
  exact ⟨_, bind_eq_ok_iff.2 ⟨writer, hwriter, rfl⟩⟩

/-- An identifier of a category whose strategy comes to a built-in style. -/
theorem identifier_of_style {source : NameSource} {options : NameOptions} {category : NameCategory}
    {style : CaseStyle} (hnamer : ofConfiguration host c = .ok namer)
    (hcategory : options.category.getD source.category = category)
    (hstyle : (c.convention.strategyOf category).resolve host = .ok (.style style)) :
    namer.identifier host source options = .ok
      ((if options.useTypesPrefix then c.typesPrefix else "") ++
        String.ofList (style.applyUnder
          (options.transformUnderscore.getD c.convention.transformUnderscore.isTruthy)
          (options.lead ++ source.name ++ options.tail).toList) ++
        if options.useTypesSuffix then c.typesSuffix else "") := by
  obtain ⟨rfl, hwriter⟩ := of_ofConfiguration hnamer
  rw [identifier, hcategory, NameWriter.write_of_style hwriter hstyle]
  rfl

end Namer

end Nomenclature
