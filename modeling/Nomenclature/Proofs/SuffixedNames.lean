import Nomenclature.Proofs.FragmentNames
import Nomenclature.Proofs.GluedWords

/-!
# Suffixes of operations and fragments

The suffix of an operation or a fragment is joined to a name before the case is converted. It begins
with a capital and goes on in lower case, so no ending of a name takes it up or divides it: it is
the last word of the whole, and the words before it are those of the name alone. What is written of
the name is therefore the same with the suffix as without, and behind it comes the suffix in the
case of the style. A style that puts underscores between words puts one there as well, unless it
sees no word before.
-/

namespace Nomenclature

open Text

namespace Word

/-- The suffixes of operations and fragments. -/
def suffixes : List String :=
  ["Query", "Mutation", "Subscription", "Fragment"]

theorem isCapitalised_of_mem_suffixes :
    ∀ suffix ∈ suffixes, isCapitalised suffix.toList = true := by
  decide

theorem ofText_append_suffix {suffix : String} (hsuffix : suffix ∈ suffixes) (name : String) :
    ofText (name ++ suffix) = ofText name ++ [suffix] := by
  rw [ofText, String.toList_append,
    ofChars_append_capitalised (isCapitalised_of_mem_suffixes suffix hsuffix), List.map_append,
    List.map_singleton, String.ofList_toList]
  rfl

/-- A capitalised word is written as it stands. -/
theorem capitalize_of_isCapitalised {word : List Char} (hword : isCapitalised word = true) :
    CaseStyle.capitalize word = word := by
  have hisWord : IsWord word := by
    refine ⟨?_, fun x hx => isWordChar_of_isAlpha (CaseStyle.isAlpha_of_mem_capitalised hword hx)⟩
    rintro rfl
    cases hword
  match word with
  | c :: d :: rest =>
      simp only [isCapitalised, Bool.and_eq_true, List.all_eq_true] at hword
      obtain ⟨⟨hc, hd⟩, hrest⟩ := hword
      have hfirst : letter true c = c :=
        letter_true_of_not_isLower (isLower_eq_false_of_isUpper hc)
      have hinside {x : Char} (hx : x.isLower = true) : letter false x = x := by
        apply letter_false_of_not_isUpper
        apply isUpper_eq_false_of_lower_or_digit
        rw [hx, Bool.true_or]
      have hothers : (d :: rest).map (letter false) = d :: rest := by
        calc
          (d :: rest).map (letter false) = (d :: rest).map id := by
            apply List.map_congr_left
            exact List.forall_mem_cons.2 ⟨hinside hd, fun x hx => hinside (hrest x hx)⟩
          _ = d :: rest := List.map_id _
      calc
        CaseStyle.capitalize (c :: d :: rest)
            = letter true c :: (d :: rest).map (letter false) := hisWord.capitalize_eq
        _ = c :: d :: rest := by rw [hfirst, hothers]

end Word

namespace CaseStyle

theorem apply_pascal_append {word : List Char} (hword : Word.isCapitalised word = true)
    (cs : List Char) : pascal.apply (cs ++ word) = pascal.apply cs ++ word := by
  simp only [apply]
  rw [Word.ofChars_append_capitalised hword, List.map_append, List.flatten_append,
    List.map_singleton, List.flatten_singleton, Word.capitalize_of_isCapitalised hword]

/-- A suffix as a style writes it, behind the underscore that a name calls for. -/
def separated (style : CaseStyle) (transformUnderscore : Bool) (name suffix : String) : String :=
  String.ofList
    (separatorAfter '_' (lastSeen transformUnderscore name.toList) ++ style.apply suffix.toList)

end CaseStyle

namespace Namer

open CaseStyle Word

/-- Behind a name as it is converted alone, a namer writes a suffix that is not left off in this
way. -/
structure WritesSuffixes (host : Host) (namer : Namer) (written : String → String → String) :
    Prop where
  operationName_eq : ∀ (node : Node) (operation : Operation),
    node.isOperationDefinition = true → node.operation = some operation →
      (namer.configuration.dedupeOperationSuffix && endsIn node.name operation.title) = false →
        ∃ converted, namer.writer.write host .typeNames node.name none = .ok converted ∧
          namer.operationName host (.node node) =
            .ok (namer.configuration.typesPrefix ++ converted ++
              written node.name operation.title ++ namer.configuration.typesSuffix)
  /-- The prefix of all types is not put before the name of a fragment. -/
  fragmentName_eq : ∀ source : NameSource, source.category = .typeNames →
    (namer.configuration.dedupeOperationSuffix && endsIn source.name "Fragment") = false →
      ∃ converted, namer.writer.write host .typeNames source.name none = .ok converted ∧
        namer.fragmentName host source =
          .ok (converted ++ written source.name "Fragment" ++ namer.configuration.typesSuffix)

section Names

variable {host : Host} {namer : Namer} {source : NameSource}

/-- An identifier under the policy and category that hold, with a suffix of its own. -/
theorem identifier_of_write {suffix written : String} (useTypesPrefix : Bool)
    (hwrite : namer.writer.write host source.category (source.name ++ suffix) none = .ok written) :
    namer.identifier host source
        { NameOptions.standard with tail := suffix, useTypesPrefix := useTypesPrefix } =
      .ok ((if useTypesPrefix then namer.configuration.typesPrefix else "") ++ written ++
        namer.configuration.typesSuffix) := by
  simp only [identifier, NameOptions.standard, Option.getD_none, String.empty_append, hwrite]
  rfl

/-- Suffixes follow names as soon as the writer has them do so. -/
theorem writesSuffixes_of_write {written : String → String → String}
    (homit : namer.configuration.omitOperationSuffix = false)
    (hwrite : ∀ name, ∀ suffix ∈ suffixes, ∃ converted,
      namer.writer.write host .typeNames name none = .ok converted ∧
        namer.writer.write host .typeNames (name ++ suffix) none =
          .ok (converted ++ written name suffix)) : namer.WritesSuffixes host written := by
  constructor
  case operationName_eq =>
    intro node operation hnode hoperation hkept
    have htitle : operation.title ∈ suffixes := by
      cases operation <;> decide
    obtain ⟨converted, hname, hsuffixed⟩ := hwrite node.name operation.title htitle
    refine ⟨converted, hname, ?_⟩
    rw [← category_of_isOperationDefinition hnode] at hsuffixed
    have hsuffix : namer.operationSuffix (.node node) operation.title = operation.title :=
      operationSuffix_of_kept homit hkept
    rw [operationName, operation?, hoperation, @String.append_assoc _ converted]
    simp only [hsuffix]
    exact identifier_of_write true hsuffixed
  case fragmentName_eq =>
    intro source hcategory hkept
    obtain ⟨converted, hname, hsuffixed⟩ := hwrite source.name "Fragment" (by decide)
    refine ⟨converted, hname, ?_⟩
    rw [← hcategory] at hsuffixed
    rw [fragmentName, fragmentSuffix, operationSuffix_of_kept homit hkept,
      identifier_of_write false hsuffixed, if_neg Bool.false_ne_true, String.empty_append]

/-- Under a built-in style, it is enough that the style writes the suffix behind what it sees of the
name. -/
theorem writesSuffixes_of_style {c : Configuration} {style : CaseStyle}
    {written : String → String → String} (hnamer : ofConfiguration host c = .ok namer)
    (homit : c.omitOperationSuffix = false)
    (hstyle : c.convention.typeNames.resolve host = .ok (.style style))
    (happly : ∀ name, ∀ suffix ∈ suffixes,
      style.apply (lastSeen c.convention.transformUnderscore.isTruthy name.toList ++
          suffix.toList) =
        style.apply (lastSeen c.convention.transformUnderscore.isTruthy name.toList) ++
          (written name suffix).toList) : namer.WritesSuffixes host written := by
  obtain ⟨rfl, hwriter⟩ := of_ofConfiguration hnamer
  apply writesSuffixes_of_write homit
  intro name suffix hsuffix
  have hword : '_' ∉ suffix.toList :=
    underscore_notMem_of_isCapitalised (isCapitalised_of_mem_suffixes suffix hsuffix)
  have hwrite := @NameWriter.write_of_style host _ _ .typeNames _ hwriter hstyle
  refine ⟨_, hwrite name none, ?_⟩
  rw [hwrite, Option.getD_none, String.toList_append,
    applyUnder_append hword (happly name suffix hsuffix), String.ofList_append,
    String.ofList_toList]

/-- A style that puts underscores between words, each of them written in another style, writes the
suffix in that style, with an underscore before. -/
theorem writesSuffixes_of_joined {c : Configuration} {style wordStyle : CaseStyle}
    (hjoined : ∀ cs, style.apply cs = ['_'].intercalate ((Word.ofChars cs).map wordStyle.apply))
    (hnamer : ofConfiguration host c = .ok namer) (homit : c.omitOperationSuffix = false)
    (hstyle : c.convention.typeNames.resolve host = .ok (.style style)) :
    namer.WritesSuffixes host
      (wordStyle.separated c.convention.transformUnderscore.isTruthy) := by
  apply writesSuffixes_of_style hnamer homit hstyle
  intro name suffix hsuffix
  rw [hjoined, hjoined, separated, String.toList_ofList]
  exact intercalate_append_capitalised '_' _ (isCapitalised_of_mem_suffixes suffix hsuffix) _

/-- A suffix is the last word of the name that it is joined to, and the words before it are those of
the name. A namer that does not omit suffixes therefore writes them behind what it writes of the
name alone: as they stand in pascal case, and in snake and constant case in the one letter case or
the other, with an underscore before if the part of the name that the style sees has a word. -/
theorem writes_suffixes :
    (∀ name : String, ∀ suffix ∈ suffixes, ofText (name ++ suffix) = ofText name ++ [suffix]) ∧
    ∀ (host : Host) (c : Configuration) (namer : Namer),
      ofConfiguration host c = .ok namer → c.omitOperationSuffix = false →
        (c.convention.typeNames.resolve host = .ok (.style .pascal) →
          namer.WritesSuffixes host fun _ suffix => suffix) ∧
        (c.convention.typeNames.resolve host = .ok (.style .snake) →
          namer.WritesSuffixes host
            (CaseStyle.lower.separated c.convention.transformUnderscore.isTruthy)) ∧
        (c.convention.typeNames.resolve host = .ok (.style .constant) →
          namer.WritesSuffixes host
            (CaseStyle.upper.separated c.convention.transformUnderscore.isTruthy)) := by
  refine ⟨fun name suffix hsuffix => ofText_append_suffix hsuffix name, ?_⟩
  intro host c namer hnamer homit
  refine ⟨?_, writesSuffixes_of_joined (fun _ => rfl) hnamer homit,
    writesSuffixes_of_joined (fun _ => rfl) hnamer homit⟩
  intro hstyle
  apply writesSuffixes_of_style hnamer homit hstyle
  intro name suffix hsuffix
  exact apply_pascal_append (isCapitalised_of_mem_suffixes suffix hsuffix) _

/-- An operation of whose name the style sees nothing behind the last underscore, and a fragment of
whose name it sees two words. -/
theorem writes_suffixes_snake :
    ∃ c namer, (Configuration.resolve Host.bare
        (.mapping false [(.text "namingConvention", .text "snakeCase"),
          (.text "typesPrefix", .text "T")]) .null).outcome = .ok c ∧
      ofConfiguration Host.bare c = .ok namer ∧ c.omitOperationSuffix = false ∧
      c.convention.typeNames.resolve Host.bare = .ok (.style .snake) ∧
      namer.WritesSuffixes Host.bare
        (CaseStyle.lower.separated c.convention.transformUnderscore.isTruthy) ∧
      namer.operationName Host.bare
          (.node ⟨.operationDefinition, some (some "userIds_"), some .query,
            "OperationDefinitionNode", "OperationDefinitionNode", []⟩) =
        .ok "Tuser_ids_query" ∧
      namer.fragmentName Host.bare (.text "userHTTP") = .ok "user_http_fragment" :=
  ⟨_, _, rfl, rfl, rfl, rfl, (writes_suffixes.2 Host.bare _ _ rfl rfl).2.1 rfl, rfl, rfl⟩

end Names

end Namer

end Nomenclature
