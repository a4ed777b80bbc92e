import Nomenclature.Namer
import Nomenclature.Proofs.LetterCase
import Nomenclature.Proofs.StandardResolution

/-!
# Suffixes that are not repeated

A namer that leaves off a suffix where a name ends in it already compares in lower case and joins
what was written. Both agree as long as the suffix is ASCII: its lower case is the same at the end
of any text, and it is as long. A name and the same name with its suffix therefore lead to one
identifier.
-/

namespace Nomenclature.Namer

open Text

theorem endsIn_iff {s ending : String} : endsIn s ending = true ↔
    lowerChars ending.toList <:+ lowerChars s.toList := by
  rw [endsIn, List.isSuffixOf_iff_suffix]

theorem beginsWith_iff {s beginning : String} : beginsWith s beginning = true ↔
    lowerChars beginning.toList <+: lowerChars s.toList := by
  rw [beginsWith, List.isPrefixOf_iff_prefix]

/-- A text ends in what was put at its end, if that is the ending but for letter case. -/
theorem endsIn_append {ending written : String} (hwritten : IsAscii written.toList)
    (hcase : written.toList.map Char.toLower = lowerChars ending.toList) (s : String) :
    endsIn (s ++ written) ending = true := by
  obtain ⟨front, hfront⟩ := exists_lowerAfter_append hwritten false s.toList
  rw [endsIn_iff, String.toList_append, ← hcase]
  exact ⟨front, hfront.symm⟩

/-- A text that begins with the word for fragments begins with its letters. -/
theorem exists_of_beginsWith {s : String} (h : beginsWith s fragmentWord = true) :
    ∃ front back, s.toList = front ++ back ∧ IsAscii front ∧
      front.map Char.toLower = fragmentWord.toList := by
  obtain ⟨rest, hrest⟩ := beginsWith_iff.1 h
  have hword : lowerChars fragmentWord.toList = fragmentWord.toList := by decide
  rw [hword] at hrest
  exact exists_of_lowerAfter_eq_append (by decide) hrest.symm

/-- What a namer calls a source depends on its category and on the name with the suffix joined. -/
theorem identifier_congr (host : Host) (namer : Namer) (options : NameOptions)
    {source other : NameSource} {tail others : String}
    (hcategory : other.category = source.category)
    (hname : other.name ++ others = source.name ++ tail) :
    namer.identifier host other { options with tail := others } =
      namer.identifier host source { options with tail := tail } := by
  rw [identifier, identifier, hcategory, String.append_assoc, hname, String.append_assoc]

section Suffixes

variable {namer : Namer} {source : NameSource} {operationType : String}
  (homit : namer.configuration.omitOperationSuffix = false)
  (hdedupe : namer.configuration.dedupeOperationSuffix = true)

include hdedupe in
theorem operationSuffix_of_endsIn (h : endsIn source.name operationType = true) :
    namer.operationSuffix source operationType = "" := by
  rw [operationSuffix, hdedupe, h]
  split <;> rfl

include homit

/-- A suffix that is neither omitted nor left off is written as it stands. -/
theorem operationSuffix_of_kept
    (h : (namer.configuration.dedupeOperationSuffix && endsIn source.name operationType) = false) :
    namer.operationSuffix source operationType = operationType := by
  simp [operationSuffix, homit, h]

theorem fragmentVariableSuffix_of_not_endsIn (hname : endsIn source.name fragmentWord = false) :
    namer.fragmentVariableSuffix source = namer.configuration.fragmentVariableSuffix := by
  simp [fragmentVariableSuffix, homit, hname]

include hdedupe

/-- With its suffix a name ends in the operation type, whether the suffix was left off or not. -/
theorem endsIn_append_operationSuffix (hascii : IsAscii operationType.toList)
    (source : NameSource) :
    endsIn (source.name ++ namer.operationSuffix source operationType) operationType = true := by
  cases hends : endsIn source.name operationType with
  | true => rwa [operationSuffix_of_endsIn hdedupe hends, String.append_empty]
  | false =>
      rw [operationSuffix_of_kept homit (by rw [hends, Bool.and_false])]
      apply endsIn_append hascii
      rw [lowerChars_of_isAscii hascii]

/-- The same suffix is left off for the name that carries it. -/
theorem operationSuffix_of_name_eq {other : NameSource} (hascii : IsAscii operationType.toList)
    (hname : other.name = source.name ++ namer.operationSuffix source operationType) :
    namer.operationSuffix other operationType = "" := by
  apply operationSuffix_of_endsIn hdedupe
  rw [hname]
  exact endsIn_append_operationSuffix homit hdedupe hascii source

/-- Where the name says that it is a fragment, the suffix of the variable does not say so again. -/
theorem fragmentVariableSuffix_of_endsIn (hname : endsIn source.name fragmentWord = true)
    (hsuffix : beginsWith namer.configuration.fragmentVariableSuffix fragmentWord = true) :
    namer.fragmentVariableSuffix source =
      String.ofList (namer.configuration.fragmentVariableSuffix.toList.drop 8) := by
  simp only [fragmentVariableSuffix, homit, hdedupe, hname, hsuffix]
  rfl

end Suffixes

/-- A suffix that begins with the word for fragments has, in its first eight characters, an ending
that says so. -/
theorem endsIn_append_take {suffix : String} (h : beginsWith suffix fragmentWord = true)
    (s : String) : endsIn (s ++ String.ofList (suffix.toList.take 8)) fragmentWord = true := by
  obtain ⟨front, back, hsuffix, hascii, hcase⟩ := exists_of_beginsWith h
  have hlength : front.length = 8 := by
    rw [← List.length_map Char.toLower, hcase]
    rfl
  have htake : suffix.toList.take 8 = front := by
    rw [hsuffix, List.take_left' hlength]
  rw [htake]
  apply endsIn_append
  · rwa [String.toList_ofList]
  · rw [String.toList_ofList, hcase]
    decide

/-- A namer that leaves off repeated suffixes cannot tell a name from the same name with the suffix
that it would get. -/
structure Deduplicates (host : Host) (namer : Namer) : Prop where
  /-- With its suffix a name ends in the operation type and gets no suffix any more. -/
  suffix_settled : ∀ (source : NameSource) (operationType : String), IsAscii operationType.toList →
    lowerChars operationType.toList <:+
        lowerChars (source.name ++ namer.operationSuffix source operationType).toList ∧
      ∀ other : NameSource,
        other.name = source.name ++ namer.operationSuffix source operationType →
          namer.operationSuffix other operationType = ""
  operationName_eq : ∀ (node other : Node) (operation : Operation),
    node.isOperationDefinition = true → other.isOperationDefinition = true →
      node.operation = some operation → other.operation = some operation →
        other.name = node.name ++ namer.operationSuffix (.node node) operation.title →
          namer.operationName host (.node node) = namer.operationName host (.node other)
  fragmentName_eq : ∀ source other : NameSource, other.category = source.category →
    other.name = source.name ++ namer.fragmentSuffix source →
      namer.fragmentName host source = namer.fragmentName host other
  /-- The word may also be taken over from the suffix of the variable, as it is written there. -/
  fragmentVariableName_eq :
    beginsWith namer.configuration.fragmentVariableSuffix fragmentWord = true →
      ∀ source other : NameSource, other.category = source.category →
        endsIn source.name fragmentWord = false →
          other.name = source.name ++
              String.ofList (namer.configuration.fragmentVariableSuffix.toList.take 8) →
            namer.fragmentVariableName host source = namer.fragmentVariableName host other

section Names

variable {namer : Namer}

theorem category_of_isOperationDefinition {node : Node} (h : node.isOperationDefinition = true) :
    (NameSource.node node).category = .typeNames := by
  have hkind : node.kind = .operationDefinition := of_decide_eq_true h
  rw [NameSource.category, hkind]
  rfl

section

variable (host : Host) (homit : namer.configuration.omitOperationSuffix = false)
  (hdedupe : namer.configuration.dedupeOperationSuffix = true)

include homit hdedupe

theorem operationName_eq_of_name_eq {node other : Node} {operation : Operation}
    (hnode : node.isOperationDefinition = true) (hother : other.isOperationDefinition = true)
    (hfirst : node.operation = some operation) (hsecond : other.operation = some operation)
    (hname : (NameSource.node other).name =
      (NameSource.node node).name ++ namer.operationSuffix (.node node) operation.title) :
    namer.operationName host (.node node) = namer.operationName host (.node other) := by
  have htitle : IsAscii operation.title.toList := by
    cases operation <;> decide
  have hsettled := operationSuffix_of_name_eq homit hdedupe htitle hname
  have hcategory := (category_of_isOperationDefinition hother).trans
    (category_of_isOperationDefinition hnode).symm
  simp only [operationName, operation?, hfirst, hsecond, hsettled]
  apply Eq.symm
  apply identifier_congr host namer .standard hcategory
  rw [hname, String.append_empty]

theorem fragmentName_eq_of_name_eq {source other : NameSource}
    (hcategory : other.category = source.category)
    (hname : other.name = source.name ++ namer.fragmentSuffix source) :
    namer.fragmentName host source = namer.fragmentName host other := by
  have hsettled : namer.fragmentSuffix other = "" :=
    operationSuffix_of_name_eq homit hdedupe (by decide) hname
  rw [fragmentName, fragmentName, hsettled]
  apply Eq.symm
  apply identifier_congr host namer { NameOptions.standard with useTypesPrefix := false } hcategory
  rw [hname, String.append_empty]

theorem fragmentVariableName_eq_of_name_eq
    (hsuffix : beginsWith namer.configuration.fragmentVariableSuffix fragmentWord = true)
    {source other : NameSource} (hcategory : other.category = source.category)
    (hends : endsIn source.name fragmentWord = false)
    (hname : other.name = source.name ++
      String.ofList (namer.configuration.fragmentVariableSuffix.toList.take 8)) :
    namer.fragmentVariableName host source = namer.fragmentVariableName host other := by
  have hother : endsIn other.name fragmentWord = true := by
    rw [hname]
    exact endsIn_append_take hsuffix source.name
  rw [fragmentVariableName, fragmentVariableName, fragmentVariableSuffix_of_not_endsIn homit hends,
    fragmentVariableSuffix_of_endsIn homit hdedupe hother hsuffix]
  apply Eq.symm
  apply identifier_congr host namer
    { NameOptions.standard with
      lead := namer.configuration.fragmentVariablePrefix
      useTypesPrefix := false } hcategory
  rw [hname, String.append_assoc, ← String.ofList_append, List.take_append_drop,
    String.ofList_toList]

end

/-- Whatever its strategies and affixes are, a namer that adds suffixes and leaves off repeated ones
does so in this sense. -/
theorem deduplicates (host : Host) (homit : namer.configuration.omitOperationSuffix = false)
    (hdedupe : namer.configuration.dedupeOperationSuffix = true) : namer.Deduplicates host := by
  constructor
  case suffix_settled =>
    intro source operationType hascii
    refine ⟨?_, fun other => operationSuffix_of_name_eq homit hdedupe hascii⟩
    exact endsIn_iff.1 (endsIn_append_operationSuffix homit hdedupe hascii source)
  case operationName_eq =>
    intro node other operation hnode hother hfirst hsecond hname
    exact operationName_eq_of_name_eq host homit hdedupe hnode hother hfirst hsecond hname
  case fragmentName_eq =>
    intro source other hcategory hname
    exact fragmentName_eq_of_name_eq host homit hdedupe hcategory hname
  case fragmentVariableName_eq =>
    intro hsuffix source other hcategory hends hname
    exact fragmentVariableName_eq_of_name_eq host homit hdedupe hsuffix hcategory hends hname

/-- Under a configuration that asks for it and says nothing else, `User` and `UserFragment` have one
variable between them. -/
theorem deduplicates_standard :
    ∃ namer, Namer.resolve Host.bare
        (.mapping false [(.text "dedupeOperationSuffix", .boolean true)]) .null = .ok namer ∧
      namer.configuration.omitOperationSuffix = false ∧
      namer.configuration.dedupeOperationSuffix = true ∧
      namer.fragmentVariableName Host.bare (.text "User") = .ok "UserFragmentDoc" ∧
      namer.fragmentVariableName Host.bare (.text "User") =
        namer.fragmentVariableName Host.bare (.text "UserFragment") := by
  refine ⟨_, rfl, rfl, rfl, rfl, ?_⟩
  exact (deduplicates Host.bare rfl rfl).fragmentVariableName_eq (by decide) (.text "User")
    (.text "UserFragment") rfl (by decide) (by decide)

end Names

end Nomenclature.Namer
