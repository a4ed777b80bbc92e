import Nomenclature.Proofs.Deduplication
import Nomenclature.Proofs.Separators
import Nomenclature.Proofs.StyleWriting
import Nomenclature.Proofs.WordBoundary

/-!
# The variable of a fragment extends its name

The name of a fragment and the name of the variable that holds its document are put together apart,
each with a suffix of its own, and the suffix is joined before the case is converted. Under the
standard suffix the text of the variable is that of the fragment with `Doc` after it. Every built-in
style takes a capitalised word after a letter for a word of its own and writes it after what it
writes for the rest, so the one name extends the other.
-/

namespace Nomenclature

open Text

namespace CaseStyle

/-- What a style writes for a capitalised word that comes after a letter. -/
def attached : CaseStyle → List Char → List Char
  | pascal, word | camel, word => capitalize word
  | constant, word => '_' :: upperChars word
  | snake, word => '_' :: lowerChars word
  | param, word => '-' :: lowerChars word
  | dot, word => '.' :: lowerChars word
  | path, word => '/' :: lowerChars word
  | spaced, word | sentence, word => ' ' :: lowerChars word
  | capital, word => ' ' :: capitalize word
  | header, word => '-' :: capitalize word
  | lower, word => lowerChars word
  | upper, word => upperChars word
  | lowerFirst, word | upperFirst, word | keep, word => word

theorem upperInitial_append {cs : List Char} (hcs : cs ≠ []) (ending : List Char) :
    upperInitial (cs ++ ending) = upperInitial cs ++ ending := by
  cases cs with
  | nil => exact absurd rfl hcs
  | cons c rest => simp [upperInitial]

theorem lowerInitial_append {cs : List Char} (hcs : cs ≠ []) (ending : List Char) :
    lowerInitial (cs ++ ending) = lowerInitial cs ++ ending := by
  cases cs with
  | nil => exact absurd rfl hcs
  | cons c rest => simp [lowerInitial]

variable {word : List Char} {c : Char}

theorem isAlpha_of_mem_capitalised (hword : Word.isCapitalised word = true) {x : Char}
    (hx : x ∈ word) : x.isAlpha = true := by
  match word with
  | d :: e :: rest =>
      simp only [Word.isCapitalised, Bool.and_eq_true, List.all_eq_true] at hword
      obtain ⟨⟨hd, he⟩, hrest⟩ := hword
      rw [Char.isAlpha, Bool.or_eq_true]
      rcases List.mem_cons.1 hx with rfl | hx
      · exact .inl hd
      · rcases List.mem_cons.1 hx with rfl | hx
        · exact .inr he
        · exact .inr (hrest x hx)

/-- The separator between a text and a word that is joined to it, if the text has a word. -/
def separatorAfter (s : Char) (cs : List Char) : List Char :=
  if cs.any Word.isWordChar then [s] else []

/-- Behind a text that is written word by word, a capitalised word is written for itself. -/
theorem intercalate_append_capitalised (s : Char) (f : List Char → List Char)
    (hword : Word.isCapitalised word = true) (cs : List Char) :
    [s].intercalate ((Word.ofChars (cs ++ word)).map f) =
      [s].intercalate ((Word.ofChars cs).map f) ++ (separatorAfter s cs ++ f word) := by
  rw [Word.ofChars_append_capitalised hword, List.map_append, List.map_singleton, separatorAfter]
  cases hany : cs.any Word.isWordChar with
  | false =>
      rw [Word.ofChars_eq_nil hany]
      simp
  | true =>
      obtain ⟨x, hmem, hx⟩ := List.any_eq_true.1 hany
      have hne : (Word.ofChars cs).map f ≠ [] :=
        fun hnil => Word.ofChars_ne_nil hmem hx (List.map_eq_nil_iff.1 hnil)
      exact intercalate_concat hne (f word)

/-- A capitalised word after a letter is written for itself. -/
theorem apply_append (style : CaseStyle) (hword : Word.isCapitalised word = true)
    (hc : c.isAlpha = true) (cs : List Char) :
    style.apply (cs ++ c :: word) = style.apply (cs ++ [c]) ++ style.attached word := by
  have hfront : cs ++ [c] ≠ [] := by simp
  have htext : cs ++ c :: word = cs ++ [c] ++ word := by simp
  have hwords : Word.ofChars (cs ++ c :: word) = Word.ofChars (cs ++ [c]) ++ [word] := by
    rw [htext]
    exact Word.ofChars_append_capitalised hword (cs ++ [c])
  have hsome : Word.ofChars (cs ++ [c]) ≠ [] := by
    apply Word.ofChars_ne_nil (List.mem_append_right cs (List.mem_singleton_self c))
    exact Word.isWordChar_of_isAlpha hc
  have hjoined (s : Char) (f : List Char → List Char) :
      [s].intercalate ((Word.ofChars (cs ++ c :: word)).map f) =
        [s].intercalate ((Word.ofChars (cs ++ [c])).map f) ++ s :: f word := by
    have hlast : (cs ++ [c]).any Word.isWordChar = true := by
      simp [Word.isWordChar_of_isAlpha hc]
    rw [htext, intercalate_append_capitalised s f hword, separatorAfter, if_pos hlast]
    rfl
  have hascii : IsAscii word := fun x hx => ascii_of_isAlpha (isAlpha_of_mem_capitalised hword hx)
  obtain ⟨first, rest, hfirst⟩ := List.exists_cons_of_ne_nil hsome
  cases style
  case pascal => simp [apply, hwords, attached]
  case camel => simp [apply, hwords, hfirst, attached]
  case constant | snake | param | dot | path | spaced | capital | header => exact hjoined _ _
  case sentence =>
    have hlower : lowerChars first ≠ [] := by
      have hword : Word.IsWord first := Word.isWord_of_mem_ofChars (hfirst ▸ List.mem_cons_self)
      obtain ⟨x, xs, rfl⟩ := List.exists_cons_of_ne_nil hword.1
      exact lowerAfter_ne_nil false x xs
    simp only [apply]
    rw [hjoined, upperInitial_append]
    · rfl
    · rw [hfirst, List.map_cons]
      exact intercalate_cons_ne_nil hlower _
  case lower =>
    rw [attached, lowerChars_of_isAscii hascii]
    exact lowerChars_append_of_isAlpha hc hascii cs
  case upper =>
    rw [htext]
    exact List.flatMap_append
  case lowerFirst =>
    rw [htext]
    exact lowerInitial_append hfront word
  case upperFirst =>
    rw [htext]
    exact upperInitial_append hfront word
  case keep => exact htext

theorem ne_underscore_of_isAlpha (hc : c.isAlpha = true) : c ≠ '_' :=
  Word.ne_underscore_of_isWordChar (Word.isWordChar_of_isAlpha hc)

theorem underscore_notMem_of_isCapitalised (hword : Word.isCapitalised word = true) :
    '_' ∉ word :=
  fun hmem => ne_underscore_of_isAlpha (isAlpha_of_mem_capitalised hword hmem) rfl

/-- What a style sees of a text that ends in a letter ends in that letter. -/
theorem lastSeen_concat (transformUnderscore : Bool) (hc : c.isAlpha = true) (cs : List Char) :
    lastSeen transformUnderscore (cs ++ [c]) = lastSeen transformUnderscore cs ++ [c] := by
  cases transformUnderscore with
  | true => rfl
  | false => exact List.rtakeWhile_concat_pos _ _ _ (bne_iff_ne.2 (ne_underscore_of_isAlpha hc))

theorem applyUnder_append_capitalised (style : CaseStyle) (transformUnderscore : Bool)
    (hword : Word.isCapitalised word = true) (hc : c.isAlpha = true) (cs : List Char) :
    style.applyUnder transformUnderscore (cs ++ c :: word) =
      style.applyUnder transformUnderscore (cs ++ [c]) ++ style.attached word := by
  rw [List.append_cons]
  apply applyUnder_append (underscore_notMem_of_isCapitalised hword)
  rw [lastSeen_concat transformUnderscore hc, ← List.append_cons]
  exact apply_append style hword hc _

/-- How a style ends the name of a document after the name of what it holds. -/
def documentEnding : CaseStyle → String
  | pascal => "Doc"
  | camel => "Doc"
  | constant => "_DOC"
  | snake => "_doc"
  | param => "-doc"
  | dot => ".doc"
  | path => "/doc"
  | spaced => " doc"
  | capital => " Doc"
  | header => "-Doc"
  | sentence => " doc"
  | lower => "doc"
  | upper => "DOC"
  | lowerFirst => "Doc"
  | upperFirst => "Doc"
  | keep => "Doc"

theorem attached_document (style : CaseStyle) :
    style.attached "Doc".toList = style.documentEnding.toList := by
  cases style <;> decide

end CaseStyle

namespace Namer

/-- A text that ends in the word for fragments ends in a letter. -/
theorem exists_concat_of_endsIn {s : String} (h : endsIn s fragmentWord = true) :
    ∃ cs c, s.toList = cs ++ [c] ∧ c.isAlpha = true := by
  obtain ⟨front, hfront⟩ := endsIn_iff.1 h
  have hlast : lowerChars s.toList = front ++ "fragmen".toList ++ ['t'] := by
    rw [← hfront, List.append_assoc]
    rfl
  obtain ⟨cs, c, hcs, hc⟩ := exists_of_lowerAfter_eq_concat (by decide) hlast
  refine ⟨cs, c, hcs, ?_⟩
  rw [← Char.isAlpha_toLower_eq_isAlpha, hc]
  rfl

variable {host : Host} {namer : Namer} {source : NameSource}

theorem fragmentSuffix_eq (homit : namer.configuration.omitOperationSuffix = false)
    (source : NameSource) : namer.fragmentSuffix source =
      if namer.configuration.dedupeOperationSuffix && endsIn source.name fragmentWord then ""
      else "Fragment" := by
  have hword : lowerChars "Fragment".toList = lowerChars fragmentWord.toList := by decide
  have hends : endsIn source.name "Fragment" = endsIn source.name fragmentWord := by
    rw [endsIn, endsIn, hword]
  rw [fragmentSuffix, operationSuffix, homit, hends]
  rfl

/-- The suffix of the variable is the suffix of the name, with `Doc` after it. -/
theorem fragmentVariableSuffix_eq (homit : namer.configuration.omitOperationSuffix = false)
    (hsuffix : namer.configuration.fragmentVariableSuffix = "FragmentDoc") (source : NameSource) :
    namer.fragmentVariableSuffix source = namer.fragmentSuffix source ++ "Doc" := by
  have hbegins : beginsWith "FragmentDoc" fragmentWord = true := by decide
  rw [fragmentSuffix_eq homit, fragmentVariableSuffix, homit, hsuffix, hbegins, Bool.and_true]
  cases namer.configuration.dedupeOperationSuffix && endsIn source.name fragmentWord with
  | true => rfl
  | false => rfl

/-- With its suffix the name of a fragment ends in a letter. -/
theorem exists_concat_fragmentSuffix
    (homit : namer.configuration.omitOperationSuffix = false) (source : NameSource) :
    ∃ cs c, (source.name ++ namer.fragmentSuffix source).toList = cs ++ [c] ∧
      c.isAlpha = true := by
  rw [fragmentSuffix_eq homit]
  split
  · rename_i hleft
    rw [String.append_empty]
    exact exists_concat_of_endsIn ((Bool.and_eq_true _ _).mp hleft).2
  · refine ⟨source.name.toList ++ "Fragmen".toList, 't', ?_, rfl⟩
    rw [String.toList_append, List.append_assoc]
    rfl

variable {c : Configuration} {style : CaseStyle}

/-- What both names have in common, and what each has after it. -/
theorem exists_fragmentName_and_fragmentVariableName (homit : c.omitOperationSuffix = false)
    (hsuffix : c.fragmentVariableSuffix = "FragmentDoc") (hlead : c.fragmentVariablePrefix = "")
    (hnamer : ofConfiguration host c = .ok namer)
    (hstyle : (c.convention.strategyOf source.category).resolve host = .ok (.style style)) :
    ∃ written, namer.fragmentName host source = .ok (written ++ c.typesSuffix) ∧
      namer.fragmentVariableName host source =
        .ok (written ++ style.documentEnding ++ c.typesSuffix) := by
  obtain ⟨rfl, -⟩ := of_ofConfiguration hnamer
  obtain ⟨cs, x, hname, hx⟩ := exists_concat_fragmentSuffix homit source
  have hvariable : (source.name ++ namer.fragmentVariableSuffix source).toList =
      cs ++ x :: "Doc".toList := by
    rw [fragmentVariableSuffix_eq homit hsuffix, ← String.append_assoc, String.toList_append, hname]
    simp
  refine ⟨String.ofList (style.applyUnder
    namer.configuration.convention.transformUnderscore.isTruthy (cs ++ [x])), ?_, ?_⟩
  · refine Eq.trans (identifier_of_style hnamer rfl hstyle) ?_
    simp only [NameOptions.standard, String.empty_append, hname]
    rfl
  · refine Eq.trans (identifier_of_style hnamer rfl hstyle) ?_
    simp only [NameOptions.standard, hlead, String.empty_append, hvariable]
    rw [CaseStyle.applyUnder_append_capitalised style _ (by decide) hx, String.ofList_append,
      CaseStyle.attached_document, String.ofList_toList]
    rfl

/-- Under the standard affixes of variables and with suffixes not omitted, what is called a fragment
and what is called its variable differ by the ending that the style of the category has for a
document, which stands before the suffix of all types. -/
theorem fragmentVariableName_extends (homit : c.omitOperationSuffix = false)
    (hsuffix : c.fragmentVariableSuffix = "FragmentDoc") (hlead : c.fragmentVariablePrefix = "")
    (hnamer : ofConfiguration host c = .ok namer)
    (hstyle : (c.convention.strategyOf source.category).resolve host = .ok (.style style)) :
    (∃ x, namer.fragmentName host source = .ok (x ++ c.typesSuffix)) ∧
      ∀ x, namer.fragmentName host source = .ok (x ++ c.typesSuffix) →
        namer.fragmentVariableName host source =
          .ok (x ++ style.documentEnding ++ c.typesSuffix) := by
  obtain ⟨written, hname, hvariable⟩ :=
    exists_fragmentName_and_fragmentVariableName homit hsuffix hlead hnamer hstyle
  refine ⟨⟨written, hname⟩, fun x hx => ?_⟩
  have hsame : x = written := by
    rw [hname, Except.ok.injEq] at hx
    exact (String.append_left_inj c.typesSuffix).1 hx.symm
  rw [hsame, hvariable]

/-- A name that ends in the word for fragments, in capitals, under a suffix of all types. -/
theorem fragmentVariableName_extends_snake :
    ∃ c namer, (Configuration.resolve Host.bare
        (.mapping false [(.text "namingConvention", .callable (.style .snake)),
          (.text "dedupeOperationSuffix", .boolean true), (.text "typesSuffix", .text "T")])
        .null).outcome = .ok c ∧
      c.omitOperationSuffix = false ∧ c.fragmentVariableSuffix = "FragmentDoc" ∧
      c.fragmentVariablePrefix = "" ∧ ofConfiguration Host.bare c = .ok namer ∧
      (c.convention.strategyOf .typeNames).resolve Host.bare = .ok (.style .snake) ∧
      c.typesSuffix = "T" ∧
      namer.fragmentName Host.bare (.text "userFRAGMENT") = .ok ("user_fragment" ++ c.typesSuffix) ∧
      namer.fragmentVariableName Host.bare (.text "userFRAGMENT") =
        .ok ("user_fragment" ++ CaseStyle.snake.documentEnding ++ c.typesSuffix) := by
  refine ⟨_, _, rfl, rfl, rfl, rfl, rfl, rfl, rfl, rfl, ?_⟩
  exact (fragmentVariableName_extends rfl rfl rfl rfl rfl).2 "user_fragment" rfl

end Namer

end Nomenclature
