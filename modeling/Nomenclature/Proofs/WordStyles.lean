import Nomenclature.CaseStyle
import Nomenclature.Proofs.WordBoundary

/-!
# Styles that work on words

Eleven of the styles see nothing of a text but its words, and nothing of a word but which letters
and digits it has: what they write is settled by the words in lower case. Eight of the eleven put a
separator between words and write no capital inside a word, so that in what they write the same
words are found again.
-/

namespace Nomenclature

open Text

namespace Word

section Characters

variable {c : Char}

theorem isWordChar_eq (c : Char) : isWordChar c = (c.isAlpha || c.isDigit) := rfl

theorem isWordChar_toLower (hc : isWordChar c = true) : isWordChar c.toLower = true := by
  by_cases hupper : c.isUpper = true
  · rw [isWordChar_eq, Char.isAlpha_toLower_eq_isAlpha, Char.isAlpha, hupper]
    rfl
  · rwa [Char.toLower_eq_of_not_isUpper hupper]

theorem isWordChar_toUpper (hc : isWordChar c = true) : isWordChar c.toUpper = true := by
  by_cases hlower : c.isLower = true
  · rw [isWordChar_eq, Char.isAlpha_toUpper_eq_isAlpha, Char.isAlpha, hlower, Bool.or_true]
    rfl
  · rwa [Char.toUpper_eq_of_not_isLower hlower]

theorem ascii_of_isWordChar (hc : isWordChar c = true) : c.toNat < 128 := by
  rw [isWordChar_eq, Bool.or_eq_true] at hc
  rcases hc with halpha | hdigit
  · exact ascii_of_isAlpha halpha
  · rw [isDigit_iff] at hdigit
    omega

end Characters

namespace IsWord

variable {word : List Char}

theorem isAscii (h : IsWord word) : IsAscii word :=
  fun _ hc => ascii_of_isWordChar (h.2 _ hc)

theorem lowerChars_eq (h : IsWord word) : lowerChars word = word.map Char.toLower :=
  lowerChars_of_isAscii h.isAscii

theorem upperChars_eq (h : IsWord word) : upperChars word = word.map Char.toUpper :=
  upperChars_of_isAscii h.isAscii

/-- A word stays one in lower case. -/
theorem lowerChars (h : IsWord word) : IsWord (lowerChars word) := by
  rw [h.lowerChars_eq]
  refine ⟨fun hnil => h.1 (List.map_eq_nil_iff.1 hnil), ?_⟩
  exact List.forall_mem_map.2 fun c hc => isWordChar_toLower (h.2 c hc)

theorem lowerChars_lowerChars (h : IsWord word) :
    Text.lowerChars (Text.lowerChars word) = Text.lowerChars word := by
  rw [h.lowerChars.lowerChars_eq, h.lowerChars_eq]
  simp [Function.comp_def]

theorem upperChars_lowerChars (h : IsWord word) :
    upperChars (Text.lowerChars word) = upperChars word := by
  rw [h.lowerChars.upperChars_eq, h.upperChars_eq, h.lowerChars_eq]
  simp [Function.comp_def]

theorem capitalize_eq {c : Char} {rest : List Char} (h : IsWord (c :: rest)) :
    CaseStyle.capitalize (c :: rest) = c.toUpper :: rest.map Char.toLower := by
  obtain ⟨hc, hrest⟩ := List.forall_mem_cons.1 h.isAscii
  rw [CaseStyle.capitalize, upperChars_of_isAscii (List.forall_mem_singleton.2 hc),
    lowerChars_of_isAscii hrest]
  rfl

theorem capitalize_lowerChars (h : IsWord word) :
    CaseStyle.capitalize (Text.lowerChars word) = CaseStyle.capitalize word := by
  have hlowered := h.lowerChars
  rw [h.lowerChars_eq] at hlowered ⊢
  cases word with
  | nil => rfl
  | cons c rest =>
      rw [List.map_cons, h.capitalize_eq, hlowered.capitalize_eq]
      simp [Function.comp_def]

/-- A word stays one when it is written with a capital. -/
theorem capitalize (h : IsWord word) : IsWord (CaseStyle.capitalize word) := by
  cases word with
  | nil => exact absurd rfl h.1
  | cons c rest =>
      obtain ⟨hc, hrest⟩ := List.forall_mem_cons.1 h.2
      rw [h.capitalize_eq]
      refine ⟨List.cons_ne_nil _ _, List.forall_mem_cons.2 ⟨isWordChar_toUpper hc, ?_⟩⟩
      exact List.forall_mem_map.2 fun d hd => isWordChar_toLower (hrest d hd)

theorem lowerChars_capitalize (h : IsWord word) :
    Text.lowerChars (CaseStyle.capitalize word) = Text.lowerChars word := by
  rw [h.capitalize.lowerChars_eq, h.lowerChars_eq]
  cases word with
  | nil => exact absurd rfl h.1
  | cons c rest =>
      rw [h.capitalize_eq]
      simp [Function.comp_def]

/-- Behind its first letter such a word has no capital at which it could be divided. -/
theorem ofChars_cons_map_toLower {c : Char} {rest : List Char}
    (h : IsWord (c :: rest.map Char.toLower)) :
    ofChars (c :: rest.map Char.toLower) = [c :: rest.map Char.toLower] := by
  obtain ⟨hc, hrest⟩ := List.forall_mem_cons.1 h.2
  apply ofChars_eq_singleton hc
  intro d hd
  refine ⟨hrest d hd, ?_⟩
  obtain ⟨x, -, rfl⟩ := List.mem_map.1 hd
  exact Char.isUpper_toLower_eq_false x

theorem ofChars_lowerChars (h : IsWord word) :
    ofChars (Text.lowerChars word) = [Text.lowerChars word] := by
  have hlowered := h.lowerChars
  rw [h.lowerChars_eq] at hlowered ⊢
  cases word with
  | nil => exact absurd rfl h.1
  | cons c rest => exact hlowered.ofChars_cons_map_toLower

theorem ofChars_capitalize (h : IsWord word) :
    ofChars (CaseStyle.capitalize word) = [CaseStyle.capitalize word] := by
  have hcapital := h.capitalize
  cases word with
  | nil => exact absurd rfl h.1
  | cons c rest =>
      rw [h.capitalize_eq] at hcapital ⊢
      exact hcapital.ofChars_cons_map_toLower

end IsWord

/-- The words of a text in lower case. -/
def lowered (cs : List Char) : List (List Char) :=
  (ofChars cs).map lowerChars

/-- What is written of every word is settled by the words in lower case if it is for a single
word. -/
theorem map_eq_of_lowered_eq {f : List Char → List Char}
    (hf : ∀ word, IsWord word → f (lowerChars word) = f word) {cs ds : List Char}
    (h : lowered cs = lowered ds) : (ofChars cs).map f = (ofChars ds).map f := by
  have hlowered (es : List Char) : (ofChars es).map f = (lowered es).map f := by
    rw [lowered, List.map_map]
    apply List.map_congr_left
    intro word hword
    exact (hf word (isWord_of_mem_ofChars hword)).symm
  rw [hlowered, hlowered, h]

/-- Words written one by one between separators are found again, as far as letter case goes. -/
theorem lowered_intercalate {s : Char} (hs : isWordChar s = false) {f : List Char → List Char}
    (hword : ∀ word, IsWord word → ofChars (f word) = [f word])
    (hlower : ∀ word, IsWord word → lowerChars (f word) = lowerChars word) (cs : List Char) :
    lowered ([s].intercalate ((ofChars cs).map f)) = lowered cs := by
  rw [lowered, ofChars_intercalate hs, lowered, List.map_map]
  · apply List.map_congr_left
    intro word hmem
    exact hlower word (isWord_of_mem_ofChars hmem)
  · exact List.forall_mem_map.2 fun word hmem => hword word (isWord_of_mem_ofChars hmem)

end Word

namespace CaseStyle

open Word

/-- The styles that put a separator between words and write no capital inside a word. -/
def separating : List CaseStyle :=
  [snake, param, dot, path, spaced, capital, header, sentence]

/-- The styles that see nothing of a text but its words. -/
def wordBased : List CaseStyle :=
  [pascal, camel, constant] ++ separating

/-- The capital of a sentence is that of its first word. -/
theorem upperInitial_intercalate {s : Char} {word : List Char} (hword : word ≠ [])
    (words : List (List Char)) :
    upperInitial ([s].intercalate (word :: words)) =
      [s].intercalate (upperInitial word :: words) := by
  cases word with
  | nil => exact absurd rfl hword
  | cons c rest =>
      cases words with
      | nil => simp [upperInitial]
      | cons next words => simp [upperInitial, List.intercalate_cons_cons]

theorem upperInitial_lowerChars {word : List Char} (h : IsWord word) :
    upperInitial (lowerChars word) = capitalize word := by
  rw [← h.capitalize_lowerChars]
  have hlowered := h.lowerChars
  rw [h.lowerChars_eq] at hlowered ⊢
  cases word with
  | nil => rfl
  | cons c rest =>
      obtain ⟨hc, -⟩ := List.forall_mem_cons.1 hlowered.isAscii
      rw [List.map_cons, hlowered.capitalize_eq, upperInitial,
        upperChars_of_isAscii (List.forall_mem_singleton.2 hc)]
      simp [Function.comp_def]

/-- A sentence is its words in lower case, the first one with a capital. -/
theorem apply_sentence {cs word : List Char} {words : List (List Char)}
    (h : Word.ofChars cs = word :: words) :
    sentence.apply cs = [' '].intercalate (capitalize word :: words.map lowerChars) := by
  have hword : IsWord word := isWord_of_mem_ofChars (h ▸ List.mem_cons_self)
  calc
    sentence.apply cs
        = upperInitial ([' '].intercalate ((Word.ofChars cs).map lowerChars)) := rfl
    _ = upperInitial ([' '].intercalate (lowerChars word :: words.map lowerChars)) := by
      rw [h, List.map_cons]
    _ = [' '].intercalate (upperInitial (lowerChars word) :: words.map lowerChars) :=
      upperInitial_intercalate hword.lowerChars.1 _
    _ = [' '].intercalate (capitalize word :: words.map lowerChars) := by
      rw [upperInitial_lowerChars hword]

theorem lowered_apply_sentence (cs : List Char) : lowered (sentence.apply cs) = lowered cs := by
  cases hwords : Word.ofChars cs with
  | nil => simp [lowered, apply, hwords, upperInitial, List.intercalate]
  | cons word words =>
      have hmem : ∀ w ∈ word :: words, IsWord w := fun w hw => isWord_of_mem_ofChars (hwords ▸ hw)
      obtain ⟨hword, hrest⟩ := List.forall_mem_cons.1 hmem
      have hsingle : ∀ w ∈ capitalize word :: words.map lowerChars, Word.ofChars w = [w] :=
        List.forall_mem_cons.2 ⟨hword.ofChars_capitalize,
          List.forall_mem_map.2 fun w hw => (hrest w hw).ofChars_lowerChars⟩
      rw [lowered, apply_sentence hwords, ofChars_intercalate (by decide) hsingle, lowered, hwords,
        List.map_cons, List.map_cons, hword.lowerChars_capitalize, List.map_map]
      congr 1
      apply List.map_congr_left
      intro w hw
      exact (hrest w hw).lowerChars_lowerChars

variable {S T : CaseStyle} {cs ds : List Char}

/-- What a style makes of the words is settled by the words in lower case. -/
theorem apply_eq_of_lowered_eq (hT : T ∈ wordBased) (h : lowered cs = lowered ds) :
    T.apply cs = T.apply ds := by
  have hlower := map_eq_of_lowered_eq (fun _ => IsWord.lowerChars_lowerChars) h
  have hupper := map_eq_of_lowered_eq (fun _ => IsWord.upperChars_lowerChars) h
  have hcapital := map_eq_of_lowered_eq (fun _ => IsWord.capitalize_lowerChars) h
  cases T
  case lower | upper | lowerFirst | upperFirst | keep => exact absurd hT (by decide)
  case pascal | capital | header => simp only [apply, hcapital]
  case constant => simp only [apply, hupper]
  case snake | param | dot | path | spaced | sentence => simp only [apply, hlower]
  case camel =>
    simp only [apply]
    generalize Word.ofChars cs = words at hlower hcapital ⊢
    generalize Word.ofChars ds = others at hlower hcapital ⊢
    match words, others with
    | [], [] => rfl
    | word :: words, other :: others =>
        obtain ⟨hfirst, -⟩ := List.cons.inj hlower
        obtain ⟨-, hrest⟩ := List.cons.inj hcapital
        exact congrArg₂ (· ++ ·) hfirst (congrArg List.flatten hrest)

/-- A style that separates the words keeps them, as far as letter case goes. -/
theorem lowered_apply (hS : S ∈ separating) (cs : List Char) :
    lowered (S.apply cs) = lowered cs := by
  have hlower {s : Char} (hs : isWordChar s = false) :
      lowered ([s].intercalate ((Word.ofChars cs).map lowerChars)) = lowered cs :=
    lowered_intercalate hs (fun _ => IsWord.ofChars_lowerChars)
      (fun _ => IsWord.lowerChars_lowerChars) cs
  have hcapital {s : Char} (hs : isWordChar s = false) :
      lowered ([s].intercalate ((Word.ofChars cs).map capitalize)) = lowered cs :=
    lowered_intercalate hs (fun _ => IsWord.ofChars_capitalize)
      (fun _ => IsWord.lowerChars_capitalize) cs
  cases S
  case pascal | camel | constant | lower | upper | lowerFirst | upperFirst | keep =>
    exact absurd hS (by decide)
  case snake | param | dot | path | spaced => exact hlower (by decide)
  case capital | header => exact hcapital (by decide)
  case sentence => exact lowered_apply_sentence cs

/-- What such a style writes can be written again in any style that works on words. -/
theorem apply_apply (hS : S ∈ separating) (hT : T ∈ wordBased) (cs : List Char) :
    T.apply (S.apply cs) = T.apply cs :=
  apply_eq_of_lowered_eq hT (lowered_apply hS cs)

theorem mem_wordBased (hS : S ∈ separating) : S ∈ wordBased :=
  List.mem_append_right [pascal, camel, constant] hS

/-- Such a style writes two texts alike exactly if they have the same words but for letter case. -/
theorem apply_eq_apply_iff (hS : S ∈ separating) :
    S.apply cs = S.apply ds ↔ lowered cs = lowered ds := by
  constructor
  · intro h
    calc
      lowered cs = lowered (S.apply cs) := (lowered_apply hS cs).symm
      _ = lowered (S.apply ds) := by rw [h]
      _ = lowered ds := lowered_apply hS ds
  · exact apply_eq_of_lowered_eq (mem_wordBased hS)

theorem lowered_eq_lowered_iff (a b : String) :
    lowered a.toList = lowered b.toList ↔
      (Word.ofText a).map Text.lower = (Word.ofText b).map Text.lower := by
  have htexts (s : String) :
      (Word.ofText s).map Text.lower = (lowered s.toList).map String.ofList := by
    rw [Word.ofText, lowered, List.map_map, List.map_map]
    apply List.map_congr_left
    intro word _
    simp [Text.lower]
  rw [htexts, htexts]
  exact (List.map_injective_iff.2 fun _ _ => String.ofList_inj.1).eq_iff.symm

/-- Styles that put a separator between words lose nothing but letter case. What they write reads in
every style that works on words as the text itself does, in their own style too, and they write two
texts alike exactly if these have the same words but for letter case. -/
theorem write_loses_only_case {S : CaseStyle} (hS : S ∈ separating) :
    (∀ T ∈ wordBased, ∀ s, T.write (S.write s) = T.write s) ∧
      (∀ s, S.write (S.write s) = S.write s) ∧
      ∀ a b, S.write a = S.write b ↔
        (Word.ofText a).map Text.lower = (Word.ofText b).map Text.lower := by
  have hagain {T : CaseStyle} (hT : T ∈ wordBased) (s : String) :
      T.write (S.write s) = T.write s := by
    rw [write, write, String.toList_ofList, apply_apply hS hT]
    rfl
  refine ⟨fun T hT s => hagain hT s, hagain (mem_wordBased hS), fun a b => ?_⟩
  calc
    S.write a = S.write b ↔ S.apply a.toList = S.apply b.toList := String.ofList_inj
    _ ↔ lowered a.toList = lowered b.toList := apply_eq_apply_iff hS
    _ ↔ (Word.ofText a).map Text.lower = (Word.ofText b).map Text.lower :=
      lowered_eq_lowered_iff a b

/-- A sentence reads as the name that it was written from. -/
theorem camel_write_sentence_write :
    sentence ∈ separating ∧ camel.write (sentence.write "HTTPServer2 url") = "httpServer2Url" :=
  ⟨by decide, ((write_loses_only_case (by decide)).1 camel (by decide) _).trans (by decide)⟩

end CaseStyle

end Nomenclature
