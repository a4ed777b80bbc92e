import Nomenclature.Proofs.GluedWords

/-!
# Reading constant case

Constant case writes all letters as capitals and puts an underscore between words. The underscores
are found again, but a word in capitals is divided where a letter follows a digit: `v2beta` becomes
`V2BETA`, which reads as `V2` and `BETA`. Every style that works on words shows the difference.
-/

namespace Nomenclature

open Text

namespace Word

/-- Whether a letter follows a digit somewhere. -/
def letterAfterDigit : List Char → Bool
  | c :: d :: rest => c.isDigit && d.isAlpha || letterAfterDigit (d :: rest)
  | _ => false

namespace IsWord

variable {word : List Char}

/-- A word stays one in capitals. -/
theorem upperChars (h : IsWord word) : IsWord (upperChars word) := by
  rw [h.upperChars_eq]
  refine ⟨fun hnil => h.1 (List.map_eq_nil_iff.1 hnil), ?_⟩
  exact List.forall_mem_map.2 fun c hc => isWordChar_toUpper (h.2 c hc)

theorem map_toLower_upperChars (h : IsWord word) :
    (Text.upperChars word).map Char.toLower = Text.lowerChars word := by
  rw [h.upperChars_eq, h.lowerChars_eq]
  simp [Function.comp_def]

theorem lowerChars_upperChars (h : IsWord word) :
    Text.lowerChars (Text.upperChars word) = Text.lowerChars word := by
  rw [h.upperChars.lowerChars_eq, h.map_toLower_upperChars]

end IsWord

section Capitals

variable {c d : Char} {word : List Char} {words : List (List Char)}

theorem letter_toUpper (starts : Bool) (c : Char) : letter starts c.toUpper = letter starts c :=
  letter_letter starts true c

/-- In capitals a word ends where a letter follows a digit. -/
theorem endsBefore_map_toUpper (hc : isWordChar c = true) (hd : isWordChar d = true)
    (rest : List Char) :
    endsBefore c.toUpper ((d :: rest).map Char.toUpper) = (c.isDigit && d.isAlpha) := by
  have hlower : (rest.map Char.toUpper).head?.any Char.isLower = false := by
    cases rest with
    | nil => rfl
    | cons e rest => exact Char.isLower_toUpper_eq_false e
  rw [List.map_cons, endsBefore_cons (isWordChar_toUpper hc) (isWordChar_toUpper hd), hlower,
    Char.isUpper_toUpper_eq_isAlpha, Char.isUpper_toUpper_eq_isAlpha, isAlpha_eq_not_isDigit hc,
    Bool.not_not, Bool.or_false, Bool.and_comm]

/-- In capitals a word without a letter after a digit is still one word. -/
theorem ofChars_map_toUpper (hword : ∀ x ∈ c :: word, isWordChar x = true)
    (hdigit : letterAfterDigit (c :: word) = false) :
    ofChars ((c :: word).map Char.toUpper) = [(c :: word).map Char.toUpper] := by
  induction word generalizing c with
  | nil =>
      exact ofChars_cons_last (isWordChar_toUpper (hword c List.mem_cons_self)) (endsBefore_nil _)
  | cons d rest ih =>
      obtain ⟨hc, hrest⟩ := List.forall_mem_cons.1 hword
      rw [letterAfterDigit, Bool.or_eq_false_iff] at hdigit
      obtain ⟨hhere, hlater⟩ := hdigit
      have hd := hrest d List.mem_cons_self
      obtain ⟨first, others, hnext, hwords⟩ := ofChars_cons_inner (isWordChar_toUpper hc)
        ((endsBefore_map_toUpper hc hd rest).trans hhere)
      rw [ih hrest hlater] at hnext
      obtain ⟨rfl, rfl⟩ := List.cons.inj hnext
      exact hwords

/-- A pass over a word in capitals gives the word as pascal or camel case write it, exactly if it
has no letter after a digit. -/
theorem recased_map_toUpper_iff (hword : ∀ x ∈ c :: word, isWordChar x = true) (starts : Bool) :
    recased starts ((c :: word).map Char.toUpper) = letter starts c :: word.map Char.toLower ↔
      letterAfterDigit (c :: word) = false := by
  induction word generalizing c starts with
  | nil =>
      rw [List.map_singleton, recased, if_pos (isWordChar_toUpper (hword c List.mem_cons_self))]
      simp [recased, letterAfterDigit, letter_toUpper]
  | cons d rest ih =>
      obtain ⟨hc, hrest⟩ := List.forall_mem_cons.1 hword
      have hd := hrest d List.mem_cons_self
      have hlower : (d :: rest).map Char.toLower = letter false d :: rest.map Char.toLower := rfl
      rw [List.map_cons, recased, if_pos (isWordChar_toUpper hc), letter_toUpper,
        endsBefore_map_toUpper hc hd, List.cons.injEq, hlower, letterAfterDigit,
        Bool.or_eq_false_iff]
      cases hends : c.isDigit && d.isAlpha with
      | false => simpa using ih hrest false
      | true =>
          have halpha : d.isAlpha = true := (Bool.and_eq_true _ _ ▸ hends).2
          have hdiffers : letter true d ≠ letter false d := by
            intro heq
            have hupper := isUpper_letter true d
            rw [heq, isUpper_letter, halpha] at hupper
            cases hupper
          rw [List.map_cons, recased, if_pos (isWordChar_toUpper hd), letter_toUpper]
          simp [hdiffers]

theorem length_recased {cs : List Char} (hcs : ∀ x ∈ cs, isWordChar x = true) (starts : Bool) :
    (recased starts cs).length = cs.length := by
  induction cs generalizing starts with
  | nil => rfl
  | cons c rest ih =>
      obtain ⟨hc, hrest⟩ := List.forall_mem_cons.1 hcs
      rw [recased, if_pos hc, List.length_cons, ih hrest, List.length_cons]

/-- What is glued together from two lists of words is so from each, the second with capitals. -/
theorem glued_append {first : List (List Char)} (hfirst : first ≠ []) (starts : Bool)
    (second : List (List Char)) :
    glued starts (first ++ second) = glued starts first ++ glued true second := by
  cases first with
  | nil => exact absurd rfl hfirst
  | cons word words =>
      rw [List.cons_append, glued_cons, glued_cons, glued_true, glued_true, glued_true,
        List.map_append, List.flatten_append, List.append_assoc]

/-- One word in capitals, read and glued together again. -/
theorem glued_upperChars_iff (h : IsWord word) (starts : Bool) :
    glued starts (ofChars (upperChars word)) = lettered starts word ↔
      letterAfterDigit word = false := by
  cases word with
  | nil => exact absurd rfl h.1
  | cons c rest =>
      rw [h.upperChars_eq, glued_ofChars, lettered_cons h]
      exact recased_map_toUpper_iff h.2 starts

theorem length_glued_upperChars (h : IsWord word) (starts : Bool) :
    (glued starts (ofChars (upperChars word))).length = (lettered starts word).length := by
  cases word with
  | nil => exact absurd rfl h.1
  | cons c rest =>
      rw [h.upperChars_eq, glued_ofChars, lettered_cons h,
        length_recased (List.forall_mem_map.2 fun x hx => isWordChar_toUpper (h.2 x hx))]
      simp

/-- Word by word: names glued together from words in capitals are those from the words themselves
exactly if no word has a letter after a digit. -/
theorem glued_flatMap_upperChars_iff (hwords : ∀ w ∈ words, IsWord w) (starts : Bool) :
    glued starts ((words.map upperChars).flatMap ofChars) = glued starts words ↔
      ∀ word ∈ words, letterAfterDigit word = false := by
  induction words generalizing starts with
  | nil => simp
  | cons word words ih =>
      obtain ⟨hword, hrest⟩ := List.forall_mem_cons.1 hwords
      obtain ⟨c, hmem⟩ := List.exists_mem_of_ne_nil _ hword.upperChars.1
      have hne : ofChars (upperChars word) ≠ [] :=
        ofChars_ne_nil hmem (hword.upperChars.2 c hmem)
      rw [List.map_cons, List.flatMap_cons, glued_append hne, glued_cons, List.forall_mem_cons,
        ← ih hrest true, ← glued_upperChars_iff hword starts]
      constructor
      · exact fun h => List.append_inj h (length_glued_upperChars hword starts)
      · rintro ⟨hhere, hlater⟩
        rw [hhere, hlater]

end Capitals

end Word

namespace CaseStyle

open Word

variable {T : CaseStyle} {cs ds : List Char}

theorem map_intercalate (f : Char → Char) (s : Char) (texts : List (List Char)) :
    ([s].intercalate texts).map f = [f s].intercalate (texts.map (List.map f)) := by
  cases texts with
  | nil => rfl
  | cons text rest =>
      exact intercalate_map_of_append (fun _ _ => List.map_append) (List.cons_ne_nil text rest)

theorem ofChars_apply_constant (cs : List Char) :
    Word.ofChars (constant.apply cs) = ((Word.ofChars cs).map upperChars).flatMap Word.ofChars :=
  ofChars_intercalate_eq_flatMap (by decide) _

/-- Constant case in lower case is snake case. -/
theorem map_toLower_apply_constant (cs : List Char) :
    (constant.apply cs).map Char.toLower = snake.apply cs := by
  have hwords : ((Word.ofChars cs).map upperChars).map (List.map Char.toLower) =
      (Word.ofChars cs).map lowerChars := by
    rw [List.map_map]
    apply List.map_congr_left
    intro word hword
    exact (isWord_of_mem_ofChars hword).map_toLower_upperChars
  calc
    (constant.apply cs).map Char.toLower
        = (['_'].intercalate ((Word.ofChars cs).map upperChars)).map Char.toLower := rfl
    _ = ['_'.toLower].intercalate
          (((Word.ofChars cs).map upperChars).map (List.map Char.toLower)) :=
      map_intercalate Char.toLower '_' _
    _ = ['_'].intercalate ((Word.ofChars cs).map lowerChars) := by
      rw [hwords]
      rfl
    _ = snake.apply cs := rfl

/-- Two texts are alike in constant case exactly if they have the same words but for letter case. -/
theorem apply_constant_eq_iff :
    constant.apply cs = constant.apply ds ↔ lowered cs = lowered ds := by
  constructor
  · intro h
    apply (apply_eq_apply_iff (S := snake) (by decide)).1
    rw [← map_toLower_apply_constant, h, map_toLower_apply_constant]
  · exact apply_eq_of_lowered_eq (by decide)

/-- The words of a text are found again in constant case if none has a letter after a digit. -/
theorem lowered_apply_constant (h : ∀ word ∈ Word.ofChars cs, letterAfterDigit word = false) :
    lowered (constant.apply cs) = lowered cs := by
  have hwords : Word.ofChars (constant.apply cs) = (Word.ofChars cs).map upperChars := by
    apply ofChars_intercalate (by decide)
    rw [List.forall_mem_map]
    intro word hword
    have hisWord := isWord_of_mem_ofChars hword
    rw [hisWord.upperChars_eq]
    cases word with
    | nil => exact absurd rfl hisWord.1
    | cons c rest => exact ofChars_map_toUpper hisWord.2 (h _ hword)
  rw [lowered, hwords, lowered, List.map_map]
  apply List.map_congr_left
  intro word hword
  exact (isWord_of_mem_ofChars hword).lowerChars_upperChars

/-- Glued names: from constant case they are what they are from the text, exactly if no word has a
letter after a digit. -/
theorem glued_apply_constant_iff (starts : Bool) (cs : List Char) :
    glued starts (Word.ofChars (constant.apply cs)) = glued starts (Word.ofChars cs) ↔
      ∀ word ∈ Word.ofChars cs, letterAfterDigit word = false := by
  rw [ofChars_apply_constant]
  exact glued_flatMap_upperChars_iff (fun _ => isWord_of_mem_ofChars) starts

/-- A style that works on words writes a text and its constant case alike exactly if no word has a
letter after a digit. -/
theorem apply_apply_constant_iff (hT : T ∈ wordBased) (cs : List Char) :
    T.apply (constant.apply cs) = T.apply cs ↔
      ∀ word ∈ Word.ofChars cs, letterAfterDigit word = false := by
  constructor
  · intro h
    have hpascal : lowered (constant.apply cs) = lowered cs →
        ∀ word ∈ Word.ofChars cs, letterAfterDigit word = false := by
      intro hlowered
      rw [← glued_apply_constant_iff true, ← apply_pascal, ← apply_pascal]
      exact apply_eq_of_lowered_eq (by decide) hlowered
    cases T
    case lower | upper | lowerFirst | upperFirst | keep => exact absurd hT (by decide)
    case pascal => rwa [apply_pascal, apply_pascal, glued_apply_constant_iff] at h
    case camel => rwa [apply_camel, apply_camel, glued_apply_constant_iff] at h
    case constant => exact hpascal (apply_constant_eq_iff.1 h)
    case snake | param | dot | path | spaced | capital | header | sentence =>
      exact hpascal ((apply_eq_apply_iff (by decide)).1 h)
  · intro h
    exact apply_eq_of_lowered_eq hT (lowered_apply_constant h)

/-- What constant case writes reads in a style that works on words as the text itself does, exactly
if no word has a letter after a digit; so it does in constant case. -/
theorem write_write_constant_iff (s : String) :
    (∀ T ∈ wordBased, T.write (constant.write s) = T.write s ↔
      ∀ word ∈ Word.ofChars s.toList, letterAfterDigit word = false) ∧
    (constant.write (constant.write s) = constant.write s ↔
      ∀ word ∈ Word.ofChars s.toList, letterAfterDigit word = false) := by
  have hstyle {T : CaseStyle} (hT : T ∈ wordBased) :
      T.write (constant.write s) = T.write s ↔
        ∀ word ∈ Word.ofChars s.toList, letterAfterDigit word = false :=
    (write_write_eq_iff constant T s).trans (apply_apply_constant_iff hT s.toList)
  exact ⟨fun T hT => hstyle hT, hstyle (by decide)⟩

/-- A version with a letter after its number is divided, one without is not. -/
theorem write_write_constant_of_version :
    pascal ∈ wordBased ∧ pascal.write (constant.write "v2 apiBeta") = "V2ApiBeta" ∧
      snake.write (constant.write "v2beta") ≠ snake.write "v2beta" := by
  refine ⟨by decide, ?_, ?_⟩
  · exact (((write_write_constant_iff "v2 apiBeta").1 pascal (by decide)).2 (by decide)).trans
      (by decide)
  · intro h
    exact absurd (((write_write_constant_iff "v2beta").1 snake (by decide)).1 h) (by decide)

end CaseStyle

end Nomenclature
