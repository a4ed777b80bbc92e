import Nomenclature.Proofs.LetterCase
import Nomenclature.Proofs.Separators
import Nomenclature.Word

/-!
# Where words end

The two passes that mark the ends of words, and the split that follows them, come to one recursion
over the characters: a separator is dropped, and any other character stands alone or goes in front
of the word that comes next, as the characters after it decide. Two statements follow from it. Where
two texts meet at the end of a word, the words of both together are those of the one and then those
of the other; and words with a separator between them are found again.
-/

namespace Nomenclature.Word

/-- Whether a capital comes next. -/
def capitalNext : List Char → Bool
  | [] => false
  | d :: _ => d.isUpper

/-- Whether a capital comes next that a lower case letter follows. -/
def capitalisedNext : List Char → Bool
  | d :: e :: _ => d.isUpper && e.isLower
  | _ => false

/-- Whether a mark goes between a character and what follows it. -/
def marksAfter (c : Char) (following : List Char) : Bool :=
  (c.isLower || c.isDigit) && capitalNext following || c.isUpper && capitalisedNext following

/-- Puts a blank at both kinds of ends. -/
def marked : List Char → List Char
  | [] => []
  | c :: rest => if marksAfter c rest then c :: ' ' :: marked rest else c :: marked rest

/-- Whether a character is the last of its word if these follow it. -/
def endsBefore (c : Char) (following : List Char) : Bool :=
  !(following.head?.any isWordChar) || marksAfter c following

theorem isWordChar_of_isAlpha {c : Char} (hc : c.isAlpha = true) : isWordChar c = true := by
  rw [isWordChar, Bool.or_eq_true]
  exact .inl hc

theorem ne_underscore_of_isWordChar {c : Char} (hc : isWordChar c = true) : c ≠ '_' := by
  rintro rfl
  exact absurd hc (by decide)

section Marks

theorem isUpper_eq_false_of_lower_or_digit {c : Char} (hc : (c.isLower || c.isDigit) = true) :
    c.isUpper = false := by
  rw [Bool.or_eq_true, Text.isLower_iff, Text.isDigit_iff] at hc
  rw [← Bool.not_eq_true, Text.isUpper_iff]
  omega

theorem isLower_eq_false_of_isUpper {c : Char} (hc : c.isUpper = true) : c.isLower = false := by
  rw [Text.isUpper_iff] at hc
  rw [← Bool.not_eq_true, Text.isLower_iff]
  omega

/-- No hump begins at the capital that another one ended with. -/
theorem markHumps_cons_of_isUpper {d : Char} (hd : d.isUpper = true) (rest : List Char) :
    markHumps (d :: rest) = d :: markHumps rest := by
  have hlow : (d.isLower || d.isDigit) = false := by
    rw [← Bool.not_eq_true]
    intro hlow
    rw [isUpper_eq_false_of_lower_or_digit hlow] at hd
    cases hd
  cases rest with
  | nil => rfl
  | cons e rest => simp [markHumps, hlow]

/-- A hump that is taken whole leaves none out: the pass might as well take its first character
alone. -/
theorem markHumps_cons (c : Char) (rest : List Char) :
    markHumps (c :: rest) =
      if (c.isLower || c.isDigit) && capitalNext rest then c :: ' ' :: markHumps rest
      else c :: markHumps rest := by
  cases rest with
  | nil => simp [markHumps, capitalNext]
  | cons d rest =>
      rw [markHumps, capitalNext]
      split
      · rename_i hhump
        rw [markHumps_cons_of_isUpper (Bool.and_eq_true _ _ ▸ hhump).2]
      · rfl

theorem markAcronyms_cons_of_not_isUpper {d : Char} (hd : d.isUpper = false) (rest : List Char) :
    markAcronyms (d :: rest) = d :: markAcronyms rest := by
  match rest with
  | [] => rfl
  | [e] => rfl
  | e :: f :: rest => simp [markAcronyms, hd]

/-- No acronym ends at a capital before a lower case letter, nor at that letter. -/
theorem markAcronyms_cons_cons {e : Char} (he : e.isUpper = false) (d : Char) (rest : List Char) :
    markAcronyms (d :: e :: rest) = d :: e :: markAcronyms rest := by
  cases rest with
  | nil => rfl
  | cons f rest =>
      rw [markAcronyms, he, Bool.and_false, Bool.false_and, if_neg Bool.false_ne_true,
        markAcronyms_cons_of_not_isUpper he]

/-- The same holds of the end of an acronym, of which three characters are taken. -/
theorem markAcronyms_cons (c : Char) (rest : List Char) :
    markAcronyms (c :: rest) =
      if c.isUpper && capitalisedNext rest then c :: ' ' :: markAcronyms rest
      else c :: markAcronyms rest := by
  match rest with
  | [] => simp [markAcronyms, capitalisedNext]
  | [d] => simp [markAcronyms, capitalisedNext]
  | d :: e :: rest =>
      rw [markAcronyms, capitalisedNext, ← Bool.and_assoc]
      split
      · rename_i hend
        have hlower : e.isLower = true := (Bool.and_eq_true _ _ ▸ hend).2
        rw [markAcronyms_cons_cons]
        apply isUpper_eq_false_of_lower_or_digit
        rw [hlower, Bool.true_or]
      · rfl

/-- Marking humps leaves capitals together with the lower case letters that follow them. -/
theorem capitalisedNext_markHumps (cs : List Char) :
    capitalisedNext (markHumps cs) = capitalisedNext cs := by
  match cs with
  | [] => rfl
  | [d] => rfl
  | d :: e :: rest =>
      rw [markHumps_cons]
      split
      · rename_i hhump
        rw [Bool.and_eq_true] at hhump
        simp [capitalisedNext, isUpper_eq_false_of_lower_or_digit hhump.1]
      · rw [markHumps_cons]
        split <;> rfl

/-- The marks of both passes are those of one. -/
theorem markAcronyms_markHumps (cs : List Char) : markAcronyms (markHumps cs) = marked cs := by
  induction cs with
  | nil => rfl
  | cons c rest ih =>
      rw [markHumps_cons, marked, marksAfter]
      split
      · rename_i hhump
        have hlow := (Bool.and_eq_true _ _ ▸ hhump).1
        rw [hhump, markAcronyms_cons, markAcronyms_cons,
          isUpper_eq_false_of_lower_or_digit hlow, ih]
        rfl
      · rename_i hhump
        rw [Bool.not_eq_true] at hhump
        rw [hhump, markAcronyms_cons, capitalisedNext_markHumps, ih]
        rfl

theorem marksAfter_of_not_isWordChar {c : Char} (hc : isWordChar c = false)
    (following : List Char) : marksAfter c following = false := by
  simp only [isWordChar, Bool.or_eq_false_iff] at hc
  simp [marksAfter, hc]

end Marks

section Words

variable {c : Char} {cs ds : List Char}

theorem ofChars_eq (cs : List Char) :
    ofChars cs = ((marked cs).splitOnP fun c => !isWordChar c).filter fun word =>
      !word.isEmpty := by
  rw [ofChars, markAcronyms_markHumps]

@[simp]
theorem ofChars_nil : ofChars [] = [] := rfl

/-- A separator belongs to no word. -/
theorem ofChars_cons_separator (hc : isWordChar c = false) (rest : List Char) :
    ofChars (c :: rest) = ofChars rest := by
  rw [ofChars_eq, ofChars_eq, marked, marksAfter_of_not_isWordChar hc,
    if_neg Bool.false_ne_true, List.splitOnP_cons_eq_if_modifyHead, if_pos (by simp [hc])]
  rfl

/-- The last character of a word. -/
theorem ofChars_cons_last (hc : isWordChar c = true) {rest : List Char}
    (hend : endsBefore c rest = true) : ofChars (c :: rest) = [c] :: ofChars rest := by
  rw [ofChars_eq, ofChars_eq, marked]
  cases hmark : marksAfter c rest with
  | true =>
      rw [if_pos rfl, List.splitOnP_cons_eq_if_modifyHead, if_neg (by simp [hc]),
        List.splitOnP_cons_eq_if_modifyHead, if_pos (by decide)]
      rfl
  | false =>
      rw [endsBefore, hmark, Bool.or_false, Bool.not_eq_true'] at hend
      rw [if_neg Bool.false_ne_true, List.splitOnP_cons_eq_if_modifyHead, if_neg (by simp [hc])]
      cases rest with
      | nil => rfl
      | cons d rest =>
          have hd : isWordChar d = false := hend
          rw [marked, marksAfter_of_not_isWordChar hd, if_neg Bool.false_ne_true,
            List.splitOnP_cons_eq_if_modifyHead, if_pos (by simp [hd])]
          rfl

/-- Any other character goes in front of the word that comes next. -/
theorem ofChars_cons_inner (hc : isWordChar c = true) {rest : List Char}
    (hinner : endsBefore c rest = false) :
    ∃ word words, ofChars rest = word :: words ∧ ofChars (c :: rest) = (c :: word) :: words := by
  rw [endsBefore, Bool.or_eq_false_iff, Bool.not_eq_false'] at hinner
  obtain ⟨hnext, hmark⟩ := hinner
  cases rest with
  | nil => cases hnext
  | cons d rest =>
      have hd : isWordChar d = true := hnext
      have hsplit (marks : List Char) : ∃ word words,
          ((d :: marks).splitOnP fun c => !isWordChar c) = (d :: word) :: words := by
        rw [List.splitOnP_cons_eq_if_modifyHead, if_neg (by simp [hd])]
        obtain ⟨word, words, hpieces⟩ := List.exists_cons_of_ne_nil
          (List.splitOnP_ne_nil (fun c => !isWordChar c) marks)
        exact ⟨word, words, by rw [hpieces]; rfl⟩
      obtain ⟨marks, hmarks⟩ : ∃ marks, marked (d :: rest) = d :: marks := by
        rw [marked]
        split
        · exact ⟨_, rfl⟩
        · exact ⟨_, rfl⟩
      obtain ⟨word, words, hpieces⟩ := hsplit marks
      refine ⟨d :: word, words.filter fun word => !word.isEmpty, ?_, ?_⟩
      · rw [ofChars_eq, hmarks, hpieces]
        rfl
      · rw [ofChars_eq, marked, hmark, if_neg Bool.false_ne_true, hmarks,
          List.splitOnP_cons_eq_if_modifyHead, if_neg (by simp [hc]), hpieces]
        rfl

theorem endsBefore_nil (c : Char) : endsBefore c [] = true := rfl

theorem endsBefore_cons_separator {s : Char} (hs : isWordChar s = false) (c : Char)
    (rest : List Char) : endsBefore c (s :: rest) = true := by
  simp [endsBefore, hs]

/-- A word goes on where no capital comes. -/
theorem endsBefore_cons_of_not_isUpper {d : Char} (hd : isWordChar d = true)
    (hupper : d.isUpper = false) (c : Char) (rest : List Char) :
    endsBefore c (d :: rest) = false := by
  have hnext : capitalisedNext (d :: rest) = false := by
    cases rest <;> simp [capitalisedNext, hupper]
  simp [endsBefore, marksAfter, capitalNext, hd, hupper, hnext]

/-- Letters and digits, at least one. -/
def IsWord (word : List Char) : Prop :=
  word ≠ [] ∧ ∀ c ∈ word, isWordChar c = true

theorem isWord_of_mem_ofChars {word : List Char} (h : word ∈ ofChars cs) : IsWord word := by
  induction cs generalizing word with
  | nil => cases h
  | cons c rest ih =>
      cases hc : isWordChar c with
      | false =>
          rw [ofChars_cons_separator hc] at h
          exact ih h
      | true =>
          cases hend : endsBefore c rest with
          | true =>
              rw [ofChars_cons_last hc hend] at h
              rcases List.mem_cons.1 h with rfl | h
              · exact ⟨List.cons_ne_nil c [], List.forall_mem_singleton.2 hc⟩
              · exact ih h
          | false =>
              obtain ⟨first, words, hrest, hwords⟩ := ofChars_cons_inner hc hend
              rw [hwords] at h
              rw [hrest] at ih
              rcases List.mem_cons.1 h with rfl | h
              · have hfirst := (ih List.mem_cons_self).2
                exact ⟨List.cons_ne_nil c first, List.forall_mem_cons.2 ⟨hc, hfirst⟩⟩
              · exact ih (List.mem_cons_of_mem first h)

/-- A text with a letter or digit has a word. -/
theorem ofChars_ne_nil (hmem : c ∈ cs) (hc : isWordChar c = true) : ofChars cs ≠ [] := by
  induction cs with
  | nil => cases hmem
  | cons d rest ih =>
      cases hd : isWordChar d with
      | false =>
          rw [ofChars_cons_separator hd]
          apply ih
          refine (List.mem_cons.1 hmem).resolve_left ?_
          rintro rfl
          rw [hc] at hd
          cases hd
      | true =>
          cases hend : endsBefore d rest with
          | true =>
              rw [ofChars_cons_last hd hend]
              apply List.cons_ne_nil
          | false =>
              obtain ⟨word, words, -, hwords⟩ := ofChars_cons_inner hd hend
              rw [hwords]
              apply List.cons_ne_nil

/-- A text without letters and digits has none. -/
theorem ofChars_eq_nil (h : cs.any isWordChar = false) : ofChars cs = [] := by
  induction cs with
  | nil => rfl
  | cons c rest ih =>
      rw [List.any_cons, Bool.or_eq_false_iff] at h
      obtain ⟨hc, hrest⟩ := h
      rw [ofChars_cons_separator hc, ih hrest]

/-- At the end of a word no capital stands before a lower case letter. -/
theorem capitalisedNext_cons_eq_false (hc : isWordChar c = true → endsBefore c ds = true) :
    capitalisedNext (c :: ds) = false := by
  cases ds with
  | nil => rfl
  | cons d rest =>
      rw [capitalisedNext, Bool.and_eq_false_iff]
      by_contra hboth
      rw [not_or, Bool.not_eq_false, Bool.not_eq_false] at hboth
      obtain ⟨hupper, hlower⟩ := hboth
      have hword : isWordChar c = true := by simp [isWordChar, hupper]
      have hd : isWordChar d = true := by simp [isWordChar, hlower]
      have hdUpper : d.isUpper = false := by
        rw [← Bool.not_eq_true]
        intro hd
        rw [isLower_eq_false_of_isUpper hd] at hlower
        cases hlower
      rw [endsBefore_cons_of_not_isUpper hd hdUpper] at hc
      cases hc hword

/-- Where a text stops at the end of a word, what is appended neither joins nor divides its
words. -/
theorem ofChars_append
    (h : ∀ c, cs.getLast? = some c → isWordChar c = true → endsBefore c ds = true) :
    ofChars (cs ++ ds) = ofChars cs ++ ofChars ds := by
  induction cs with
  | nil => rfl
  | cons c rest ih =>
      rw [List.cons_append]
      cases hc : isWordChar c with
      | false =>
          rw [ofChars_cons_separator hc, ofChars_cons_separator hc]
          apply ih
          intro d hd
          apply h
          rw [List.getLast?_cons, hd]
          rfl
      | true =>
          cases rest with
          | nil =>
              rw [List.nil_append, ofChars_cons_last hc (h c rfl hc),
                ofChars_cons_last hc (endsBefore_nil c)]
              rfl
          | cons d tail =>
              have hrest := ih h
              have hnext : endsBefore c (d :: (tail ++ ds)) = endsBefore c (d :: tail) := by
                have hcapitalised :
                    capitalisedNext (d :: (tail ++ ds)) = capitalisedNext (d :: tail) := by
                  cases tail with
                  | nil => exact capitalisedNext_cons_eq_false (h d rfl)
                  | cons e tail => rfl
                rw [endsBefore, endsBefore, marksAfter, marksAfter, hcapitalised]
                rfl
              cases hend : endsBefore c (d :: tail) with
              | true =>
                  rw [List.cons_append] at hrest ⊢
                  rw [ofChars_cons_last hc hend, ofChars_cons_last hc (hnext.trans hend), hrest]
                  rfl
              | false =>
                  obtain ⟨word, words, hfirst, hwords⟩ := ofChars_cons_inner hc hend
                  obtain ⟨word', words', hfirst', hwords'⟩ :=
                    ofChars_cons_inner hc (hnext.trans hend)
                  rw [List.cons_append] at hrest ⊢
                  rw [hfirst, hfirst'] at hrest
                  obtain ⟨rfl, rfl⟩ := List.cons.inj hrest
                  rw [hwords, hwords']
                  rfl

theorem ofChars_append_cons_separator {s : Char} (hs : isWordChar s = false)
    (cs ds : List Char) : ofChars (cs ++ s :: ds) = ofChars cs ++ ofChars ds := by
  rw [ofChars_append fun c _ _ => endsBefore_cons_separator hs c ds, ofChars_cons_separator hs]

/-- Letters and digits without a capital after the first are one word. -/
theorem ofChars_eq_singleton (hc : isWordChar c = true)
    (hcs : ∀ d ∈ cs, isWordChar d = true ∧ d.isUpper = false) : ofChars (c :: cs) = [c :: cs] := by
  induction cs generalizing c with
  | nil => exact ofChars_cons_last hc (endsBefore_nil c)
  | cons d rest ih =>
      obtain ⟨⟨hd, hupper⟩, hrest⟩ := List.forall_mem_cons.1 hcs
      obtain ⟨word, words, hnext, hwords⟩ :=
        ofChars_cons_inner hc (endsBefore_cons_of_not_isUpper hd hupper c rest)
      rw [ih hd hrest] at hnext
      obtain ⟨rfl, rfl⟩ := List.cons.inj hnext
      exact hwords

/-- A capital and then lower case letters, at least one. -/
def isCapitalised : List Char → Bool
  | c :: d :: rest => c.isUpper && d.isLower && rest.all Char.isLower
  | _ => false

/-- A capitalised word at the end of a text is a word of its own, whatever stands before it. -/
theorem ofChars_append_capitalised {word : List Char} (hword : isCapitalised word = true)
    (cs : List Char) : ofChars (cs ++ word) = ofChars cs ++ [word] := by
  match word with
  | c :: d :: rest =>
      simp only [isCapitalised, Bool.and_eq_true, List.all_eq_true] at hword
      obtain ⟨⟨hc, hd⟩, hrest⟩ := hword
      have hlower (x : Char) (hx : x.isLower = true) :
          isWordChar x = true ∧ x.isUpper = false := by
        refine ⟨by simp [isWordChar, hx], isUpper_eq_false_of_lower_or_digit ?_⟩
        rw [hx, Bool.true_or]
      have hsingle : ofChars (c :: d :: rest) = [c :: d :: rest] := by
        apply ofChars_eq_singleton
        · simp [isWordChar, hc]
        · exact List.forall_mem_cons.2 ⟨hlower d hd, fun x hx => hlower x (hrest x hx)⟩
      rw [ofChars_append, hsingle]
      intro x _ hx
      have hends : x.isUpper = true ∨ (x.isLower || x.isDigit) = true := by
        rwa [isWordChar, Bool.or_assoc, Bool.or_eq_true] at hx
      rcases hends with hupper | hlow
      · simp [endsBefore, marksAfter, capitalisedNext, hupper, hc, hd]
      · simp [endsBefore, marksAfter, capitalNext, hlow, hc]

/-- The words of texts with a separator between them are those of the texts, one after the other. -/
theorem ofChars_intercalate_eq_flatMap {s : Char} (hs : isWordChar s = false)
    (texts : List (List Char)) : ofChars ([s].intercalate texts) = texts.flatMap ofChars :=
  intercalate_eq_flatMap ofChars_nil (ofChars_append_cons_separator hs) texts

/-- Words between separators are found again. -/
theorem ofChars_intercalate {s : Char} (hs : isWordChar s = false) {words : List (List Char)}
    (hwords : ∀ word ∈ words, ofChars word = [word]) : ofChars ([s].intercalate words) = words := by
  calc
    ofChars ([s].intercalate words) = words.flatMap ofChars :=
      ofChars_intercalate_eq_flatMap hs words
    _ = words.flatMap fun word => [word] := List.flatMap_congr hwords
    _ = words := List.flatMap_singleton' words

end Words

end Nomenclature.Word
