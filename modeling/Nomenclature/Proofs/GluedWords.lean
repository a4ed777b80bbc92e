import Nomenclature.Proofs.WordStyles

/-!
# Names without a separator

Pascal and camel case put words one after the other, and only the capitals tell where a word begins.
Both are one pass over the characters that remembers whether a word begins at the next one. Such a
pass over a name that is already written changes it in one kind of place only: where a word of a
single letter meets a word whose second character is no letter. There two capitals stand together
like those of an acronym, and the second one is lost.
-/

namespace Nomenclature

open Text

namespace Word

/-- A character as it stands at the beginning of a word or inside one. -/
def letter (starts : Bool) (c : Char) : Char :=
  if starts then c.toUpper else c.toLower

/-- A word with a capital or without. -/
def lettered (starts : Bool) (word : List Char) : List Char :=
  if starts then CaseStyle.capitalize word else lowerChars word

/-- Words without a separator, all of them with a capital but perhaps the first. -/
def glued (starts : Bool) : List (List Char) → List Char
  | [] => []
  | word :: words => lettered starts word ++ (words.map CaseStyle.capitalize).flatten

/-- Writes a word character as a capital if a word begins there and in lower case if not, and drops
the separators. -/
def recased (starts : Bool) : List Char → List Char
  | [] => []
  | c :: rest =>
    if isWordChar c then letter starts c :: recased (endsBefore c rest) rest
    else recased starts rest

section Letters

variable {c : Char}

theorem letter_false_of_not_isUpper (hc : c.isUpper = false) : letter false c = c :=
  Char.toLower_eq_of_not_isUpper (Bool.eq_false_iff.1 hc)

theorem letter_true_of_not_isLower (hc : c.isLower = false) : letter true c = c :=
  Char.toUpper_eq_of_not_isLower (Bool.eq_false_iff.1 hc)

theorem letter_letter (starts first : Bool) (c : Char) :
    letter starts (letter first c) = letter starts c := by
  cases starts <;> cases first <;> simp [letter]

theorem isWordChar_letter (starts : Bool) (hc : isWordChar c = true) :
    isWordChar (letter starts c) = true := by
  cases starts with
  | false => exact isWordChar_toLower hc
  | true => exact isWordChar_toUpper hc

theorem isUpper_letter (starts : Bool) (c : Char) :
    (letter starts c).isUpper = (starts && c.isAlpha) := by
  cases starts with
  | false => exact Char.isUpper_toLower_eq_false c
  | true => exact Char.isUpper_toUpper_eq_isAlpha c

/-- A word character other than a capital is a lower case letter or a digit. -/
theorem isLower_or_isDigit (hc : isWordChar c = true) :
    (c.isLower || c.isDigit) = !c.isUpper := by
  cases hupper : c.isUpper with
  | false =>
      rw [isWordChar, hupper, Bool.false_or] at hc
      exact hc
  | true =>
      rw [Bool.not_true, Bool.eq_false_iff]
      intro hlow
      rw [isUpper_eq_false_of_lower_or_digit hlow] at hupper
      cases hupper

theorem isAlpha_eq_not_isDigit (hc : isWordChar c = true) : c.isAlpha = !c.isDigit := by
  cases hdigit : c.isDigit with
  | false =>
      rw [isWordChar_eq, hdigit, Bool.or_false] at hc
      exact hc
  | true =>
      rw [Bool.not_true, Bool.eq_false_iff, Char.isAlpha, Ne, Bool.or_eq_true, isUpper_iff,
        isLower_iff]
      rw [isDigit_iff] at hdigit
      omega

end Letters

section Glued

variable {c : Char} {word : List Char} {words : List (List Char)}

theorem lettered_cons (h : IsWord (c :: word)) (starts : Bool) :
    lettered starts (c :: word) = letter starts c :: word.map Char.toLower := by
  cases starts with
  | false => exact h.lowerChars_eq
  | true => exact h.capitalize_eq

theorem glued_nil (starts : Bool) : glued starts [] = [] := rfl

theorem glued_true (words : List (List Char)) :
    glued true words = (words.map CaseStyle.capitalize).flatten := by
  cases words with
  | nil => rfl
  | cons word words => rfl

theorem glued_cons (starts : Bool) (word : List Char) (words : List (List Char)) :
    glued starts (word :: words) = lettered starts word ++ glued true words := by
  rw [glued, glued_true]

theorem apply_pascal (cs : List Char) : CaseStyle.pascal.apply cs = glued true (ofChars cs) := by
  rw [glued_true]
  rfl

theorem apply_camel (cs : List Char) : CaseStyle.camel.apply cs = glued false (ofChars cs) := by
  rw [CaseStyle.apply]
  cases ofChars cs with
  | nil => rfl
  | cons word words => rfl

/-- The words glued together are one pass over the text. -/
theorem glued_ofChars (starts : Bool) (cs : List Char) :
    glued starts (ofChars cs) = recased starts cs := by
  induction cs generalizing starts with
  | nil => rfl
  | cons c rest ih =>
      rw [recased]
      cases hc : isWordChar c with
      | false => rw [ofChars_cons_separator hc, if_neg Bool.false_ne_true, ih]
      | true =>
          rw [if_pos rfl]
          cases hend : endsBefore c rest with
          | true =>
              have hsingle : IsWord [c] := ⟨List.cons_ne_nil c [], List.forall_mem_singleton.2 hc⟩
              rw [ofChars_cons_last hc hend, glued_cons, lettered_cons hsingle, ih]
              rfl
          | false =>
              obtain ⟨word, words, hrest, hwords⟩ := ofChars_cons_inner hc hend
              have hlonger : IsWord (c :: word) :=
                isWord_of_mem_ofChars (hwords ▸ List.mem_cons_self)
              have hshorter : IsWord word := isWord_of_mem_ofChars (hrest ▸ List.mem_cons_self)
              have hlower : lettered false word = word.map Char.toLower := hshorter.lowerChars_eq
              rw [hwords, glued_cons, lettered_cons hlonger, ← ih, hrest, glued_cons, hlower]
              rfl

/-- A pass over a text leaves letters and digits only. -/
theorem isWordChar_of_mem_recased {d : Char} {cs : List Char} {starts : Bool}
    (hd : d ∈ recased starts cs) : isWordChar d = true := by
  induction cs generalizing starts with
  | nil => cases hd
  | cons c rest ih =>
      rw [recased] at hd
      split at hd
      · rename_i hc
        rcases List.mem_cons.1 hd with rfl | hd
        · exact isWordChar_letter starts hc
        · exact ih hd
      · exact ih hd

/-- A pass over letters without a capital after the first leaves all but the first as they are. -/
theorem recased_append {ds : List Char} (hc : isWordChar c = true)
    (hds : ∀ d ∈ ds, isWordChar d = true ∧ d.isUpper = false) (starts : Bool) (ts : List Char) :
    ∃ last, (c :: ds).getLast? = some last ∧
      recased starts (c :: ds ++ ts) = letter starts c :: ds ++ recased (endsBefore last ts) ts := by
  induction ds generalizing c starts with
  | nil => exact ⟨c, rfl, by rw [List.singleton_append, recased, if_pos hc]; rfl⟩
  | cons d rest ih =>
      obtain ⟨⟨hd, hupper⟩, hrest⟩ := List.forall_mem_cons.1 hds
      obtain ⟨last, hlast, hrecased⟩ := ih hd hrest false
      refine ⟨last, hlast, ?_⟩
      rw [List.cons_append, recased, if_pos hc, List.cons_append,
        endsBefore_cons_of_not_isUpper hd hupper, ← List.cons_append, hrecased,
        letter_false_of_not_isUpper hupper]
      rfl

/-- Whether a word is a single letter. -/
def isLetter : List Char → Bool
  | [c] => c.isAlpha
  | _ => false

/-- A pass over a word that is already written gives it or takes from it its capital, and goes on as
its last character decides. That is a capital only if the word is a single letter. -/
theorem recased_lettered_append (h : IsWord word) (starts first : Bool) (ts : List Char) :
    ∃ last, isWordChar last = true ∧ last.isUpper = (first && isLetter word) ∧
      recased starts (lettered first word ++ ts) =
        lettered starts word ++ recased (endsBefore last ts) ts := by
  cases word with
  | nil => exact absurd rfl h.1
  | cons c rest =>
      obtain ⟨hc, hrest⟩ := List.forall_mem_cons.1 h.2
      have hlower : ∀ d ∈ rest.map Char.toLower, isWordChar d = true ∧ d.isUpper = false :=
        List.forall_mem_map.2 fun d hd =>
          ⟨isWordChar_toLower (hrest d hd), Char.isUpper_toLower_eq_false d⟩
      obtain ⟨last, hlast, hrecased⟩ := recased_append (isWordChar_letter first hc) hlower starts ts
      rw [lettered_cons h, lettered_cons h, hrecased, letter_letter]
      refine ⟨last, ?_, ?_, rfl⟩
      · rcases List.mem_cons.1 (List.mem_of_getLast? hlast) with rfl | hmem
        · exact isWordChar_letter first hc
        · exact (hlower last hmem).1
      · cases rest with
        | nil =>
            obtain rfl : letter first c = last := Option.some.inj hlast
            exact isUpper_letter first c
        | cons d rest =>
            have hmem : last ∈ (d :: rest).map Char.toLower :=
              List.mem_of_getLast? (List.getLast?_cons_cons ▸ hlast)
            exact (hlower last hmem).2.trans (Bool.and_false first).symm

end Glued

/-! ## Reading a name again -/

/-- Whether a word begins with a letter that no other letter follows. -/
def beginsAlone : List Char → Bool
  | [] => false
  | d :: rest => d.isAlpha && rest.head?.all Char.isDigit

/-- Whether a word of a single letter meets a word whose second character, if any, is a digit. -/
def clashes (word next : List Char) : Bool :=
  isLetter word && beginsAlone next

/-- Whether a word clashes with the one after it. -/
def ClashAt (words : List (List Char)) (i : Nat) : Prop :=
  ∃ word next, words[i]? = some word ∧ words[i + 1]? = some next ∧ clashes word next = true

section Junctions

variable {c d : Char} {word next : List Char} {words : List (List Char)}

/-- Before another word character a word ends in two places: where a capital follows a lower case
letter or a digit, and between two capitals that a lower case letter follows. -/
theorem endsBefore_cons (hc : isWordChar c = true) (hd : isWordChar d = true) (ts : List Char) :
    endsBefore c (d :: ts) = (d.isUpper && (!c.isUpper || ts.head?.any Char.isLower)) := by
  have hcapitalised :
      capitalisedNext (d :: ts) = (d.isUpper && ts.head?.any Char.isLower) := by
    cases ts with
    | nil => exact (Bool.and_false _).symm
    | cons e ts => rfl
  rw [endsBefore, marksAfter, isLower_or_isDigit hc, hcapitalised, capitalNext, List.head?_cons,
    Option.any_some, hd]
  cases c.isUpper <;> cases d.isUpper <;> simp

/-- What begins with a capital or a digit is read as before behind another character, unless two
capitals stand together and no lower case letter follows. -/
theorem recased_endsBefore_iff (hc : isWordChar c = true) (hd : isWordChar d = true)
    (hlower : d.isLower = false) (ts : List Char) :
    recased (endsBefore c (d :: ts)) (d :: ts) = d :: ts ↔
      (c.isUpper = true → d.isUpper = true → ts.head?.any Char.isLower = true) ∧
        recased true (d :: ts) = d :: ts := by
  have hfirst (starts : Bool) : recased starts (d :: ts) = d :: ts ↔
      letter starts d = d ∧ recased (endsBefore d ts) ts = ts := by
    rw [recased, if_pos hd, List.cons.injEq]
  rw [hfirst, hfirst, letter_true_of_not_isLower hlower, endsBefore_cons hc hd]
  cases hupper : d.isUpper with
  | false => simp [letter_false_of_not_isUpper hupper]
  | true =>
      have hlost : letter false d ≠ d := by
        intro heq
        rw [← heq, isUpper_letter] at hupper
        cases hupper
      cases c.isUpper with
      | false => simp [letter_true_of_not_isLower hlower]
      | true =>
          cases ts.head?.any Char.isLower with
          | false => simp [hlost]
          | true => simp [letter_true_of_not_isLower hlower]

/-- No name without a separator begins in lower case, if its first word has a capital. -/
theorem head?_glued_true (hwords : ∀ w ∈ words, IsWord w) :
    (glued true words).head?.any Char.isLower = false := by
  cases words with
  | nil => rfl
  | cons word words =>
      obtain ⟨hword, -⟩ := List.forall_mem_cons.1 hwords
      cases word with
      | nil => exact absurd rfl hword.1
      | cons c rest =>
          rw [glued_cons, lettered_cons hword]
          exact Char.isLower_toUpper_eq_false c

/-- A word with a capital goes on in lower case exactly if its second character is a letter. -/
theorem head?_rest_glued (hnext : IsWord (d :: next)) (hwords : ∀ w ∈ words, IsWord w) :
    (next.map Char.toLower ++ glued true words).head?.any Char.isLower =
      !next.head?.all Char.isDigit := by
  cases next with
  | nil => exact head?_glued_true hwords
  | cons e rest =>
      obtain ⟨-, he⟩ := List.forall_mem_cons.1 hnext.2
      exact (Char.isLower_toLower_eq_isAlpha e).trans
        (isAlpha_eq_not_isDigit (he e List.mem_cons_self))

/-- The step at one word: what is written of it stays as it is, and so does what comes after it,
unless the word has a capital and clashes with the next. -/
theorem recased_glued_cons_iff (hword : IsWord word) (hwords : ∀ w ∈ words, IsWord w)
    (starts first : Bool) :
    recased starts (glued first (word :: words)) = glued starts (word :: words) ↔
      (first = true → ∀ next ∈ words.head?, clashes word next = false) ∧
        recased true (glued true words) = glued true words := by
  obtain ⟨last, hlast, hupper, hrecased⟩ :=
    recased_lettered_append hword starts first (glued true words)
  rw [glued_cons, glued_cons, hrecased, List.append_cancel_left_eq]
  cases words with
  | nil =>
      rw [glued_nil]
      simp [recased]
  | cons next words =>
      obtain ⟨hnext, hothers⟩ := List.forall_mem_cons.1 hwords
      cases next with
      | nil => exact absurd rfl hnext.1
      | cons d rest =>
          obtain ⟨hd, -⟩ := List.forall_mem_cons.1 hnext.2
          have hclash : clashes word (d :: rest) =
              (isLetter word && (d.isAlpha && rest.head?.all Char.isDigit)) := rfl
          rw [glued_cons, lettered_cons hnext, List.cons_append, recased_endsBefore_iff hlast
            (isWordChar_letter true hd) (Char.isLower_toUpper_eq_false d), hupper, isUpper_letter,
            head?_rest_glued hnext hothers]
          refine and_congr ?_ Iff.rfl
          simp only [List.head?_cons, Option.mem_some_iff, forall_eq', hclash]
          cases first <;> cases isLetter word <;> cases d.isAlpha <;> simp

/-- The run over all words: a name whose words begin with capitals stays as it is exactly if no word
clashes with the next. -/
theorem recased_glued_true_iff (hwords : ∀ w ∈ words, IsWord w) (starts : Bool) :
    recased starts (glued true words) = glued starts words ↔ ∀ i, ¬ClashAt words i := by
  induction words generalizing starts with
  | nil =>
      rw [glued_nil, glued_nil]
      simp [recased, ClashAt]
  | cons word words ih =>
      obtain ⟨hword, hrest⟩ := List.forall_mem_cons.1 hwords
      have hhere : (true = true → ∀ next ∈ words.head?, clashes word next = false) ↔
          ¬ClashAt (word :: words) 0 := by
        simp [ClashAt, List.head?_eq_getElem?]
      rw [recased_glued_cons_iff hword hrest, ih hrest, hhere]
      exact Nat.and_forall_add_one (p := fun i => ¬ClashAt (word :: words) i)

/-- The first word of a name clashes with none if it is in lower case. -/
theorem recased_glued_false_iff (hwords : ∀ w ∈ words, IsWord w) (starts : Bool) :
    recased starts (glued false words) = glued starts words ↔ ∀ i, 1 ≤ i → ¬ClashAt words i := by
  cases words with
  | nil =>
      rw [glued_nil, glued_nil]
      simp [recased, ClashAt]
  | cons word words =>
      obtain ⟨hword, hrest⟩ := List.forall_mem_cons.1 hwords
      calc
        recased starts (glued false (word :: words)) = glued starts (word :: words)
            ↔ recased true (glued true words) = glued true words := by
          rw [recased_glued_cons_iff hword hrest]
          simp
        _ ↔ ∀ i, ¬ClashAt words i := recased_glued_true_iff hrest true
        _ ↔ ∀ i, 1 ≤ i → ¬ClashAt (word :: words) i := by
          constructor
          · intro h i hi
            obtain ⟨j, rfl⟩ := Nat.exists_eq_add_of_le' hi
            exact h j
          · intro h i
            exact h (i + 1) (Nat.le_add_left 1 i)

end Junctions

end Word

namespace CaseStyle

open Word

theorem write_write_eq_iff (S T : CaseStyle) (s : String) :
    T.write (S.write s) = T.write s ↔ T.apply (S.apply s.toList) = T.apply s.toList := by
  rw [write, write, write, String.toList_ofList, String.ofList_inj]

/-- A name in pascal case can be written again in pascal or camel case exactly if no word of a
single letter meets a word whose second character, if any, is a digit. A name in camel case can be
exactly if no word does so but perhaps the first. -/
theorem write_pascal_camel_again (s : String) :
    (pascal.write (pascal.write s) = pascal.write s ↔
        ∀ i, ¬ClashAt (Word.ofChars s.toList) i) ∧
      (camel.write (pascal.write s) = camel.write s ↔
        ∀ i, ¬ClashAt (Word.ofChars s.toList) i) ∧
      (camel.write (camel.write s) = camel.write s ↔
        ∀ i, 1 ≤ i → ¬ClashAt (Word.ofChars s.toList) i) ∧
      (pascal.write (camel.write s) = pascal.write s ↔
        ∀ i, 1 ≤ i → ¬ClashAt (Word.ofChars s.toList) i) := by
  have hwords : ∀ w ∈ Word.ofChars s.toList, IsWord w := fun _ => isWord_of_mem_ofChars
  simp only [write_write_eq_iff, apply_pascal, apply_camel]
  simp only [glued_ofChars _ (glued _ _)]
  exact ⟨recased_glued_true_iff hwords true, recased_glued_true_iff hwords false,
    recased_glued_false_iff hwords false, recased_glued_false_iff hwords true⟩

/-- Two single letters read as an acronym, and the second one is taken for the end of a word. -/
example : pascal.write "a_b_cd" = "ABCd" ∧ pascal.write "ABCd" = "AbCd" := by decide

end CaseStyle

end Nomenclature
