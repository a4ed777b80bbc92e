import Nomenclature.Proofs.WordBoundary

/-!
# Words by position

The words of a text can be told without a pass over it. Joined, they are its letters and digits, and
which of these share a word is seen from two characters that stand side by side and the one after
them. These facts leave no choice: a list of words that has them, and no empty word, is the list of
the words of the text.
-/

namespace Nomenclature.Word

/-- The number of the word that a place in the joined words falls into. -/
def wordAt : List (List Char) → ℕ → ℕ
  | [], _ => 0
  | word :: words, place =>
    if place < word.length then 0 else wordAt words (place - word.length) + 1

/-- How many letters and digits stand before a position of a text. -/
def rank (cs : List Char) (i : ℕ) : ℕ :=
  (cs.take i).countP isWordChar

/-- The number of the word that holds the letter or digit at a position of a text. -/
def wordOf (cs : List Char) (words : List (List Char)) (i : ℕ) : ℕ :=
  wordAt words (rank cs i)

/-- Whether a word ends between two letters or digits that stand side by side. -/
def IsBoundary (c d : Char) (next : Option Char) : Prop :=
  (c.isLower = true ∨ c.isDigit = true) ∧ d.isUpper = true ∨
    c.isUpper = true ∧ d.isUpper = true ∧ ∃ e, next = some e ∧ e.isLower = true

/-- Numbers of the letters and digits of a text by position, different where words are. -/
structure NumbersWords (cs : List Char) (number : ℕ → ℕ) : Prop where
  divided_iff : ∀ i c d, cs[i]? = some c → cs[i + 1]? = some d →
    isWordChar c = true → isWordChar d = true →
      (number i ≠ number (i + 1) ↔ IsBoundary c d cs[i + 2]?)
  /-- A separator anywhere between them parts two letters or digits. -/
  apart : ∀ i j k c s d, i < j → j < k → cs[i]? = some c → cs[j]? = some s → cs[k]? = some d →
    isWordChar c = true → isWordChar s = false → isWordChar d = true → number i ≠ number k

/-- The words of a text, told by position. -/
structure IsSegmentation (cs : List Char) (words : List (List Char)) : Prop where
  flatten_eq : words.flatten = cs.filter isWordChar
  ne_nil : ∀ word ∈ words, word ≠ []
  numbers : NumbersWords cs (wordOf cs words)

section Places

variable {c : Char} {cs rest word : List Char} {words : List (List Char)}

/-- Puts a word in front of others, unless nothing is left of it. -/
def consWord (word : List Char) (words : List (List Char)) : List (List Char) :=
  if word = [] then words else word :: words

theorem wordAt_zero (hwords : ∀ word ∈ words, word ≠ []) : wordAt words 0 = 0 := by
  cases words with
  | nil => rfl
  | cons word words =>
      rw [wordAt, if_pos]
      exact List.length_pos_of_ne_nil (hwords word List.mem_cons_self)

theorem wordAt_cons_succ (c : Char) (word : List Char) (words : List (List Char)) (place : ℕ) :
    wordAt ((c :: word) :: words) (place + 1) =
      wordAt (consWord word words) place + if word = [] then 1 else 0 := by
  cases word with
  | nil => simp [wordAt, consWord]
  | cons d word => simp [wordAt, consWord]

theorem rank_cons_succ (c : Char) (rest : List Char) (i : ℕ) :
    rank (c :: rest) (i + 1) = rank rest i + if isWordChar c then 1 else 0 := by
  rw [rank, List.take_succ_cons, List.countP_cons, rank]

theorem wordOf_zero (hwords : ∀ word ∈ words, word ≠ []) : wordOf cs words 0 = 0 :=
  wordAt_zero hwords

/-- A separator makes no difference to the words behind it. -/
theorem wordOf_cons_succ_separator (hc : isWordChar c = false) (rest : List Char)
    (words : List (List Char)) (i : ℕ) :
    wordOf (c :: rest) words (i + 1) = wordOf rest words i := by
  rw [wordOf, rank_cons_succ, hc]
  rfl

/-- A letter or digit moves all words behind it by one, if its own word has no other character. -/
theorem wordOf_cons_succ (hc : isWordChar c = true) (rest word : List Char)
    (words : List (List Char)) (i : ℕ) :
    wordOf (c :: rest) ((c :: word) :: words) (i + 1) =
      wordOf rest (consWord word words) i + if word = [] then 1 else 0 := by
  rw [wordOf, rank_cons_succ, if_pos hc, wordAt_cons_succ]
  rfl

theorem flatten_consWord (word : List Char) (words : List (List Char)) :
    (consWord word words).flatten = word ++ words.flatten := by
  rw [consWord]
  split
  · rename_i hword
    rw [hword, List.nil_append]
  · exact List.flatten_cons

theorem consWord_cancel {word' : List Char} {words' : List (List Char)}
    (hword : word = [] ↔ word' = []) (h : consWord word words = consWord word' words') :
    word = word' ∧ words = words' := by
  rw [consWord, consWord] at h
  by_cases hempty : word = []
  · rw [if_pos hempty, if_pos (hword.1 hempty)] at h
    exact ⟨hempty.trans (hword.1 hempty).symm, h⟩
  · rw [if_neg hempty, if_neg (mt hword.2 hempty)] at h
    exact List.cons.inj h

/-- The number of a word leads to a word that has the character. -/
theorem exists_getElem?_wordAt {place : ℕ} (h : words.flatten[place]? = some c) :
    ∃ word, words[wordAt words place]? = some word ∧ c ∈ word := by
  induction words generalizing place with
  | nil => cases h
  | cons word words ih =>
      rw [List.flatten_cons, List.getElem?_append] at h
      rw [wordAt]
      split at h
      · rename_i hplace
        rw [if_pos hplace]
        exact ⟨word, rfl, List.mem_of_getElem? h⟩
      · rename_i hplace
        rw [if_neg hplace]
        exact ih h

/-- Among the letters and digits of a text, each stands at its rank. -/
theorem getElem?_filter_rank {i : ℕ} (hi : cs[i]? = some c) (hc : isWordChar c = true) :
    (cs.filter isWordChar)[rank cs i]? = some c := by
  induction cs generalizing i with
  | nil => cases hi
  | cons d rest ih =>
      cases i with
      | zero =>
          obtain rfl : d = c := Option.some.inj hi
          rw [List.filter_cons_of_pos hc]
          rfl
      | succ i =>
          have hrest := ih hi
          rw [rank_cons_succ, List.filter_cons]
          split
          · exact hrest
          · exact hrest

end Places

section Boundaries

variable {c d : Char} {rest : List Char}

/-- Before another letter or digit a word ends at the boundaries. -/
theorem endsBefore_cons_iff (hd : isWordChar d = true) (c : Char) (rest : List Char) :
    endsBefore c (d :: rest) = true ↔ IsBoundary c d rest.head? := by
  cases rest with
  | nil => simp [endsBefore, marksAfter, capitalNext, capitalisedNext, hd, IsBoundary]
  | cons e rest => simp [endsBefore, marksAfter, capitalNext, capitalisedNext, hd, IsBoundary]

/-- The words of a text from those of the text behind its first letter or digit. -/
theorem exists_ofChars_cons (hc : isWordChar c = true) (rest : List Char) :
    ∃ word words, ofChars (c :: rest) = (c :: word) :: words ∧ consWord word words = ofChars rest ∧
      (word = [] ↔ endsBefore c rest = true) := by
  cases hend : endsBefore c rest with
  | true => exact ⟨[], ofChars rest, ofChars_cons_last hc hend, rfl, by simp⟩
  | false =>
      obtain ⟨word, words, hrest, hwords⟩ := ofChars_cons_inner hc hend
      have hword : word ≠ [] := (isWord_of_mem_ofChars (hrest ▸ List.mem_cons_self)).1
      refine ⟨word, words, hwords, ?_, by simp [hword]⟩
      rw [consWord, if_neg hword, hrest]

end Boundaries

/-! ## One step -/

section Numbers

variable {c : Char} {cs rest : List Char} {number : ℕ → ℕ}

theorem numbersWords_add_iff (number : ℕ → ℕ) (m : ℕ) :
    NumbersWords cs (fun i => number i + m) ↔ NumbersWords cs number := by
  constructor
  · intro h
    exact ⟨by simpa using h.divided_iff, by simpa using h.apart⟩
  · intro h
    exact ⟨by simpa using h.divided_iff, by simpa using h.apart⟩

/-- What is asked of the number of a letter or digit that stands first. -/
structure NumbersFirst (c : Char) (rest : List Char) (number : ℕ → ℕ) : Prop where
  divided_iff : ∀ d, rest[0]? = some d → isWordChar d = true →
    (number 0 ≠ number 1 ↔ IsBoundary c d rest[1]?)
  apart : ∀ j k s d, j < k → rest[j]? = some s → rest[k]? = some d →
    isWordChar s = false → isWordChar d = true → number 0 ≠ number (k + 1)

theorem numbersWords_cons_iff : NumbersWords (c :: rest) number ↔
    (isWordChar c = true → NumbersFirst c rest number) ∧
      NumbersWords rest fun i => number (i + 1) := by
  constructor
  · intro h
    refine ⟨fun hc => ⟨?_, ?_⟩, ?_, ?_⟩
    · exact fun d hd => h.divided_iff 0 c d rfl hd hc
    · intro j k s d hjk hs hd
      exact h.apart 0 (j + 1) (k + 1) c s d (Nat.succ_pos j) (Nat.succ_lt_succ hjk) rfl hs hd hc
    · exact fun i => h.divided_iff (i + 1)
    · intro i j k x s y hij hjk
      exact h.apart (i + 1) (j + 1) (k + 1) x s y (Nat.succ_lt_succ hij) (Nat.succ_lt_succ hjk)
  · rintro ⟨hfirst, hothers⟩
    constructor
    case divided_iff =>
      intro i x d hx hd hxWord
      cases i with
      | zero =>
          obtain rfl : c = x := Option.some.inj hx
          exact (hfirst hxWord).divided_iff d hd
      | succ i => exact hothers.divided_iff i x d hx hd hxWord
    case apart =>
      intro i j k x s d hij hjk hx hs hd hxWord
      obtain ⟨j, rfl⟩ := Nat.exists_eq_succ_of_ne_zero (Nat.ne_zero_of_lt hij)
      obtain ⟨k, rfl⟩ := Nat.exists_eq_succ_of_ne_zero (Nat.ne_zero_of_lt hjk)
      cases i with
      | zero =>
          obtain rfl : c = x := Option.some.inj hx
          exact (hfirst hxWord).apart j k s d (Nat.lt_of_succ_lt_succ hjk) hs hd
      | succ i =>
          exact hothers.apart i j k x s d (Nat.lt_of_succ_lt_succ hij)
            (Nat.lt_of_succ_lt_succ hjk) hx hs hd hxWord

end Numbers

section Steps

variable {c : Char} {rest word : List Char} {words : List (List Char)}

theorem isSegmentation_cons_separator_iff (hc : isWordChar c = false) :
    IsSegmentation (c :: rest) words ↔ IsSegmentation rest words := by
  have hfilter : (c :: rest).filter isWordChar = rest.filter isWordChar :=
    List.filter_cons_of_neg (Bool.eq_false_iff.1 hc)
  have hnumbers : NumbersWords (c :: rest) (wordOf (c :: rest) words) ↔
      NumbersWords rest (wordOf rest words) := by
    rw [numbersWords_cons_iff, funext (wordOf_cons_succ_separator hc rest words)]
    simp [hc]
  constructor
  · intro h
    exact ⟨h.flatten_eq.trans hfilter, h.ne_nil, hnumbers.1 h.numbers⟩
  · intro h
    exact ⟨h.flatten_eq.trans hfilter.symm, h.ne_nil, hnumbers.2 h.numbers⟩

/-- The first of the letters and digits has the number zero. -/
theorem exists_wordOf_eq_zero {x : Char} {others : List Char}
    (hfilter : rest.filter isWordChar = x :: others) (hwords : ∀ w ∈ words, w ≠ []) :
    ∃ i, rest[i]? = some x ∧ isWordChar x = true ∧ wordOf rest words i = 0 := by
  obtain ⟨front, back, rfl, hfront, hx, -⟩ := List.filter_eq_cons_iff.1 hfilter
  refine ⟨front.length, by simp, hx, ?_⟩
  have hrank : rank (front ++ x :: back) front.length = 0 := by
    rw [rank, List.take_left, List.countP_eq_zero]
    exact hfront
  rw [wordOf, hrank, wordAt_zero hwords]

theorem pos_of_getElem?_cons {d x : Char} {tail : List Char} {i : ℕ}
    (hi : (d :: tail)[i]? = some x) (hx : isWordChar x ≠ isWordChar d) : 0 < i := by
  rw [Nat.pos_iff_ne_zero]
  rintro rfl
  exact hx (congrArg isWordChar (Option.some.inj hi).symm)

section First

variable {d : Char} {tail : List Char} (hc : isWordChar c = true)
  (hne : ∀ w ∈ (c :: word) :: words, w ≠ [])

include hc hne

/-- Before a separator the first word has to end: what comes next is in another word. -/
theorem numbersFirst_separator_iff (hd : isWordChar d = false)
    (hwords : ∀ w ∈ consWord word words, w ≠ [])
    (hflatten : (consWord word words).flatten = (d :: tail).filter isWordChar) :
    NumbersFirst c (d :: tail) (wordOf (c :: d :: tail) ((c :: word) :: words)) ↔ word = [] := by
  constructor
  · intro h
    by_contra hword
    obtain ⟨x, others, hcons⟩ := List.exists_cons_of_ne_nil hword
    rw [flatten_consWord, hcons, List.cons_append] at hflatten
    obtain ⟨i, hi, hx, hnumber⟩ := exists_wordOf_eq_zero hflatten.symm hwords
    have hpos : 0 < i := pos_of_getElem?_cons hi (by rw [hx, hd]; decide)
    apply h.apart 0 i d x hpos rfl hi hd hx
    rw [wordOf_zero hne, wordOf_cons_succ hc, hnumber, if_neg hword]
  · intro hword
    constructor
    case divided_iff =>
      intro x hx hxWord
      obtain rfl : d = x := Option.some.inj hx
      rw [hd] at hxWord
      cases hxWord
    case apart =>
      intro j k s x _ _ _ _ _
      rw [wordOf_zero hne, wordOf_cons_succ hc, if_pos hword]
      exact (Nat.succ_ne_zero _).symm

/-- Before another letter or digit it has to end at a boundary. -/
theorem numbersFirst_iff_isBoundary (hd : isWordChar d = true)
    (hwords : ∀ w ∈ consWord word words, w ≠ [])
    (hnumbers : NumbersWords (d :: tail) (wordOf (d :: tail) (consWord word words))) :
    NumbersFirst c (d :: tail) (wordOf (c :: d :: tail) ((c :: word) :: words)) ↔
      (word = [] ↔ IsBoundary c d tail.head?) := by
  have hzero : wordOf (c :: d :: tail) ((c :: word) :: words) 0 = 0 := wordOf_zero hne
  have hmoved := wordOf_cons_succ hc (d :: tail) word words
  have hfirst : wordOf (c :: d :: tail) ((c :: word) :: words) 0 ≠
      wordOf (c :: d :: tail) ((c :: word) :: words) 1 ↔ word = [] := by
    rw [hzero, hmoved, wordOf_zero hwords]
    split <;> simp [*]
  rw [List.head?_eq_getElem?]
  constructor
  · intro h
    exact hfirst.symm.trans (h.divided_iff d rfl hd)
  · intro hword
    constructor
    case divided_iff =>
      intro x hx _
      obtain rfl : d = x := Option.some.inj hx
      exact hfirst.trans hword
    case apart =>
      intro j k s x hjk hs hx hsep hxWord
      have hpos : 0 < j := pos_of_getElem?_cons hs (by rw [hsep, hd]; decide)
      have hother := hnumbers.apart 0 j k d s x hpos hjk rfl hs hx hd hsep hxWord
      rw [wordOf_zero hwords] at hother
      rw [hzero, hmoved]
      omega

end First

/-- What is asked of the first position holds exactly if the first word ends where it should. -/
theorem numbersFirst_iff (hc : isWordChar c = true) (hne : ∀ w ∈ (c :: word) :: words, w ≠ [])
    (hwords : ∀ w ∈ consWord word words, w ≠ [])
    (hflatten : (consWord word words).flatten = rest.filter isWordChar)
    (hnumbers : NumbersWords rest (wordOf rest (consWord word words))) :
    NumbersFirst c rest (wordOf (c :: rest) ((c :: word) :: words)) ↔
      (word = [] ↔ endsBefore c rest = true) := by
  cases rest with
  | nil =>
      rw [flatten_consWord] at hflatten
      have hword : word = [] := (List.append_eq_nil_iff.1 hflatten).1
      exact iff_of_true ⟨by simp, by simp⟩ (iff_of_true hword (endsBefore_nil c))
  | cons d tail =>
      cases hd : isWordChar d with
      | false =>
          rw [endsBefore_cons_separator hd, iff_true_right rfl]
          exact numbersFirst_separator_iff hc hne hd hwords hflatten
      | true =>
          rw [endsBefore_cons_iff hd]
          exact numbersFirst_iff_isBoundary hc hne hd hwords hnumbers

theorem isSegmentation_cons_iff (hc : isWordChar c = true) :
    IsSegmentation (c :: rest) ((c :: word) :: words) ↔
      IsSegmentation rest (consWord word words) ∧ (word = [] ↔ endsBefore c rest = true) := by
  have hflatten : ((c :: word) :: words).flatten = (c :: rest).filter isWordChar ↔
      (consWord word words).flatten = rest.filter isWordChar := by
    rw [List.flatten_cons, List.cons_append, List.filter_cons_of_pos hc, List.cons_inj_right,
      flatten_consWord]
  have hwords : (∀ w ∈ (c :: word) :: words, w ≠ []) ↔ ∀ w ∈ consWord word words, w ≠ [] := by
    rw [consWord]
    split <;> simp [*]
  have hnumbers (hne : ∀ w ∈ (c :: word) :: words, w ≠ [])
      (hrest : (consWord word words).flatten = rest.filter isWordChar) :
      NumbersWords (c :: rest) (wordOf (c :: rest) ((c :: word) :: words)) ↔
        NumbersWords rest (wordOf rest (consWord word words)) ∧
          (word = [] ↔ endsBefore c rest = true) := by
    rw [numbersWords_cons_iff, funext (wordOf_cons_succ hc rest word words),
      numbersWords_add_iff, and_comm]
    refine and_congr_right fun hothers => ?_
    rw [← numbersFirst_iff hc hne (hwords.1 hne) hrest hothers]
    exact forall_prop_of_true hc
  constructor
  · intro h
    have hrest := hflatten.1 h.flatten_eq
    obtain ⟨hothers, hends⟩ := (hnumbers h.ne_nil hrest).1 h.numbers
    exact ⟨⟨hrest, hwords.1 h.ne_nil, hothers⟩, hends⟩
  · rintro ⟨h, hends⟩
    have hne := hwords.2 h.ne_nil
    exact ⟨hflatten.2 h.flatten_eq, hne, (hnumbers hne h.flatten_eq).2 ⟨h.numbers, hends⟩⟩

theorem exists_cons_of_isSegmentation (hc : isWordChar c = true)
    (h : IsSegmentation (c :: rest) words) : ∃ word others, words = (c :: word) :: others := by
  have hflatten := h.flatten_eq
  rw [List.filter_cons_of_pos hc] at hflatten
  cases words with
  | nil => cases hflatten
  | cons first others =>
      obtain ⟨x, word, rfl⟩ := List.exists_cons_of_ne_nil (h.ne_nil first List.mem_cons_self)
      rw [List.flatten_cons, List.cons_append] at hflatten
      obtain ⟨rfl, -⟩ := List.cons.inj hflatten
      exact ⟨word, others, rfl⟩

end Steps

/-- The words of a text are the only ones that can be told by position. -/
theorem isSegmentation_iff {cs : List Char} {words : List (List Char)} :
    IsSegmentation cs words ↔ words = ofChars cs := by
  induction cs generalizing words with
  | nil =>
      rw [ofChars_nil]
      constructor
      · intro h
        rw [List.eq_nil_iff_forall_not_mem]
        intro word hword
        exact h.ne_nil word hword (List.flatten_eq_nil_iff.1 h.flatten_eq word hword)
      · rintro rfl
        exact ⟨rfl, by simp, by simp, by simp⟩
  | cons c rest ih =>
      cases hc : isWordChar c with
      | false => rw [isSegmentation_cons_separator_iff hc, ih, ofChars_cons_separator hc]
      | true =>
          obtain ⟨word, others, hwords, hrest, hends⟩ := exists_ofChars_cons hc rest
          rw [hwords]
          constructor
          · intro h
            obtain ⟨word', others', rfl⟩ := exists_cons_of_isSegmentation hc h
            obtain ⟨hsegments, hends'⟩ := (isSegmentation_cons_iff hc).1 h
            obtain ⟨rfl, rfl⟩ := consWord_cancel (hends'.trans hends.symm)
              ((ih.1 hsegments).trans hrest.symm)
            rfl
          · rintro rfl
            exact (isSegmentation_cons_iff hc).2 ⟨ih.2 hrest, hends⟩

theorem map_toList_ofText (s : String) : (ofText s).map String.toList = ofChars s.toList := by
  simp [ofText, Function.comp_def]

/-- The words of a text are its letters and digits in order, none of the words is empty, and the
characters of a text share a word as their positions tell. No other words have these properties. The
number of a word is its place among the words. -/
theorem segments (s : String) :
    IsSegmentation s.toList ((ofText s).map String.toList) ∧
      (∀ words : List String,
        IsSegmentation s.toList (words.map String.toList) → words = ofText s) ∧
      ∀ i c, s.toList[i]? = some c → isWordChar c = true → ∃ word : String,
        (ofText s)[wordOf s.toList ((ofText s).map String.toList) i]? = some word ∧
          c ∈ word.toList := by
  have hwords : IsSegmentation s.toList ((ofText s).map String.toList) :=
    isSegmentation_iff.2 (map_toList_ofText s)
  refine ⟨hwords, fun words h => ?_, fun i c hi hc => ?_⟩
  · have hsame := (isSegmentation_iff.1 h).trans (map_toList_ofText s).symm
    exact (List.map_injective_iff.2 fun _ _ => String.toList_inj.1) hsame
  · have hplace := getElem?_filter_rank hi hc
    rw [← hwords.flatten_eq] at hplace
    obtain ⟨cs, hcs, hmem⟩ := exists_getElem?_wordAt hplace
    rw [List.getElem?_map] at hcs
    obtain ⟨word, hword, rfl⟩ := Option.map_eq_some_iff.1 hcs
    exact ⟨word, hword, hmem⟩

/-- An acronym, a number and a separator. -/
example : ofText "HTTPServer2go-URL" = ["HTTP", "Server2go", "URL"] := by decide

end Nomenclature.Word
