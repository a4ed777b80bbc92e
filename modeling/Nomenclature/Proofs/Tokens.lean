import Nomenclature.Document

/-!
# The tokens of a canonical text

A canonical text is made of words, texts and marks. A word is a null, a boolean or a number, and it
goes on until a mark ends it. A text says itself where it ends, since an escaped character never
begins with a quote and can be read back. Either way the token in front of a text can be told from
what follows it. The alphabets of the words keep the kinds of documents apart.
-/

namespace Nomenclature.Document

/-- The marks that end a token. -/
def marks : List Char :=
  [',', ']', '}']

/-- Nothing more of a token follows. -/
def EndsToken (rest : List Char) : Prop :=
  ∀ c ∈ rest.head?, c ∈ marks

/-- The control character with four hexadecimal digits as its code. -/
def control? (code : List Char) : Option Char :=
  ((List.range 32).find? fun n => Text.hex 4 n == code).map Char.ofNat

/-- Reads one character of a text back. -/
def readChar : List Char → Option (Char × List Char)
  | '\\' :: 'n' :: rest => some ('\n', rest)
  | '\\' :: 'r' :: rest => some ('\r', rest)
  | '\\' :: 't' :: rest => some ('\t', rest)
  | '\\' :: 'b' :: rest => some ('\x08', rest)
  | '\\' :: 'f' :: rest => some ('\x0c', rest)
  | '\\' :: 'u' :: rest => (control? (rest.take 4)).map fun c => (c, rest.drop 4)
  | '\\' :: c :: rest => some (c, rest)
  | c :: rest => some (c, rest)
  | [] => none

theorem control?_hex {c : Char} (hc : c.toNat < 32) : control? (Text.hex 4 c.toNat) = some c := by
  have hcode : ∀ n < 32, control? (Text.hex 4 n) = some (Char.ofNat n) := by decide
  rw [hcode c.toNat hc, Char.ofNat_toNat]

/-- The characters that have an escape of two characters. -/
def shortlyEscaped : List Char :=
  ['"', '\\', '\n', '\r', '\t', '\x08', '\x0c']

theorem escapedChar_of_not_mem {c : Char} (hc : c ∉ shortlyEscaped) :
    escapedChar c = if c.toNat < 0x20 then '\\' :: 'u' :: Text.hex 4 c.toNat else [c] := by
  simp only [shortlyEscaped, List.mem_cons, List.not_mem_nil, or_false, not_or] at hc
  obtain ⟨hquote, hbackslash, hline, hreturn, htab, hback, hform⟩ := hc
  rw [escapedChar, if_neg hquote, if_neg hbackslash, if_neg hline, if_neg hreturn, if_neg htab,
    if_neg hback, if_neg hform]

/-- An escaped character is read back, whatever follows it. -/
theorem readChar_escapedChar (c : Char) (rest : List Char) :
    readChar (escapedChar c ++ rest) = some (c, rest) := by
  by_cases hshort : c ∈ shortlyEscaped
  · simp only [shortlyEscaped, List.mem_cons, List.not_mem_nil, or_false] at hshort
    rcases hshort with rfl | rfl | rfl | rfl | rfl | rfl | rfl
    all_goals rfl
  · rw [escapedChar_of_not_mem hshort]
    split
    · rename_i hcontrol
      have hread := control?_hex hcontrol
      simpa [readChar, Text.hex] using hread
    · have hbackslash : c ≠ '\\' := fun h => hshort (by rw [h]; decide)
      rw [List.singleton_append]
      unfold readChar
      split <;> simp_all

/-- No escaped character begins with the quote that ends a text. -/
theorem escapedChar_append_ne (c : Char) (rest others : List Char) :
    escapedChar c ++ rest ≠ '"' :: others := by
  intro h
  have hread := readChar_escapedChar c rest
  rw [h] at hread
  obtain ⟨rfl, -⟩ := Prod.mk.inj (Option.some.inj hread)
  simp [escapedChar] at h

/-- Characters that are written one after the other, each so that it is read back and not taken for
the mark that closes them, can be told from what follows the mark. -/
theorem flatMap_cancel_of_read {write : Char → List Char}
    {read : List Char → Option (Char × List Char)} {close : Char}
    (hread : ∀ c rest, read (write c ++ rest) = some (c, rest))
    (hclose : ∀ c rest others, write c ++ rest ≠ close :: others) {cs ds rest others : List Char}
    (h : cs.flatMap write ++ close :: rest = ds.flatMap write ++ close :: others) :
    cs = ds ∧ rest = others := by
  induction cs generalizing ds with
  | nil =>
      cases ds with
      | nil => exact ⟨rfl, by simpa using h⟩
      | cons d ds =>
          rw [List.flatMap_cons, List.append_assoc] at h
          exact absurd h.symm (hclose d _ _)
  | cons c cs ih =>
      cases ds with
      | nil =>
          rw [List.flatMap_cons, List.append_assoc] at h
          exact absurd h (hclose c _ _)
      | cons d ds =>
          rw [List.flatMap_cons, List.flatMap_cons, List.append_assoc, List.append_assoc] at h
          have hboth := congrArg read h
          rw [hread, hread] at hboth
          obtain ⟨rfl, hrest⟩ := Prod.mk.inj (Option.some.inj hboth)
          obtain ⟨rfl, hothers⟩ := ih hrest
          exact ⟨rfl, hothers⟩

/-- A text in front can be told from what follows it. -/
theorem textChars_cancel {s t : String} {rest others : List Char}
    (h : textChars s ++ rest = textChars t ++ others) : s = t ∧ rest = others := by
  simp only [textChars, List.cons_append, List.append_assoc, List.nil_append,
    List.cons.injEq, true_and] at h
  obtain ⟨hchars, hrest⟩ := flatMap_cancel_of_read readChar_escapedChar escapedChar_append_ne h
  exact ⟨String.toList_inj.1 hchars, hrest⟩

/-- A word in front can be told from what follows it, since no mark belongs to a word. -/
theorem word_cancel {word word' rest others : List Char} (hword : ∀ c ∈ word, c ∉ marks)
    (hword' : ∀ c ∈ word', c ∉ marks) (hrest : EndsToken rest) (hothers : EndsToken others)
    (h : word ++ rest = word' ++ others) : word = word' ∧ rest = others := by
  induction word generalizing word' with
  | nil =>
      cases word' with
      | nil => exact ⟨rfl, h⟩
      | cons d word' =>
          obtain rfl : rest = d :: word' ++ others := h
          exact absurd (hrest d rfl) (hword' d List.mem_cons_self)
  | cons c word ih =>
      cases word' with
      | nil =>
          obtain rfl : c :: word ++ rest = others := h
          exact absurd (hothers c rfl) (hword c List.mem_cons_self)
      | cons d word' =>
          obtain ⟨rfl, htail⟩ := List.cons.inj h
          obtain ⟨rfl, hsame⟩ := ih (List.forall_mem_cons.1 hword).2
            (List.forall_mem_cons.1 hword').2 htail
          exact ⟨rfl, hsame⟩

/-- The characters of an integer. -/
def isIntegerChar (c : Char) : Bool :=
  c.isDigit || c == '-'

theorem isIntegerChar_of_mem_toDigits {n : Nat} {c : Char} (hc : c ∈ Nat.toDigits 10 n) :
    isIntegerChar c := by
  rw [isIntegerChar, Nat.isDigit_of_mem_toDigits (by decide) (by decide) hc, Bool.true_or]

theorem isIntegerChar_integerChars (n : Int) : ∀ c ∈ Text.integerChars n, isIntegerChar c := by
  intro c hc
  simp only [Text.integerChars] at hc
  split at hc
  · rcases List.mem_cons.1 hc with rfl | hc
    · decide
    · exact isIntegerChar_of_mem_toDigits hc
  · exact isIntegerChar_of_mem_toDigits hc

theorem integerChars_ne_nil (n : Int) : Text.integerChars n ≠ [] := by
  simp only [Text.integerChars]
  split <;> simp [Nat.toDigits_ne_nil]

theorem integerChars_injective {n m : Int} (h : Text.integerChars n = Text.integerChars m) :
    n = m := by
  have hdigits {a b : Nat} (h : Nat.toDigits 10 a = Nat.toDigits 10 b) : a = b := by
    rw [← Nat.ofDigitChars_ten_toDigits (n := a), h, Nat.ofDigitChars_ten_toDigits]
  have hsign {a b : Nat} (h : '-' :: Nat.toDigits 10 a = Nat.toDigits 10 b) : False := by
    have hmem : '-' ∈ Nat.toDigits 10 b := by
      rw [← h]
      exact List.mem_cons_self
    have hdigit := Nat.isDigit_of_mem_toDigits (by decide) (by decide) hmem
    exact absurd hdigit (by decide)
  simp only [Text.integerChars] at h
  split at h
  · split at h
    · have := hdigits (List.cons.inj h).2
      omega
    · exact (hsign h).elim
  · split at h
    · exact (hsign h.symm).elim
    · have := hdigits h
      omega

/-- The characters of a real number. -/
def isRealChar (c : Char) : Bool :=
  isIntegerChar c || c ∈ ['+', '.', 'e', 'I', 'n', 'f', 'i', 't', 'y', 'N', 'a']

/-- What no integer holds, and every real number does: a point, an exponent, or the first letter of
an infinity or of no number. -/
def isRealMark (c : Char) : Bool :=
  c ∈ ['.', 'e', 'I', 'N']

theorem isRealChar_of_mem_replicate {count : Nat} {c : Char} (hc : c ∈ List.replicate count '0') :
    isRealChar c := by
  rw [List.eq_of_mem_replicate hc]
  decide

theorem isRealChar_of_isIntegerChar {c : Char} (hc : isIntegerChar c) : isRealChar c := by
  rw [isRealChar, hc, Bool.true_or]

theorem not_isIntegerChar_of_isRealMark {c : Char} (hc : isRealMark c) : ¬ isIntegerChar c := by
  simp only [isRealMark, List.mem_cons, List.not_mem_nil, or_false, decide_eq_true_eq] at hc
  rcases hc with rfl | rfl | rfl | rfl <;> decide

theorem isRealChar_positional {digits : List Char} (hdigits : ∀ c ∈ digits, isRealChar c)
    (leading : Int) : ∀ c ∈ Decimal.positional digits leading, isRealChar c := by
  intro c hc
  simp only [Decimal.positional] at hc
  split at hc
  · simp only [List.mem_cons, List.mem_append] at hc
    rcases hc with rfl | rfl | hc | hc
    · decide
    · decide
    · exact isRealChar_of_mem_replicate hc
    · exact hdigits c hc
  · simp only [List.mem_cons, List.mem_append] at hc
    rcases hc with (hc | hc) | rfl | hc
    · exact hdigits c (List.mem_of_mem_take hc)
    · exact isRealChar_of_mem_replicate hc
    · decide
    · split at hc
      · obtain rfl := List.mem_singleton.1 hc
        decide
      · exact hdigits c (List.mem_of_mem_drop hc)

theorem isRealChar_scientific {digits : List Char} (hdigits : ∀ c ∈ digits, isRealChar c)
    (layout : Decimal.Layout) (leading : Int) :
    ∀ c ∈ Decimal.scientific layout digits leading, isRealChar c := by
  intro c hc
  simp only [Decimal.scientific, Decimal.padded, List.mem_append, List.mem_cons] at hc
  rcases hc with hc | rfl | rfl | hc | hc
  · match digits, hdigits, hc with
    | [digit], hdigits, hc => exact hdigits c hc
    | digit :: next :: rest, hdigits, hc =>
        obtain ⟨hdigit, hrest⟩ := List.forall_mem_cons.1 hdigits
        simp only [List.mem_cons (a := c)] at hc
        rcases hc with rfl | rfl | hc
        · exact hdigit
        · decide
        · exact hrest c (List.mem_cons.2 hc)
  · decide
  · split <;> decide
  · exact isRealChar_of_mem_replicate hc
  · exact isRealChar_of_isIntegerChar (isIntegerChar_of_mem_toDigits hc)

theorem isRealChar_layOut (layout : Decimal.Layout) (x : Decimal) :
    ∀ c ∈ x.layOut layout, isRealChar c := by
  have hdigits : ∀ c ∈ Decimal.dropTrailingZeros (Nat.toDigits 10 x.significand),
      isRealChar c := by
    intro c hc
    rw [Decimal.dropTrailingZeros, List.mem_reverse] at hc
    have hmem := List.mem_reverse.1 ((List.dropWhile_sublist _).subset hc)
    exact isRealChar_of_isIntegerChar (isIntegerChar_of_mem_toDigits hmem)
  simp only [Decimal.layOut]
  split
  · exact isRealChar_positional hdigits _
  · exact isRealChar_scientific hdigits layout _

theorem isRealMark_layOut (layout : Decimal.Layout) (x : Decimal) :
    ∃ c ∈ x.layOut layout, isRealMark c := by
  simp only [Decimal.layOut]
  split
  · refine ⟨'.', ?_, by decide⟩
    simp only [Decimal.positional]
    split <;> simp
  · exact ⟨'e', by simp [Decimal.scientific], by decide⟩

/-- The text of a real number consists of its own characters, and one of them is in no integer. -/
theorem realText_alphabet (x : Binary64) :
    (∀ c ∈ (Decimal.text realLayout x).toList, isRealChar c) ∧
      ∃ c ∈ (Decimal.text realLayout x).toList, isRealMark c := by
  have hsign : ∀ c ∈ if x.negative then ['-'] else [], isRealChar c := by
    refine List.all_eq_true.1 ?_
    split <;> decide
  have happend {digits : List Char} (hdigits : ∀ c ∈ digits, isRealChar c)
      (hmark : ∃ c ∈ digits, isRealMark c) :
      (∀ c ∈ (if x.negative then ['-'] else []) ++ digits, isRealChar c) ∧
        ∃ c ∈ (if x.negative then ['-'] else []) ++ digits, isRealMark c := by
    obtain ⟨c, hc, hmark⟩ := hmark
    refine ⟨fun c hc => ?_, c, List.mem_append_right _ hc, hmark⟩
    rcases List.mem_append.1 hc with hc | hc
    · exact hsign c hc
    · exact hdigits c hc
  simp only [Decimal.text]
  split
  · exact ⟨List.all_eq_true.1 (by decide), List.any_eq_true.1 (by decide)⟩
  split
  · split
    · rw [String.toList_ofList]
      exact happend (List.all_eq_true.1 (by decide)) (List.any_eq_true.1 (by decide))
    · rw [String.toList_ofList]
      exact happend (isRealChar_layOut realLayout _) (isRealMark_layOut realLayout _)
  · rw [String.toList_append, String.toList_ofList]
    exact happend (List.all_eq_true.1 (by decide)) (List.any_eq_true.1 (by decide))

end Nomenclature.Document
