import Nomenclature.Proofs.CanonicalText
import Nomenclature.Value.Shown

/-!
# What a document shows

The text that shows a document tells its canonical text: a text between quotation marks can be read
back, a word has one canonical form, and the parts of arrays and objects can be told apart one by
one. So documents that are shown alike have one canonical text, and what is sorted by how it is
shown comes to one canonical text in whatever order it stood.
-/

namespace Nomenclature

/-! ## Quoted texts -/

namespace Text

/-- What a hexadecimal digit stands for. -/
def digitValue (c : Char) : Nat :=
  if c.isDigit then c.toNat - '0'.toNat else c.toNat - 'a'.toNat + 10

def hexValue (cs : List Char) : Nat :=
  cs.foldl (fun value c => 16 * value + digitValue c) 0

theorem digitValue_digitChar : ∀ n < 16, digitValue (Nat.digitChar n) = n := by
  decide

theorem length_hex (width n : Nat) : (hex width n).length = width := by
  induction width generalizing n with
  | zero => rfl
  | succ width ih => rw [hex, List.length_append, ih, List.length_singleton]

theorem hexValue_hex (width n : Nat) : hexValue (hex width n) = n % Nat.pow 16 width := by
  induction width generalizing n with
  | zero => exact (Nat.mod_one n).symm
  | succ width ih =>
      have hdigit := digitValue_digitChar (n % 16) (Nat.mod_lt n (by decide))
      have hfront := ih (n / 16)
      have hpow : Nat.pow 16 (width + 1) = 16 * Nat.pow 16 width := Nat.mul_comm _ _
      rw [hexValue] at hfront ⊢
      rw [hex, List.foldl_append, hfront, List.foldl_cons, List.foldl_nil, hdigit, hpow,
        Nat.mod_mul, Nat.add_comm]

/-- Reads a character back from its code point with some digits. -/
def readCode (width : Nat) (cs : List Char) : Option (Char × List Char) :=
  some (Char.ofNat (hexValue (cs.take width)), cs.drop width)

/-- Reads one character of a quoted text back. -/
def readQuoted : List Char → Option (Char × List Char)
  | '\\' :: 'n' :: rest => some ('\n', rest)
  | '\\' :: 'r' :: rest => some ('\r', rest)
  | '\\' :: 't' :: rest => some ('\t', rest)
  | '\\' :: 'x' :: rest => readCode 2 rest
  | '\\' :: 'u' :: rest => readCode 4 rest
  | '\\' :: 'U' :: rest => readCode 8 rest
  | '\\' :: c :: rest => some (c, rest)
  | c :: rest => some (c, rest)
  | [] => none

theorem readCode_hex {width : Nat} {c : Char} (hc : c.toNat < Nat.pow 16 width) (rest : List Char) :
    readCode width (hex width c.toNat ++ rest) = some (c, rest) := by
  rw [readCode, List.take_left' (length_hex width _), List.drop_left' (length_hex width _),
    hexValue_hex, Nat.mod_eq_of_lt hc, Char.ofNat_toNat]

theorem readQuoted_codeEscape (c : Char) (rest : List Char) :
    readQuoted (codeEscape c ++ rest) = some (c, rest) := by
  rw [codeEscape]
  split
  · rename_i hc
    exact readCode_hex hc rest
  split
  · rename_i hc
    exact readCode_hex hc rest
  · have hc : c.toNat < Nat.pow 16 8 := c.val.toNat_lt
    exact readCode_hex hc rest

/-- The marks that may stand at the ends of a quoted text. -/
def quoteMarks : List Char :=
  ['\'', '"']

theorem quoteMark_mem (cs : List Char) : quoteMark cs ∈ quoteMarks := by
  rw [quoteMark]
  split <;> decide

/-- A character other than the backslash is read back as itself. -/
theorem readQuoted_cons {c : Char} (hc : c ≠ '\\') (rest : List Char) :
    readQuoted (c :: rest) = some (c, rest) := by
  unfold readQuoted
  split <;> simp_all

/-- A quoted character is read back, whatever follows it. -/
theorem readQuoted_quotedChar {mark : Char} (hmark : mark ∈ quoteMarks) (c : Char)
    (rest : List Char) : readQuoted (quotedChar mark c ++ rest) = some (c, rest) := by
  rw [quotedChar]
  split
  · rename_i hself
    have hread : ∀ c ∈ '\\' :: quoteMarks, readQuoted ('\\' :: c :: rest) = some (c, rest) := by
      simp [quoteMarks, readQuoted]
    apply hread
    rw [Bool.or_eq_true, decide_eq_true_eq, decide_eq_true_eq] at hself
    rcases hself with rfl | rfl
    · exact List.mem_cons_of_mem _ hmark
    · exact List.mem_cons_self
  rename_i hself
  split
  · rename_i hline
    rw [hline]
    rfl
  split
  · rename_i hreturn
    rw [hreturn]
    rfl
  split
  · rename_i htab
    rw [htab]
    rfl
  split
  · exact readQuoted_cons (by simp_all) rest
  · exact readQuoted_codeEscape c rest

/-- No quoted character begins with the mark that ends the text. -/
theorem quotedChar_append_ne {mark : Char} (hmark : mark ∈ quoteMarks) (c : Char)
    (rest others : List Char) : quotedChar mark c ++ rest ≠ mark :: others := by
  have hbackslash : ∀ mark ∈ quoteMarks, mark ≠ '\\' := by simp [quoteMarks]
  intro h
  have hread := readQuoted_quotedChar hmark c rest
  rw [h, readQuoted_cons (hbackslash mark hmark)] at hread
  obtain ⟨rfl, -⟩ := Prod.mk.inj (Option.some.inj hread)
  rw [quotedChar, if_pos (by simp)] at h
  exact hbackslash mark hmark (List.cons.inj h).1.symm

/-- A quoted text in front can be told from what follows it. -/
theorem quotedChars_cancel {cs ds rest others : List Char}
    (h : quotedChars cs ++ rest = quotedChars ds ++ others) : cs = ds ∧ rest = others := by
  simp only [quotedChars, List.cons_append, List.append_assoc, List.nil_append,
    List.cons.injEq] at h
  obtain ⟨hmark, h⟩ := h
  rw [hmark] at h
  exact Document.flatMap_cancel_of_read (readQuoted_quotedChar (quoteMark_mem ds))
    (quotedChar_append_ne (quoteMark_mem ds)) h

end Text

namespace Document

/-! ## Words -/

/-- The words that a message and a canonical text write differently. -/
def respelledWords : List (List Char × List Char) :=
  [("None".toList, "null".toList), ("True".toList, "true".toList),
    ("False".toList, "false".toList), ("nan".toList, "NaN".toList),
    ("inf".toList, "Infinity".toList), ("-inf".toList, "-Infinity".toList)]

/-- The canonical form of a word as it is shown. -/
def canonicalWord (word : List Char) : List Char :=
  (respelledWords.lookup word).getD word

/-- The form of a number: an integer, or what has a mark that no integer has. -/
def IsNumeral (word : List Char) : Prop :=
  (∀ c ∈ word, isIntegerChar c) ∨ (∀ c ∈ word, isRealChar c) ∧ ∃ c ∈ word, isRealMark c

/-- None of the respelled words is shown like a number. -/
theorem canonicalWord_of_isNumeral {word : List Char} (hword : IsNumeral word) :
    canonicalWord word = word := by
  have hnone : respelledWords.lookup word = none := by
    rw [List.lookup_eq_none_iff]
    intro pair hpair
    rw [bne_iff_ne]
    rintro rfl
    have hwords : ∀ pair ∈ respelledWords, pair.1.all isIntegerChar = false ∧
        (pair.1.all isRealChar && pair.1.any isRealMark) = false := by decide
    obtain ⟨hinteger, hreal⟩ := hwords pair hpair
    rcases hword with hdigits | ⟨hdigits, hmark⟩
    · rw [List.all_eq_true.2 hdigits] at hinteger
      exact Bool.noConfusion hinteger
    · rw [List.all_eq_true.2 hdigits, List.any_eq_true.2 hmark] at hreal
      exact Bool.noConfusion hreal
  rw [canonicalWord, hnone]
  rfl

/-- A real number is respelled if it is not finite, and shown as it is written otherwise. -/
theorem realText_cases (x : Binary64) :
    ((Decimal.text shownLayout x).toList, (Decimal.text realLayout x).toList) ∈ respelledWords ∨
      Decimal.text shownLayout x = Decimal.text realLayout x := by
  rw [Decimal.text, Decimal.text]
  split
  · exact .inl (by decide)
  split
  · exact .inr rfl
  · left
    cases x.negative <;> decide

/-- A word is respelled, or it is a number and shown as it is written. -/
theorem shown_of_word {d : Document} (hd : d.opening? = none) :
    (d.shown.toList, d.chars) ∈ respelledWords ∨
      d.shown.toList = d.chars ∧ IsNumeral d.chars := by
  cases d with
  | null => exact .inl (by decide)
  | boolean b => exact .inl (by cases b <;> decide)
  | integer n =>
      refine .inr ⟨?_, .inl (isIntegerChar_integerChars n)⟩
      rw [shown, Text.integer, String.toList_ofList, chars]
  | real x =>
      rcases realText_cases x with h | h
      · exact .inl h
      · exact .inr ⟨congrArg String.toList h, .inr (realText_alphabet x)⟩
  | _ => simp [opening?] at hd

theorem chars_of_word {d : Document} (hd : d.opening? = none) :
    d.chars = canonicalWord d.shown.toList := by
  rcases shown_of_word hd with hrespelled | ⟨hsame, hnumeral⟩
  · have hwords : ∀ pair ∈ respelledWords, canonicalWord pair.1 = pair.2 := by decide
    exact (hwords _ hrespelled).symm
  · rw [hsame, canonicalWord_of_isNumeral hnumeral]

/-- The mark that a document other than a word begins with, when it is shown. -/
def opensAs (c : Char) : Option Char :=
  if c ∈ Text.quoteMarks then some '"' else [c].find? isBetween

/-- The characters that begin what is no word, or end what is shown. -/
def apart : List Char :=
  ['\'', '"', '[', '{', ',', ']', '}']

theorem opensAs_of_not_mem_apart {c : Char} (hc : c ∉ apart) : opensAs c = none ∧ c ∉ marks := by
  simp_all [apart, opensAs, Text.quoteMarks, isBetween, marks]

theorem not_mem_apart_of_isRealChar {c : Char} (hc : isRealChar c) : c ∉ apart := by
  intro hmem
  have hmarks := List.all_eq_true.1 (by decide : apart.all (!isRealChar ·) = true) c hmem
  rw [hc] at hmarks
  exact Bool.noConfusion hmarks

/-- A shown word consists of other characters. -/
theorem opensAs_of_word {d : Document} (hd : d.opening? = none) :
    ∀ c ∈ d.shown.toList, opensAs c = none ∧ c ∉ marks := by
  intro c hc
  apply opensAs_of_not_mem_apart
  rcases shown_of_word hd with hrespelled | ⟨hsame, hnumeral⟩
  · have hwords : ∀ pair ∈ respelledWords, pair.1.all (fun c => decide (c ∉ apart)) = true := by
      decide
    simpa using List.all_eq_true.1 (hwords _ hrespelled) c hc
  · rw [hsame] at hc
    rcases hnumeral with hdigits | ⟨hdigits, -⟩
    · exact not_mem_apart_of_isRealChar (isRealChar_of_isIntegerChar (hdigits c hc))
    · exact not_mem_apart_of_isRealChar (hdigits c hc)

theorem opensAs_quoteMark (cs : List Char) :
    opensAs (Text.quoteMark cs) = some '"' ∧ Text.quoteMark cs ∉ marks := by
  rw [Text.quoteMark]
  split <;> decide

/-! ## Documents -/

/-- A member as it is shown. -/
def shownMember (member : String × Document) : List Char :=
  Text.quotedChars member.1.toList ++ ':' :: ' ' :: member.2.shown.toList

theorem shownItems_eq_map (items : List Document) : shownItems items = items.map shown := by
  induction items with
  | nil => rfl
  | cons item rest ih => rw [shownItems, ih, List.map_cons]

theorem shownMembers_eq_map (members : Members) :
    shownMembers members =
      members.map fun member => Text.quoted member.1 ++ ": " ++ member.2.shown := by
  induction members with
  | nil => rfl
  | cons member rest ih => rw [shownMembers, ih, List.map_cons]

theorem shown_array (items : List Document) :
    (array items).shown.toList =
      '[' :: ([',', ' '].intercalate (items.map fun item => item.shown.toList) ++ [']']) := by
  rw [shown, shownItems_eq_map, inBrackets, commaSeparated, String.toList_append,
    String.toList_append, String.toList_intercalate, List.map_map]
  rfl

theorem shown_object (members : Members) :
    (object members).shown.toList =
      '{' :: ([',', ' '].intercalate (members.map shownMember) ++ ['}']) := by
  rw [shown, shownMembers_eq_map, inBraces, commaSeparated, String.toList_append,
    String.toList_append, String.toList_intercalate, List.map_map]
  have hmember : (String.toList ∘ fun member : String × Document =>
      Text.quoted member.1 ++ ": " ++ member.2.shown) = shownMember := by
    funext member
    simp [shownMember, Text.quoted]
  rw [hmember]
  rfl

theorem shown_ne_nil_of_word {d : Document} (hd : d.opening? = none) : d.shown.toList ≠ [] := by
  rcases shown_of_word hd with hrespelled | ⟨hsame, -⟩
  · have hwords : ∀ pair ∈ respelledWords, pair.1 ≠ [] := by decide
    exact hwords _ hrespelled
  · obtain ⟨c, rest, hchars, -⟩ := d.chars_eq_cons
    rw [hsame, hchars]
    exact List.cons_ne_nil c rest

/-- A document is shown with its opening mark first, a word with a character of its own. -/
theorem shown_eq_cons (d : Document) :
    ∃ c rest, d.shown.toList = c :: rest ∧ c ∉ marks ∧ d.opening? = opensAs c := by
  cases hd : d.opening? with
  | none =>
      obtain ⟨c, rest, hshown⟩ := List.exists_cons_of_ne_nil (shown_ne_nil_of_word hd)
      obtain ⟨hopens, hmark⟩ := opensAs_of_word hd c (hshown ▸ List.mem_cons_self)
      exact ⟨c, rest, hshown, hmark, hopens.symm⟩
  | some opening =>
      rw [← hd]
      cases d with
      | text s =>
          obtain ⟨hopens, hmark⟩ := opensAs_quoteMark s.toList
          exact ⟨_, _, by rw [shown, Text.quoted, String.toList_ofList, Text.quotedChars], hmark,
            hopens.symm⟩
      | array items => exact ⟨'[', _, shown_array items, by decide, rfl⟩
      | object members => exact ⟨'{', _, shown_object members, by decide, rfl⟩
      | _ => simp [opening?] at hd

theorem shownMember_eq_cons (member : String × Document) :
    ∃ c cs, shownMember member = c :: cs ∧ c ∉ marks :=
  ⟨_, _, rfl, (opensAs_quoteMark member.1.toList).2⟩

theorem opening?_eq_of_shown_append {d e : Document} {rest others : List Char}
    (h : d.shown.toList ++ rest = e.shown.toList ++ others) : d.opening? = e.opening? := by
  obtain ⟨c, cs, hd, -, hopening⟩ := d.shown_eq_cons
  obtain ⟨c', cs', he, -, hopening'⟩ := e.shown_eq_cons
  rw [hd, he] at h
  obtain ⟨rfl, -⟩ := List.cons.inj h
  rw [hopening, hopening']

/-- Shown in front of what ends a token, the one document can be told from the other, up to their
canonical texts, and from what follows. -/
def Told (d e : Document) : Prop :=
  ∀ rest others, EndsToken rest → EndsToken others →
    d.shown.toList ++ rest = e.shown.toList ++ others → d.chars = e.chars ∧ rest = others

theorem told_of_word {d e : Document} (hd : d.opening? = none) (he : e.opening? = none) :
    Told d e := by
  intro rest others hrest hothers h
  obtain ⟨hshown, hsame⟩ := word_cancel (fun c hc => (opensAs_of_word hd c hc).2)
    (fun c hc => (opensAs_of_word he c hc).2) hrest hothers h
  exact ⟨by rw [chars_of_word hd, chars_of_word he, hshown], hsame⟩

theorem told_text (s t : String) : Told (text s) (text t) := by
  intro rest others _ _ h
  rw [shown, shown, Text.quoted, Text.quoted, String.toList_ofList, String.toList_ofList] at h
  obtain ⟨hchars, hsame⟩ := Text.quotedChars_cancel h
  obtain rfl := String.toList_inj.1 hchars
  exact ⟨rfl, hsame⟩

/-- Arrays can be told from each other if their items can. -/
theorem told_array {items others : List Document}
    (htold : ∀ item ∈ items, ∀ other ∈ others, Told item other) :
    Told (array items) (array others) := by
  intro rest rest' _ _ h
  rw [shown_array, shown_array] at h
  simp only [List.cons_append, List.append_assoc, List.cons.injEq, true_and,
    List.nil_append] at h
  have hstart (d : Document) : ∃ c cs, d.shown.toList = c :: cs ∧ c ∉ marks := by
    obtain ⟨c, cs, hd, hc, -⟩ := d.shown_eq_cons
    exact ⟨c, cs, hd, hc⟩
  obtain ⟨hitems, hsame⟩ := intercalate_cancel (by decide) (by decide) hstart htold h
  have hwritten : items.map chars = others.map chars :=
    map_eq_of_forall₂ hitems fun _ _ _ _ h => h
  exact ⟨by rw [chars_array, chars_array, hwritten], hsame⟩

/-- Objects can be told from each other if the values of their members can. -/
theorem told_object {members others : Members}
    (htold : ∀ m ∈ members, ∀ n ∈ others, Told m.2 n.2) :
    Told (object members) (object others) := by
  intro rest rest' _ _ h
  rw [shown_object, shown_object] at h
  simp only [List.cons_append, List.append_assoc, List.cons.injEq, true_and,
    List.nil_append] at h
  have hcancel : ∀ m ∈ members, ∀ n ∈ others, ∀ rest rest',
      EndsToken rest → EndsToken rest' → shownMember m ++ rest = shownMember n ++ rest' →
        (m.1 = n.1 ∧ m.2.chars = n.2.chars) ∧ rest = rest' := by
    intro m hm n hn rest rest' hrest hrest' h
    rw [shownMember, shownMember, List.append_assoc, List.append_assoc] at h
    obtain ⟨hname, hvalue⟩ := Text.quotedChars_cancel h
    simp only [List.cons_append, List.cons.injEq, true_and] at hvalue
    obtain ⟨hchars, hsame⟩ := htold m hm n hn rest rest' hrest hrest' hvalue
    exact ⟨⟨String.toList_inj.1 hname, hchars⟩, hsame⟩
  obtain ⟨hmembers, hsame⟩ := intercalate_cancel (by decide) (by decide) shownMember_eq_cons
    hcancel h
  have hwritten : membersChars members = membersChars others := by
    rw [membersChars_eq_map, membersChars_eq_map]
    exact map_eq_of_forall₂ hmembers fun m _ n _ h => Prod.ext h.1 h.2
  exact ⟨by rw [chars, chars, hwritten], hsame⟩

theorem told (d e : Document) : Told d e := by
  induction d using induction generalizing e with
  | step d ih =>
  -- The first character says of which form both documents are.
  intro rest others hrest hothers h
  have hopening := opening?_eq_of_shown_append h
  refine (?_ : Told d e) rest others hrest hothers h
  cases hd : d.opening? with
  | none => exact told_of_word hd (hopening ▸ hd)
  | some opening =>
      cases d with
      | text s =>
          cases e with
          | text t => exact told_text s t
          | _ => simp [opening?] at hopening
      | array items =>
          cases e with
          | array others => exact told_array fun item hitem other _ => ih item hitem other
          | _ => simp [opening?] at hopening
      | object members =>
          cases e with
          | object others =>
              exact told_object fun m hm n _ => ih m.2 (List.mem_map_of_mem hm) n.2
          | _ => simp [opening?] at hopening
      | _ => simp [opening?] at hd

/-- Documents that are shown alike have one canonical text. -/
theorem canonical_eq_of_shown_eq {d e : Document} (h : d.shown = e.shown) :
    d.canonical = e.canonical := by
  have hchars : d.shown.toList ++ [] = e.shown.toList ++ [] := by rw [h]
  have hend : EndsToken [] := by simp [EndsToken]
  rw [canonical, canonical, (told d e [] [] hend hend hchars).1]

theorem shown_array_congr {items others : List Document}
    (h : items.map shown = others.map shown) : (array items).shown = (array others).shown := by
  rw [shown, shown, shownItems_eq_map, shownItems_eq_map, h]

/-- Members of the same keys whose values are shown alike. -/
def ShownAlike (members others : Members) : Prop :=
  List.Forall₂ (fun m n => m.1 = n.1 ∧ m.2.shown = n.2.shown) members others

theorem ShownAlike.shown_object {members others : Members} (h : ShownAlike members others) :
    (object members).shown = (object others).shown := by
  have hmembers := map_eq_of_forall₂
    (f := fun member : String × Document => Text.quoted member.1 ++ ": " ++ member.2.shown) h
    fun m _ n _ h => by rw [h.1, h.2]
  rw [shown, shown, shownMembers_eq_map, shownMembers_eq_map, hmembers]

theorem ShownAlike.putMember {members others : Members} (h : ShownAlike members others)
    (key : String) {value other : Document} (hvalue : value.shown = other.shown) :
    ShownAlike (putMember key value members) (putMember key other others) := by
  induction h with
  | nil => exact .cons ⟨rfl, hvalue⟩ .nil
  | @cons m n members others hfirst hrest ih =>
      rw [Document.putMember, Document.putMember, hfirst.1]
      split
      · exact .cons ⟨rfl, hvalue⟩ hrest
      · exact .cons ⟨rfl, hfirst.2⟩ ih

theorem ShownAlike.shown_ofMembers {members others : Members} (h : ShownAlike members others) :
    (ofMembers members).shown = (ofMembers others).shown := by
  have hfold (known known' : Members) (hknown : ShownAlike known known') :
      ShownAlike (members.foldl (fun known m => Document.putMember m.1 m.2 known) known)
        (others.foldl (fun known m => Document.putMember m.1 m.2 known) known') := by
    induction h generalizing known known' with
    | nil => exact hknown
    | @cons m n members others hfirst _ ih =>
        rw [List.foldl_cons, List.foldl_cons, hfirst.1]
        exact ih _ _ (hknown.putMember n.1 hfirst.2)
  exact (hfold [] [] .nil).shown_object

/-- What is sorted by how it is shown is shown alike in whatever order it stood. -/
theorem shown_sortedBy_congr {items others : List Document}
    (h : (items.map shown).Perm (others.map shown)) :
    (array (sortedBy (fun a b => decide (a.shown ≤ b.shown)) items)).shown =
      (array (sortedBy (fun a b => decide (a.shown ≤ b.shown)) others)).shown := by
  apply shown_array_congr
  rw [map_sortedBy (fun a b => decide (a ≤ b)) shown,
    map_sortedBy (fun a b => decide (a ≤ b)) shown, sortedBy_eq_of_perm h]

end Document

end Nomenclature
