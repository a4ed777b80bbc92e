import Nomenclature.Proofs.ConstantCase
import Nomenclature.Proofs.Segmentation
import Nomenclature.Proofs.StandardResolution
import Nomenclature.Proofs.StyleWriting

/-!
# Names that stay identifiers

A name of a GraphQL document is an identifier: letters, digits and underscores, and no digit at the
beginning. A style that writes the pieces between underscores leaves it one, since what the name
begins with is a letter or an underscore that stays. A style that sees the name whole may drop the
underscores in front, and then the first character behind them decides.
-/

namespace Nomenclature

/-- A character that a name may begin with. -/
def beginsName (c : Char) : Bool :=
  c.isAlpha || c == '_'

def isNameChar (c : Char) : Bool :=
  Word.isWordChar c || c == '_'

/-- A letter or an underscore, and then letters, digits and underscores. -/
def isName : List Char → Bool
  | [] => false
  | c :: rest => beginsName c && rest.all isNameChar

theorem isNameChar_of_beginsName {c : Char} (hc : beginsName c = true) : isNameChar c = true := by
  rw [beginsName, Bool.or_eq_true] at hc
  rw [isNameChar, Word.isWordChar_eq, Bool.or_eq_true, Bool.or_eq_true]
  exact hc.imp_left .inl

/-- A name is told by its characters and by the first of them. -/
theorem isName_iff {cs : List Char} : isName cs = true ↔
    cs.head?.any beginsName = true ∧ ∀ c ∈ cs, isNameChar c = true := by
  cases cs with
  | nil => simp [isName]
  | cons c rest =>
      rw [isName, Bool.and_eq_true, List.all_eq_true, List.forall_mem_cons, List.head?_cons,
        Option.any_some]
      constructor
      · exact fun ⟨hc, hrest⟩ => ⟨hc, isNameChar_of_beginsName hc, hrest⟩
      · exact fun ⟨hc, _, hrest⟩ => ⟨hc, hrest⟩

section Characters

variable {c : Char}

theorem ascii_of_isNameChar (hc : isNameChar c = true) : c.toNat < 128 := by
  rw [isNameChar, Bool.or_eq_true, beq_iff_eq] at hc
  rcases hc with hc | rfl
  · exact Word.ascii_of_isWordChar hc
  · decide

theorem isNameChar_letter (starts : Bool) (hc : isNameChar c = true) :
    isNameChar (Word.letter starts c) = true := by
  rw [isNameChar, Bool.or_eq_true, beq_iff_eq] at hc
  rcases hc with hc | rfl
  · rw [isNameChar, Word.isWordChar_letter starts hc, Bool.true_or]
  · cases starts <;> decide

theorem isAlpha_letter (starts : Bool) (c : Char) : (Word.letter starts c).isAlpha = c.isAlpha := by
  cases starts with
  | false => exact Char.isAlpha_toLower_eq_isAlpha c
  | true => exact Char.isAlpha_toUpper_eq_isAlpha c

theorem beginsName_letter (starts : Bool) (hc : beginsName c = true) :
    beginsName (Word.letter starts c) = true := by
  rw [beginsName, Bool.or_eq_true, beq_iff_eq] at hc
  rcases hc with hc | rfl
  · rw [beginsName, isAlpha_letter, hc, Bool.true_or]
  · cases starts <;> decide

/-- Of the letters and digits, a name begins with the letters. -/
theorem beginsName_eq_isAlpha (hc : Word.isWordChar c = true) : beginsName c = c.isAlpha := by
  rw [beginsName, beq_eq_false_iff_ne.2 (Word.ne_underscore_of_isWordChar hc), Bool.or_false]

end Characters

namespace CaseStyle

open Text Word

/-- The styles that change letters where they stand. -/
def inPlace : List CaseStyle :=
  [lower, upper, lowerFirst, upperFirst, keep]

/-- The styles that write words one after another, with nothing between them or an underscore. -/
def joining : List CaseStyle :=
  [pascal, camel, constant, snake]

theorem apply_nil (style : CaseStyle) : style.apply [] = [] := by
  cases style <;> rfl

section InPlace

variable {style : CaseStyle} {cs ds : List Char}

/-- A character as it is, or as a capital, or in lower case. -/
def IsCaseOf (c d : Char) : Prop :=
  d = c ∨ ∃ starts, d = letter starts c

/-- A style that works in place writes each character of ASCII for itself. -/
theorem forall₂_apply (hstyle : style ∈ inPlace) (hcs : IsAscii cs) :
    List.Forall₂ IsCaseOf cs (style.apply cs) := by
  have hsame (rest : List Char) : List.Forall₂ IsCaseOf rest rest :=
    List.forall₂_same.2 fun _ _ => .inl rfl
  have hletters (starts : Bool) : List.Forall₂ IsCaseOf cs (cs.map (letter starts)) :=
    List.forall₂_map_right_iff.2 (List.forall₂_same.2 fun _ _ => .inr ⟨starts, rfl⟩)
  cases style
  case pascal | camel | constant | snake | param | dot | path | spaced | capital | header
      | sentence =>
    exact absurd hstyle (by decide)
  case lower =>
    rw [apply, lowerChars_of_isAscii hcs]
    exact hletters false
  case upper =>
    rw [apply, upperChars_of_isAscii hcs]
    exact hletters true
  case lowerFirst =>
    cases cs with
    | nil => exact .nil
    | cons c rest =>
        have hc : IsAscii [c] := List.forall_mem_singleton.2 (List.forall_mem_cons.1 hcs).1
        rw [apply, lowerInitial, lowerChars_of_isAscii hc]
        exact .cons (.inr ⟨false, rfl⟩) (hsame rest)
  case upperFirst =>
    cases cs with
    | nil => exact .nil
    | cons c rest =>
        have hc : IsAscii [c] := List.forall_mem_singleton.2 (List.forall_mem_cons.1 hcs).1
        rw [apply, upperInitial, upperChars_of_isAscii hc]
        exact .cons (.inr ⟨true, rfl⟩) (hsame rest)
  case keep => exact hsame cs

theorem isNameChar_of_forall₂ (h : List.Forall₂ IsCaseOf cs ds)
    (hcs : ∀ c ∈ cs, isNameChar c = true) : ∀ d ∈ ds, isNameChar d = true := by
  induction h with
  | nil => exact hcs
  | cons hfirst _ ih =>
      obtain ⟨hc, hrest⟩ := List.forall_mem_cons.1 hcs
      refine List.forall_mem_cons.2 ⟨?_, ih hrest⟩
      rcases hfirst with rfl | ⟨starts, rfl⟩
      · exact hc
      · exact isNameChar_letter starts hc

theorem head?_any_of_forall₂ (h : List.Forall₂ IsCaseOf cs ds)
    (hcs : cs.head?.any beginsName = true) : ds.head?.any beginsName = true := by
  cases h with
  | nil => exact hcs
  | cons hfirst _ =>
      rcases hfirst with rfl | ⟨starts, rfl⟩
      · exact hcs
      · exact beginsName_letter starts hcs

end InPlace

section Joining

variable {style : CaseStyle} {cs : List Char}

/-- Words without a separator begin with the first letter or digit of the text. -/
theorem head?_recased (starts : Bool) (cs : List Char) :
    (recased starts cs).head? = (cs.find? isWordChar).map (letter starts) := by
  induction cs with
  | nil => rfl
  | cons c rest ih =>
      rw [recased, List.find?_cons]
      split
      · rename_i hc
        rw [hc]
        rfl
      · rename_i hc
        rw [Bool.eq_false_iff.2 hc]
        exact ih

/-- So do words between underscores. -/
theorem head?_intercalate_words (starts : Bool) (cs : List Char) :
    (['_'].intercalate ((Word.ofChars cs).map (List.map (letter starts)))).head? =
      (cs.find? isWordChar).map (letter starts) := by
  have hflatten : (Word.ofChars cs).flatten = cs.filter isWordChar :=
    (isSegmentation_iff.2 rfl).flatten_eq
  rw [← List.head?_filter, ← hflatten]
  cases hwords : Word.ofChars cs with
  | nil => rfl
  | cons word words =>
      have hword : IsWord word := isWord_of_mem_ofChars (hwords ▸ List.mem_cons_self)
      obtain ⟨c, rest, rfl⟩ := List.exists_cons_of_ne_nil hword.1
      rw [List.map_cons, List.map_cons, head?_intercalate_cons (List.cons_ne_nil _ _)]
      rfl

/-- A style that joins words is a pass over the text, or changes words letter by letter and puts
underscores between them. -/
theorem exists_apply_eq (hstyle : style ∈ joining) : ∃ starts, ∀ cs,
    style.apply cs = recased starts cs ∨
      style.apply cs = ['_'].intercalate ((Word.ofChars cs).map (List.map (letter starts))) := by
  have hletters (starts : Bool) {f : List Char → List Char}
      (hf : ∀ word, IsWord word → f word = word.map (letter starts)) (cs : List Char) :
      (Word.ofChars cs).map f = (Word.ofChars cs).map (List.map (letter starts)) :=
    List.map_congr_left fun word hword => hf word (isWord_of_mem_ofChars hword)
  cases style
  case param | dot | path | spaced | capital | header | sentence | lower | upper | lowerFirst
      | upperFirst | keep =>
    exact absurd hstyle (by decide)
  case pascal => exact ⟨true, fun cs => .inl ((apply_pascal cs).trans (glued_ofChars true cs))⟩
  case camel => exact ⟨false, fun cs => .inl ((apply_camel cs).trans (glued_ofChars false cs))⟩
  case constant =>
    have hupper := hletters true fun _ => IsWord.upperChars_eq
    exact ⟨true, fun cs => .inr (congrArg (List.intercalate ['_']) (hupper cs))⟩
  case snake =>
    have hlower := hletters false fun _ => IsWord.lowerChars_eq
    exact ⟨false, fun cs => .inr (congrArg (List.intercalate ['_']) (hlower cs))⟩

/-- It writes letters, digits and underscores only. -/
theorem isNameChar_of_mem_joined (hstyle : style ∈ joining) {c : Char} (hc : c ∈ style.apply cs) :
    isNameChar c = true := by
  obtain ⟨starts, happly⟩ := exists_apply_eq hstyle
  rcases happly cs with heq | heq
  · rw [heq] at hc
    rw [isNameChar, isWordChar_of_mem_recased hc, Bool.true_or]
  · rw [heq] at hc
    refine forall_mem_intercalate (p := fun c => isNameChar c = true) (by decide) ?_ c hc
    refine List.forall_mem_map.2 fun word hword => List.forall_mem_map.2 fun d hd => ?_
    have hd : isWordChar d = true := (isWord_of_mem_ofChars hword).2 d hd
    rw [isNameChar, isWordChar_letter starts hd, Bool.true_or]

/-- What it writes begins with the first letter or digit of the text, in one case or the other. -/
theorem exists_head?_joined (hstyle : style ∈ joining) (cs : List Char) :
    ∃ starts, (style.apply cs).head? = (cs.find? isWordChar).map (letter starts) := by
  obtain ⟨starts, happly⟩ := exists_apply_eq hstyle
  refine ⟨starts, ?_⟩
  rcases happly cs with heq | heq
  · rw [heq, head?_recased]
  · rw [heq, head?_intercalate_words]

/-- In a name, what is no underscore is a letter or digit. -/
theorem find?_isWordChar (hcs : ∀ c ∈ cs, isNameChar c = true) :
    cs.find? isWordChar = cs.find? (· != '_') := by
  refine List.find?_congr fun c hc => ?_
  have hname := hcs c hc
  rw [isNameChar, Bool.or_eq_true, beq_iff_eq] at hname
  rcases hname with hword | rfl
  · rw [hword, bne_iff_ne.2 (ne_underscore_of_isWordChar hword)]
  · decide

/-- Of a name, a style that joins words makes a name again exactly if the first character other than
an underscore is there and a letter. -/
theorem isName_joined_iff (hstyle : style ∈ joining) (hcs : ∀ c ∈ cs, isNameChar c = true) :
    isName (style.apply cs) = true ↔ ∃ c, cs.find? (· != '_') = some c ∧ c.isAlpha = true := by
  obtain ⟨starts, hhead⟩ := exists_head?_joined hstyle cs
  have hbegins {c : Char} (hc : cs.find? isWordChar = some c) :
      beginsName (letter starts c) = c.isAlpha := by
    have hword : isWordChar c = true := List.find?_some hc
    rw [beginsName_eq_isAlpha (isWordChar_letter starts hword), isAlpha_letter]
  rw [isName_iff, hhead, Option.any_map, ← find?_isWordChar hcs]
  constructor
  · rintro ⟨hany, -⟩
    obtain ⟨c, hc, hfirst⟩ := (Option.any_eq_true _ _).1 hany
    exact ⟨c, hc, (hbegins hc).symm.trans hfirst⟩
  · rintro ⟨c, hc, halpha⟩
    refine ⟨?_, fun d => isNameChar_of_mem_joined hstyle⟩
    rw [hc]
    exact (hbegins hc).trans halpha

end Joining

section Policies

variable {style : CaseStyle} {cs : List Char}

/-- A style that works in place makes a name of a name. -/
theorem isName_inPlace (hstyle : style ∈ inPlace) (hcs : isName cs = true) :
    isName (style.apply cs) = true := by
  rw [isName_iff] at hcs ⊢
  obtain ⟨hhead, hchars⟩ := hcs
  have hcases := forall₂_apply hstyle fun c hc => ascii_of_isNameChar (hchars c hc)
  exact ⟨head?_any_of_forall₂ hcases hhead, isNameChar_of_forall₂ hcases hchars⟩

/-- Both kinds of styles write the characters of names, of such characters. -/
theorem isNameChar_of_mem_apply (hstyle : style ∈ inPlace ++ joining)
    (hcs : ∀ c ∈ cs, isNameChar c = true) : ∀ c ∈ style.apply cs, isNameChar c = true := by
  rcases List.mem_append.1 hstyle with hstyle | hstyle
  · exact isNameChar_of_forall₂ (forall₂_apply hstyle fun c hc => ascii_of_isNameChar (hcs c hc)) hcs
  · exact fun c => isNameChar_of_mem_joined hstyle

/-- What begins with a letter stays a name, whatever the style. -/
theorem isName_of_isAlpha (hstyle : style ∈ inPlace ++ joining) {c : Char} {rest : List Char}
    (hc : c.isAlpha = true) (hrest : ∀ d ∈ rest, isNameChar d = true) :
    isName (style.apply (c :: rest)) = true := by
  have hbegins : beginsName c = true := by
    rw [beginsName, hc, Bool.true_or]
  have hchars : ∀ d ∈ c :: rest, isNameChar d = true :=
    List.forall_mem_cons.2 ⟨isNameChar_of_beginsName hbegins, hrest⟩
  rcases List.mem_append.1 hstyle with hstyle | hstyle
  · exact isName_inPlace hstyle (isName_iff.2 ⟨hbegins, hchars⟩)
  · rw [isName_joined_iff hstyle hchars]
    refine ⟨c, List.find?_cons_of_pos ?_, hc⟩
    exact bne_iff_ne.2 (ne_underscore_of_isWordChar (isWordChar_of_isAlpha hc))

/-- Written piece by piece a name stays one: what stands in front is an underscore, which is put
back, or a letter, which the first piece begins with. -/
theorem isName_applyUnder_false (hstyle : style ∈ inPlace ++ joining) (hcs : isName cs = true) :
    isName (style.applyUnder false cs) = true := by
  obtain ⟨hhead, hchars⟩ := isName_iff.1 hcs
  have hpieces {piece : List Char} (hpiece : piece ∈ cs.splitOn '_') :
      ∀ c ∈ piece, isNameChar c = true := by
    intro c hc
    apply hchars
    have hwhole : ['_'].intercalate (cs.splitOn '_') = cs := List.intercalate_splitOn '_'
    exact hwhole ▸ mem_intercalate hpiece hc
  have halphabet : ∀ c ∈ style.applyUnder false cs, isNameChar c = true := by
    apply forall_mem_intercalate (p := fun c => isNameChar c = true) (by decide)
    exact List.forall_mem_map.2 fun piece hmem => isNameChar_of_mem_apply hstyle (hpieces hmem)
  refine isName_iff.2 ⟨?_, halphabet⟩
  rw [applyUnder_false]
  cases cs with
  | nil => cases hcs
  | cons c rest =>
      obtain ⟨piece, pieces, hrest⟩ := List.exists_cons_of_ne_nil (List.splitOn_ne_nil '_' rest)
      by_cases hc : c = '_'
      · have hsplit : (c :: rest).splitOn '_' = [] :: piece :: pieces := by
          rw [List.splitOn_cons_eq_if_modifyHead, if_pos (beq_iff_eq.2 hc), hrest]
        rw [hsplit, List.map_cons, apply_nil]
        rfl
      · have hsplit : (c :: rest).splitOn '_' = (c :: piece) :: pieces := by
          rw [List.splitOn_cons_eq_if_modifyHead, if_neg (by simp [hc]), hrest]
          rfl
        have halpha : c.isAlpha = true := by
          have hbegins : beginsName c = true := hhead
          rw [beginsName, Bool.or_eq_true, beq_iff_eq] at hbegins
          exact hbegins.resolve_right hc
        have hfirst : isName (style.apply (c :: piece)) = true := by
          apply isName_of_isAlpha hstyle halpha
          exact (List.forall_mem_cons.1 (hpieces (hsplit ▸ List.mem_cons_self))).2
        have hne : style.apply (c :: piece) ≠ [] := by
          intro hnil
          rw [hnil] at hfirst
          cases hfirst
        rw [hsplit, List.map_cons, head?_intercalate_cons hne]
        exact (isName_iff.1 hfirst).1

end Policies

end CaseStyle

namespace NameWriter

open CaseStyle

/-- Under these styles a name is written as a name where underscores are preserved. Where they are
transformed, it is if the style works in place; a style that joins words makes a name of it exactly
if the first character other than an underscore is there and a letter. -/
theorem write_isName {host : Host} {convention : Convention} {writer : NameWriter}
    {category : NameCategory} {style : CaseStyle} {name : String}
    (hwriter : ofConvention host convention = .ok writer)
    (hstyle : (convention.strategyOf category).resolve host = .ok (.style style))
    (hkind : style ∈ inPlace ++ joining) (hname : isName name.toList = true)
    (policy : Option Bool) :
    ∃ written, writer.write host category name policy = .ok written ∧
      (policy.getD convention.transformUnderscore.isTruthy = false →
        isName written.toList = true) ∧
      (policy.getD convention.transformUnderscore.isTruthy = true →
        (style ∈ inPlace → isName written.toList = true) ∧
        (style ∈ joining → (isName written.toList = true ↔
          ∃ c, name.toList.find? (· != '_') = some c ∧ c.isAlpha = true))) := by
  refine ⟨_, write_of_style hwriter hstyle name policy, ?_, ?_⟩
  · intro hpreserved
    rw [hpreserved, String.toList_ofList]
    exact isName_applyUnder_false hkind hname
  · intro htransformed
    rw [htransformed, String.toList_ofList]
    exact ⟨fun hinPlace => isName_inPlace hinPlace hname,
      fun hjoining => isName_joined_iff hjoining (isName_iff.1 hname).2⟩

/-- A name with a digit behind its underscore: pascal case writes it as a name if it keeps the
underscore, and as none if it drops it. -/
theorem write_isName_pascal :
    ∃ writer, ofConvention Host.bare ⟨.named "pascalCase", .named "keep", .boolean false⟩ =
        .ok writer ∧
      Strategy.resolve Host.bare (.named "pascalCase") = .ok (.style .pascal) ∧
      pascal ∈ inPlace ++ joining ∧ isName "_2fa_code".toList = true ∧
      (∃ written, writer.write Host.bare .typeNames "_2fa_code" none = .ok written ∧
        isName written.toList = true) ∧
      ∃ written, writer.write Host.bare .typeNames "_2fa_code" (some true) = .ok written ∧
        isName written.toList = false := by
  have hwriter : ofConvention Host.bare ⟨.named "pascalCase", .named "keep", .boolean false⟩ =
      .ok ⟨⟨.named "pascalCase", .named "keep", .boolean false⟩, some (.style .pascal), none⟩ := rfl
  have hwrite := @write_isName Host.bare _ _ .typeNames _ "_2fa_code" hwriter rfl (by decide)
    (by decide)
  obtain ⟨preserved, hpreserved, hisName, -⟩ := hwrite none
  obtain ⟨transformed, htransformed, -, hpolicy⟩ := hwrite (some true)
  refine ⟨_, hwriter, rfl, by decide, by decide, ⟨preserved, hpreserved, hisName rfl⟩,
    transformed, htransformed, ?_⟩
  rw [Bool.eq_false_iff]
  intro hname
  obtain ⟨c, hc, halpha⟩ := ((hpolicy rfl).2 (by decide)).1 hname
  obtain rfl : '2' = c := Option.some.inj hc
  exact absurd halpha (by decide)

end NameWriter

end Nomenclature
