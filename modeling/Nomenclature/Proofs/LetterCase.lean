import Mathlib
import Nomenclature.Text.Case

/-!
# Letter case and ASCII

Inside ASCII the case mapping works character by character, whatever stands around. From outside,
lower case reaches into ASCII in two places only: the dotted capital I and the Kelvin sign, of which
the one yields an `i` and the other a `k`. A text that begins or ends in other letters once its case
is dropped therefore began or ended in the same letters before.
-/

namespace Nomenclature.Text

theorem isUpper_iff {c : Char} : c.isUpper = true ↔ 65 ≤ c.toNat ∧ c.toNat ≤ 90 := by
  simp [Char.isUpper, UInt32.le_iff_toNat_le, ← Char.toNat_val]

theorem isLower_iff {c : Char} : c.isLower = true ↔ 97 ≤ c.toNat ∧ c.toNat ≤ 122 := by
  simp [Char.isLower, UInt32.le_iff_toNat_le, ← Char.toNat_val]

theorem isDigit_iff {c : Char} : c.isDigit = true ↔ 48 ≤ c.toNat ∧ c.toNat ≤ 57 :=
  Char.isDigit_iff_toNat

/-- All characters are ASCII. -/
def IsAscii (cs : List Char) : Prop :=
  ∀ c ∈ cs, c.toNat < 128

instance (cs : List Char) : Decidable (IsAscii cs) :=
  List.decidableBAll (fun c : Char => c.toNat < 128) cs

/-- What one character becomes in lower case, given what stands around it. -/
def lowerBetween (before : Bool) (c : Char) (rest : List Char) : List Char :=
  if c = 'Σ' then [if before && !letterFollows rest then 'ς' else 'σ'] else lowerChar c

theorem lowerAfter_cons (before : Bool) (c : Char) (rest : List Char) :
    lowerAfter before (c :: rest) =
      lowerBetween before c rest ++ lowerAfter (letterPrecedes before c) rest := rfl

section Ascii

variable {c : Char} {cs ds : List Char}

theorem lowerBetween_of_ascii (hc : c.toNat < 128) (before : Bool) (rest : List Char) :
    lowerBetween before c rest = [c.toLower] := by
  have hsigma : c ≠ 'Σ' := by
    rintro rfl
    exact absurd hc (by decide)
  rw [lowerBetween, if_neg hsigma, lowerChar, if_pos hc]

theorem upperChar_of_ascii (hc : c.toNat < 128) : upperChar c = [c.toUpper] := by
  rw [upperChar, if_pos hc]

theorem lowerAfter_of_isAscii (hcs : IsAscii cs) (before : Bool) :
    lowerAfter before cs = cs.map Char.toLower := by
  induction cs generalizing before with
  | nil => rfl
  | cons c rest ih =>
      obtain ⟨hc, hrest⟩ := List.forall_mem_cons.1 hcs
      rw [lowerAfter_cons, lowerBetween_of_ascii hc, ih hrest]
      rfl

theorem lowerChars_of_isAscii (hcs : IsAscii cs) : lowerChars cs = cs.map Char.toLower :=
  lowerAfter_of_isAscii hcs false

theorem upperChars_of_isAscii (hcs : IsAscii cs) : upperChars cs = cs.map Char.toUpper := by
  induction cs with
  | nil => rfl
  | cons c rest ih =>
      obtain ⟨hc, hrest⟩ := List.forall_mem_cons.1 hcs
      rw [upperChars, List.flatMap_cons, upperChar_of_ascii hc]
      exact congrArg (c.toUpper :: ·) (ih hrest)

/-- An ASCII text at the end is written in lower case whatever stands before it. -/
theorem exists_lowerAfter_append (hds : IsAscii ds) (before : Bool) (cs : List Char) :
    ∃ front, lowerAfter before (cs ++ ds) = front ++ ds.map Char.toLower := by
  induction cs generalizing before with
  | nil => exact ⟨[], lowerAfter_of_isAscii hds before⟩
  | cons c rest ih =>
      obtain ⟨front, hfront⟩ := ih (letterPrecedes before c)
      rw [List.cons_append, lowerAfter_cons, hfront]
      exact ⟨_, (List.append_assoc ..).symm⟩

theorem ascii_of_isAlpha (hc : c.isAlpha = true) : c.toNat < 128 := by
  simp only [Char.isAlpha, Bool.or_eq_true, isUpper_iff, isLower_iff] at hc
  omega

/-- A letter of ASCII is never passed over. -/
theorem isCaseIgnorable_of_isAlpha (hc : c.isAlpha = true) : isCaseIgnorable c = false := by
  have houtside : caseIgnorableRanges.all (fun range =>
      range.2 < 65 || 90 < range.1 && range.2 < 97 || 122 < range.1) = true := by
    decide +kernel
  rw [isCaseIgnorable, CharRanges.holds, List.any_eq_false]
  intro range hrange
  have hrange := List.all_eq_true.1 houtside range hrange
  simp only [Char.isAlpha, Bool.or_eq_true, isUpper_iff, isLower_iff] at hc
  simp only [Bool.or_eq_true, Bool.and_eq_true, decide_eq_true_eq] at hrange ⊢
  omega

/-- Whether a letter follows is settled by the first character that is not passed over. -/
theorem letterFollows_append (hc : isCaseIgnorable c = false) (cs ds : List Char) :
    letterFollows (cs ++ c :: ds) = letterFollows (cs ++ [c]) := by
  induction cs with
  | nil => simp [letterFollows, hc]
  | cons first rest ih =>
      rw [List.cons_append, List.cons_append, letterFollows, letterFollows, ih]

/-- What stands after a letter of ASCII makes no difference to the lower case before. -/
theorem lowerChars_append_of_isAlpha (hc : c.isAlpha = true) (hds : IsAscii ds)
    (cs : List Char) :
    lowerChars (cs ++ c :: ds) = lowerChars (cs ++ [c]) ++ ds.map Char.toLower := by
  have hignorable := isCaseIgnorable_of_isAlpha hc
  rw [lowerChars, lowerChars]
  generalize false = before
  induction cs generalizing before with
  | nil =>
      simp only [List.nil_append, lowerAfter_cons, lowerBetween_of_ascii (ascii_of_isAlpha hc),
        lowerAfter_of_isAscii hds]
      rfl
  | cons first rest ih =>
      simp only [List.cons_append, lowerAfter_cons, lowerBetween,
        letterFollows_append hignorable rest ds, ih, List.append_assoc]

end Ascii

/-! ## Where ASCII letters in lower case come from -/

/-- An ASCII character that no character outside ASCII has in its lower case. -/
def FromAscii (x : Char) : Prop :=
  x.toNat < 128 ∧ x ≠ 'i' ∧ x ≠ 'k'

instance (x : Char) : Decidable (FromAscii x) :=
  inferInstanceAs (Decidable (_ ∧ _))

/-- All characters of a text are such. -/
def IsFromAscii (cs : List Char) : Prop :=
  ∀ x ∈ cs, FromAscii x

instance (cs : List Char) : Decidable (IsFromAscii cs) :=
  List.decidableBAll FromAscii cs

/-- A run of code points outside ASCII stays outside, but for the Kelvin sign. -/
theorem lowerRuns_outside {run : CaseRun} (hrun : run ∈ lowerRuns) {code : Nat}
    (hcode : run.covers code = true) :
    128 ≤ (Char.ofNat (run.image code)).toNat ∨ Char.ofNat (run.image code) = 'k' := by
  have hruns : lowerRuns.all (fun run =>
      run.first == run.last && run.first + run.shift == 107 ||
        128 ≤ run.first + run.shift && (run.last + run.shift < 0xD800 ||
          0xDFFF < run.first + run.shift && run.last + run.shift < 0x110000)) = true := by
    decide +kernel
  have hrun := List.all_eq_true.1 hruns run hrun
  simp only [Bool.or_eq_true, Bool.and_eq_true, beq_iff_eq, decide_eq_true_eq] at hrun
  simp only [CaseRun.covers, Bool.and_eq_true, decide_eq_true_eq] at hcode
  rcases hrun with ⟨hsingle, hkelvin⟩ | ⟨hlow, hvalid⟩
  · have himage : run.image code = 107 := by
      rw [CaseRun.image]
      omega
    rw [himage]
    exact .inr rfl
  · have hvalid : (run.image code).isValidChar := by
      rw [CaseRun.image, Nat.isValidChar]
      omega
    have hcodePoint : (Char.ofNat (run.image code)).toNat = run.image code := by
      rw [Char.ofNat, dif_pos hvalid]
      rfl
    rw [hcodePoint, CaseRun.image]
    omega

theorem ascii_of_mem_lowerChar {c x : Char} (hx : x ∈ lowerChar c) (hascii : FromAscii x) :
    c.toNat < 128 := by
  obtain ⟨hsmall, hi, hk⟩ := hascii
  by_contra hc
  rw [lowerChar, if_neg hc, counterpart] at hx
  split at hx
  · rename_i codes hcodes
    obtain ⟨code, hcode, rfl⟩ := List.mem_map.1 hx
    rw [lowerExpansions, List.lookup_cons] at hcodes
    split at hcodes
    · obtain rfl := Option.some.inj hcodes
      rcases List.mem_pair.1 hcode with rfl | rfl
      · exact hi rfl
      · exact absurd hsmall (by decide)
    · cases hcodes
  · split at hx
    · rename_i run hrun
      obtain rfl := List.mem_singleton.1 hx
      have hcovers := List.find?_some hrun
      rcases lowerRuns_outside (List.mem_of_find?_eq_some hrun) hcovers with houtside | hkelvin
      · omega
      · exact hk hkelvin
    · obtain rfl := List.mem_singleton.1 hx
      exact hc hsmall

theorem toLower_of_mem_lowerBetween {before : Bool} {c x : Char} {rest : List Char}
    (hx : x ∈ lowerBetween before c rest) (hascii : FromAscii x) :
    c.toNat < 128 ∧ c.toLower = x := by
  have hc : c.toNat < 128 := by
    rw [lowerBetween] at hx
    split at hx
    · obtain rfl := List.mem_singleton.1 hx
      split at hascii
      · exact absurd hascii (by decide)
      · exact absurd hascii (by decide)
    · exact ascii_of_mem_lowerChar hx hascii
  rw [lowerBetween_of_ascii hc] at hx
  exact ⟨hc, (List.mem_singleton.1 hx).symm⟩

theorem lowerBetween_ne_nil (before : Bool) (c : Char) (rest : List Char) :
    lowerBetween before c rest ≠ [] := by
  rw [lowerBetween]
  split
  · simp
  · rw [lowerChar]
    split
    · simp
    · rw [counterpart]
      split
      · rename_i codes hcodes
        rw [lowerExpansions, List.lookup_cons] at hcodes
        split at hcodes
        · obtain rfl := Option.some.inj hcodes
          simp
        · cases hcodes
      · split <;> simp

/-- A text that begins in such characters once its case is dropped begins in the same letters. -/
theorem exists_of_lowerAfter_eq_append {before : Bool} {cs word rest : List Char}
    (hword : IsFromAscii word) (h : lowerAfter before cs = word ++ rest) :
    ∃ front back, cs = front ++ back ∧ IsAscii front ∧ front.map Char.toLower = word := by
  induction word generalizing before cs with
  | nil => exact ⟨[], cs, rfl, by simp [IsAscii], rfl⟩
  | cons x word ih =>
      obtain ⟨hx, hothers⟩ := List.forall_mem_cons.1 hword
      cases cs with
      | nil => cases h
      | cons c tail =>
          rw [lowerAfter_cons] at h
          obtain ⟨y, more, hhere⟩ := List.exists_cons_of_ne_nil (lowerBetween_ne_nil before c tail)
          obtain rfl : y = x := by
            rw [hhere] at h
            exact (List.cons.inj h).1
          obtain ⟨hc, hlower⟩ := toLower_of_mem_lowerBetween (hhere ▸ List.mem_cons_self) hx
          rw [lowerBetween_of_ascii hc] at h
          obtain ⟨front, back, rfl, hfront, hmap⟩ := ih hothers (List.cons.inj h).2
          refine ⟨c :: front, back, rfl, List.forall_mem_cons.2 ⟨hc, hfront⟩, ?_⟩
          rw [List.map_cons, hlower, hmap]

theorem lowerAfter_ne_nil (before : Bool) (c : Char) (rest : List Char) :
    lowerAfter before (c :: rest) ≠ [] := by
  rw [lowerAfter_cons]
  exact List.append_ne_nil_of_left_ne_nil (lowerBetween_ne_nil before c rest) _

/-- A text that ends in such a character once its case is dropped ends in the same letter. -/
theorem exists_of_lowerAfter_eq_concat {before : Bool} {cs front : List Char} {x : Char}
    (hx : FromAscii x) (h : lowerAfter before cs = front ++ [x]) :
    ∃ rest c, cs = rest ++ [c] ∧ c.toLower = x := by
  induction cs generalizing before front with
  | nil => simp [lowerAfter] at h
  | cons c rest ih =>
      rw [lowerAfter_cons] at h
      cases rest with
      | nil =>
          rw [lowerAfter, List.append_nil] at h
          have hmem : x ∈ lowerBetween before c [] := by
            rw [h]
            simp
          exact ⟨[], c, rfl, (toLower_of_mem_lowerBetween hmem hx).2⟩
      | cons d tail =>
          obtain ⟨others, y, hlast⟩ := (List.eq_nil_or_concat' _).resolve_left
            (lowerAfter_ne_nil (letterPrecedes before c) d tail)
          obtain rfl : y = x := by
            rw [hlast, ← List.append_assoc] at h
            exact List.singleton_injective (List.append_inj_right' h rfl)
          obtain ⟨front, c', hrest, hlower⟩ := ih hlast
          exact ⟨c :: front, c', by rw [hrest, List.cons_append], hlower⟩

end Nomenclature.Text
