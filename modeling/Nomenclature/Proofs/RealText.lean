import Mathlib.Algebra.Order.Field.Rat
import Mathlib.Tactic.ByContra
import Mathlib.Tactic.NormNum
import Nomenclature.Decimal
import Nomenclature.Value.Equality

/-!
# Real numbers that amount to the same

A finite number that is not zero has one significand and one exponent, since a significand below the
least normal one occurs with the least exponent only. So two numbers of one quantity are the same
bits or two zeros, and their texts differ at most in the sign of a zero.
-/

namespace Nomenclature.Binary64

theorem fraction_lt (x : Binary64) : x.fraction < 4503599627370496 :=
  Nat.mod_lt _ (by decide)

/-- The sign, the exponent field and the fraction make up the number. -/
theorem ext_fields {x y : Binary64} (hsign : x.negative = y.negative)
    (hexponent : x.exponentField = y.exponentField) (hfraction : x.fraction = y.fraction) :
    x = y := by
  have hx := x.bits.toNat_lt
  have hy := y.bits.toNat_lt
  have hbits : x.bits.toNat = y.bits.toNat := by
    simp only [negative, exponentField, fraction, Nat.reducePow, decide_eq_decide, Nat.pow_eq] at *
    omega
  obtain ⟨bits⟩ := x
  obtain ⟨bits'⟩ := y
  exact congrArg mk (UInt64.toNat_inj.1 hbits)

/-- Below the least normal significand there is only the least exponent. -/
theorem exponent_of_significand_lt {x : Binary64} (h : x.significand < 4503599627370496) :
    x.exponent = -1074 := by
  rw [significand] at h
  split at h
  · rename_i hfield
    simp [exponent, hfield]
  · simp only [Nat.reducePow, Nat.pow_eq] at h
    omega

theorem significand_lt (x : Binary64) : x.significand < 9007199254740992 := by
  have hfraction := x.fraction_lt
  rw [significand]
  split
  · omega
  · simp only [Nat.reducePow, Nat.pow_eq]
    omega

theorem exponent_ge (x : Binary64) : -1074 ≤ x.exponent := by
  simp only [exponent]
  omega

/-- A number that is not zero is scaled in one way only. -/
theorem exponent_eq_of_mul_eq {x y : Binary64}
    (h : (x.significand : Rat) * 2 ^ x.exponent = y.significand * 2 ^ y.exponent)
    (hle : x.exponent ≤ y.exponent) :
    x.exponent = y.exponent ∧ x.significand = y.significand := by
  obtain ⟨gap, hgap⟩ := Int.le.dest hle
  have hpow : (2 : Rat) ^ x.exponent ≠ 0 := ne_of_gt (Rat.zpow_pos (by decide))
  have hscaled : x.significand = y.significand * 2 ^ gap := by
    rw [← hgap, Rat.zpow_add (by decide), Rat.zpow_natCast, mul_comm ((2 : Rat) ^ x.exponent),
      ← mul_assoc] at h
    exact_mod_cast mul_right_cancel₀ hpow h
  have hgap0 : gap = 0 := by
    by_contra hne
    have hnormal : 4503599627370496 ≤ y.significand := by
      by_contra hlt
      have hleast := exponent_of_significand_lt (Nat.lt_of_not_le hlt)
      have hge := x.exponent_ge
      omega
    have hlarge : 4503599627370496 * 2 ≤ x.significand := by
      calc 4503599627370496 * 2 ≤ y.significand * 2 ^ gap :=
            Nat.mul_le_mul hnormal (Nat.le_self_pow hne 2)
        _ = x.significand := hscaled.symm
    have hlt := x.significand_lt
    omega
  subst hgap0
  exact ⟨by simpa using hgap, by simpa using hscaled⟩

theorem magnitude_injective {x y : Binary64}
    (h : (x.significand : Rat) * 2 ^ x.exponent = y.significand * 2 ^ y.exponent) :
    x.exponentField = y.exponentField ∧ x.fraction = y.fraction := by
  have hsame : x.exponent = y.exponent ∧ x.significand = y.significand := by
    rcases Int.le_total x.exponent y.exponent with hle | hle
    · exact exponent_eq_of_mul_eq h hle
    · obtain ⟨hexponent, hsignificand⟩ := exponent_eq_of_mul_eq h.symm hle
      exact ⟨hexponent.symm, hsignificand.symm⟩
  obtain ⟨hexponent, hsignificand⟩ := hsame
  have hfraction := x.fraction_lt
  have hfraction' := y.fraction_lt
  simp only [exponent] at hexponent
  simp only [significand, Nat.reducePow, Nat.pow_eq] at hsignificand
  split at hsignificand <;> split at hsignificand <;> omega

/-- Two finite numbers of one value are the same unless they are zero. -/
theorem eq_of_toRat_eq {x y : Binary64} (h : x.toRat = y.toRat) (hx : x.significand ≠ 0) :
    x = y := by
  have hpos : (0 : Rat) < x.significand * 2 ^ x.exponent :=
    mul_pos (by exact_mod_cast Nat.pos_of_ne_zero hx) (Rat.zpow_pos (by decide))
  have hnonneg : (0 : Rat) ≤ y.significand * 2 ^ y.exponent :=
    mul_nonneg (by exact_mod_cast Nat.zero_le _) (Rat.zpow_nonneg (by decide))
  simp only [toRat] at h
  cases hsign : x.negative with
  | true =>
      cases hsign' : y.negative with
      | true =>
          simp only [hsign, hsign', if_true, neg_inj] at h
          obtain ⟨hexponent, hfraction⟩ := magnitude_injective h
          exact ext_fields (hsign.trans hsign'.symm) hexponent hfraction
      | false =>
          simp only [hsign, hsign', if_true, Bool.false_eq_true, if_false] at h
          rw [← h] at hnonneg
          exact absurd (neg_nonneg.1 hnonneg) (not_le_of_gt hpos)
  | false =>
      cases hsign' : y.negative with
      | true =>
          simp only [hsign, hsign', if_true, Bool.false_eq_true, if_false] at h
          rw [h] at hpos
          exact absurd (neg_pos.1 hpos) (not_lt_of_ge hnonneg)
      | false =>
          simp only [hsign, hsign', Bool.false_eq_true, if_false] at h
          obtain ⟨hexponent, hfraction⟩ := magnitude_injective h
          exact ext_fields (hsign.trans hsign'.symm) hexponent hfraction

theorem toRat_eq_zero_iff (x : Binary64) : x.toRat = 0 ↔ x.significand = 0 := by
  have hpow : (2 : Rat) ^ x.exponent ≠ 0 := ne_of_gt (Rat.zpow_pos (by decide))
  rw [toRat]
  split <;> simp [hpow]

/-- Numbers of one quantity are the same, or zeros, or no numbers at all. -/
theorem eq_of_quantity_eq {x y : Binary64} (h : x.quantity = y.quantity) :
    x = y ∨ (x.isZero = true ∧ y.isZero = true) ∨ (x.isNaN = true ∧ y.isNaN = true) := by
  have hfield (z : Binary64) (hz : ¬ z.isFinite = true) : z.exponentField = 2047 := by
    have hlt : z.exponentField < 2048 := Nat.mod_lt _ (by decide)
    simp only [isFinite, decide_eq_true_eq] at hz
    omega
  simp only [quantity] at h
  split at h
  · rename_i hx
    split at h
    · rename_i hy
      have hvalue : x.toRat = y.toRat := Quantity.finite.inj h
      by_cases hzero : x.significand = 0
      · have hzero' : y.significand = 0 := by
          rw [← toRat_eq_zero_iff, ← hvalue, toRat_eq_zero_iff, hzero]
        exact .inr (.inl (by simp [isZero, hx, hy, hzero, hzero']))
      · exact .inl (eq_of_toRat_eq hvalue hzero)
    · split at h <;> simp at h
  · rename_i hx
    split at h
    · rename_i hnan
      split at h
      · simp at h
      · split at h
        · rename_i hnan'
          exact .inr (.inr ⟨hnan, hnan'⟩)
        · simp at h
    · rename_i hnan
      split at h
      · simp at h
      · rename_i hy
        split at h
        · simp at h
        · rename_i hnan'
          have hfraction (z : Binary64) (hz : ¬ z.isFinite = true) (hnan : ¬ z.isNaN = true) :
              z.fraction = 0 := by
            simpa [isNaN, hfield z hz] using hnan
          refine .inl (ext_fields (Quantity.infinite.inj h) ?_ ?_)
          · rw [hfield x hx, hfield y hy]
          · rw [hfraction x hx hnan, hfraction y hy hnan']

/-- The texts of numbers of one quantity differ in the sign of a zero at most. -/
theorem text_eq_iff {x y : Binary64} (h : x.quantity = y.quantity) (layout : Decimal.Layout) :
    Decimal.text layout x = Decimal.text layout y ↔
      (x.isZero = true → x.negative = y.negative) := by
  have hzeroText (z : Binary64) (hz : z.isZero = true) : Decimal.text layout z =
      String.ofList ((if z.negative then ['-'] else []) ++ ['0', '.', '0']) := by
    have hfinite : z.isFinite = true := by
      rw [isZero, Bool.and_eq_true] at hz
      exact hz.1
    have hnan : z.isNaN = false := by
      simp only [isFinite, decide_eq_true_eq] at hfinite
      simp only [isNaN, Bool.and_eq_false_iff, beq_eq_false_iff_ne]
      exact .inl (by omega)
    simp only [Decimal.text, hnan, hfinite, hz, Bool.false_eq_true, if_false, if_true]
  rcases eq_of_quantity_eq h with rfl | ⟨hx, hy⟩ | ⟨hx, hy⟩
  · simp
  · rw [hzeroText x hx, hzeroText y hy]
    cases x.negative <;> cases y.negative <;> simp [hx]
  · have hzero : x.isZero = false := by
      simp only [isNaN, Bool.and_eq_true, beq_iff_eq] at hx
      simp [isZero, isFinite, hx.1]
    simp [Decimal.text, hx, hy, hzero]

end Nomenclature.Binary64
