import Mathlib
import PlayDiagram.Proofs.Number.DoubleRounding

/-!
# What numbers are rounded to

A double stands for a mantissa times a power of two.  A positive number is rounded to a double that no
other one lies between (`exists_isRounded_round`), also if the number is a quotient, of which the mantissa
is cut off first (`exists_isRounded_div`).
-/

namespace PlayDiagram

open Float.Model (Format UnpackedFloat)
open Float.Model.UnpackedFloat (Sign Accuracy)

/-! ## The numbers of mantissas and exponents -/

/-- The number of a mantissa and an exponent. -/
def scaled (mantissa : ℕ) (exponent : ℤ) : ℚ :=
  mantissa * 2 ^ exponent

theorem scaled_add_nat (m : ℕ) (e : ℤ) (n : ℕ) : scaled m (e + n) = scaled (m * 2 ^ n) e := by
  unfold scaled
  rw [zpow_add₀ two_ne_zero, zpow_natCast]
  push_cast
  ring

theorem scaled_add (m m' : ℕ) (e : ℤ) : scaled (m + m') e = scaled m e + scaled m' e := by
  unfold scaled
  push_cast
  ring

/-- A number at a smaller exponent. -/
theorem scaled_shiftLeft (m : ℕ) {e f : ℤ} (hle : f ≤ e) :
    scaled (m <<< (e - f).toNat) f = scaled m e := by
  obtain ⟨n, hn⟩ := Int.eq_ofNat_of_zero_le (sub_nonneg.mpr hle)
  obtain rfl : e = f + n := by omega
  rw [show (f + (n : ℤ) - f).toNat = n by omega, Nat.shiftLeft_eq, scaled_add_nat]

theorem scaled_le_scaled_iff {m m' : ℕ} {e : ℤ} : scaled m e ≤ scaled m' e ↔ m ≤ m' := by
  unfold scaled
  rw [mul_le_mul_iff_left₀ (zpow_pos two_pos e), Nat.cast_le]

theorem scaled_inj {m m' : ℕ} {e : ℤ} : scaled m e = scaled m' e ↔ m = m' := by
  simp only [le_antisymm_iff, scaled_le_scaled_iff]

theorem scaled_mul (m m' : ℕ) (e e' : ℤ) : scaled m e * scaled m' e' = scaled (m * m') (e + e') := by
  unfold scaled
  rw [zpow_add₀ two_ne_zero]
  push_cast
  ring

theorem scaled_pos {m : ℕ} (hm : 0 < m) (e : ℤ) : 0 < scaled m e :=
  mul_pos (Nat.cast_pos.mpr hm) (zpow_pos two_pos e)

namespace IsCanonical

variable {m m' : ℕ} {e e' : ℤ} (h : IsCanonical m e) (h' : IsCanonical m' e')

include h h'

/-- The double with the greater exponent is greater: its mantissa is full. -/
theorem scaled_lt_of_lt (hlt : e < e') : scaled m e < scaled m' e' := by
  have hfull : 2 ^ 52 ≤ m' := h'.full.resolve_left (by have := h.exponent_ge; omega)
  have hlater : e + ((1 : ℕ) : ℤ) ≤ e' := by omega
  calc scaled m e < scaled (2 ^ 53) e := by
        rw [← not_le, scaled_le_scaled_iff, not_le]
        exact h.mantissa_lt
    _ = scaled (2 ^ 52) (e + (1 : ℕ)) := by
        rw [scaled_add_nat]
        rfl
    _ ≤ scaled (2 ^ 52) e' := by
        unfold scaled
        gcongr
        exact one_le_two
    _ ≤ scaled m' e' := scaled_le_scaled_iff.mpr hfull

theorem scaled_le_iff : scaled m e ≤ scaled m' e' ↔ e < e' ∨ e = e' ∧ m ≤ m' := by
  rcases lt_trichotomy e e' with hlt | rfl | hgt
  · simp [hlt, (h.scaled_lt_of_lt h' hlt).le]
  · simp [scaled_le_scaled_iff]
  · simp [hgt.not_gt, hgt.ne', h'.scaled_lt_of_lt h hgt]

end IsCanonical

/-! ## Rounding -/

/-- A double that a number can be rounded to: no other one lies between them. -/
structure IsRounded (q : ℚ) (m : ℕ) (e : ℤ) : Prop where
  canonical : IsCanonical m e
  ge : ∀ m' e', IsCanonical m' e' → scaled m' e' ≤ q → scaled m' e' ≤ scaled m e
  le : ∀ m' e', IsCanonical m' e' → q ≤ scaled m' e' → scaled m e ≤ scaled m' e'

section Rounding

variable {mantissa : ℕ} {exponent : ℤ} (hmantissa : 0 < mantissa) (hexponent : -1074 ≤ exponent)

include hmantissa hexponent

/-- A number is rounded that is cut off to a mantissa, if it is known whether anything was lost. -/
theorem exists_isRounded_roundWithAccuracy (sign : Sign) {accuracy : Accuracy} {q : ℚ}
    (htarget : exponent ≤ targetOf mantissa exponent) (hlow : scaled mantissa exponent ≤ q)
    (hhigh : q < scaled (mantissa + 1) exponent)
    (hexact : q = scaled mantissa exponent → accuracy = .exact) :
    ∃ m e hm, UnpackedFloat.roundWithAccuracy Format.binary64 sign mantissa exponent accuracy =
      .finite sign m e hm ∧ IsRounded q m e := by
  obtain ⟨m, e, hm, hround, hcanonical, hge, hle⟩ :=
    exists_roundWithAccuracy_eq sign accuracy hmantissa hexponent htarget
  have hshifted := isCanonical_shifted hmantissa hexponent htarget
  obtain ⟨n, hn⟩ := Int.eq_ofNat_of_zero_le (sub_nonneg.mpr htarget)
  obtain hsame : targetOf mantissa exponent = exponent + n := by omega
  rw [hsame] at hshifted hle
  rw [show (exponent + (n : ℤ) - exponent).toNat = n by omega] at hshifted hle
  have hcut : mantissa / 2 ^ n * 2 ^ n ≤ mantissa := Nat.div_mul_le_self _ _
  refine ⟨m, e, hm, hround, hcanonical, fun m' e' h' hq => ?_, fun m' e' h' hq => ?_⟩
  · rw [h'.scaled_le_iff hcanonical]
    rcases lt_or_ge e' exponent with hbefore | hfrom
    · have hreached := hge _ _ hshifted (by omega) (by
        rwa [show (exponent + (n : ℤ) - exponent).toNat = n by omega])
      omega
    · obtain ⟨k, hk⟩ := Int.eq_ofNat_of_zero_le (sub_nonneg.mpr hfrom)
      obtain rfl : e' = exponent + k := by omega
      refine hge m' _ h' hfrom ?_
      rw [show (exponent + (k : ℤ) - exponent).toNat = k by omega]
      have hlt := hq.trans_lt hhigh
      rw [scaled_add_nat, ← not_le, scaled_le_scaled_iff, not_le] at hlt
      exact Nat.le_of_lt_succ hlt
  · rw [hcanonical.scaled_le_iff h']
    have hcutLe : scaled (mantissa / 2 ^ n) (exponent + n) ≤ scaled mantissa exponent := by
      rwa [scaled_add_nat, scaled_le_scaled_iff]
    have hreached := (hshifted.scaled_le_iff h').mp ((hcutLe.trans hlow).trans hq)
    refine hle m' e' h' (hreached.imp_right fun ⟨hexponents, hmantissas⟩ => ⟨hexponents, ?_⟩)
    rcases hmantissas.lt_or_eq with hless | heq
    · exact Or.inl hless
    · -- Between the shifted number and the double nothing is left.
      rw [← hexponents, ← heq] at hq
      have hkept := hcutLe.antisymm (hlow.trans hq)
      have hall := hlow.antisymm (hq.trans hcutLe)
      rw [scaled_add_nat, scaled_inj] at hkept
      exact Or.inr ⟨hexact hall.symm, by rw [← heq, hkept]⟩

theorem exists_isRounded_round (sign : Sign) :
    ∃ m e hm, UnpackedFloat.round Format.binary64 sign mantissa exponent = .finite sign m e hm ∧
      IsRounded (scaled mantissa exponent) m e := by
  have hvalue : targetOf mantissa exponent =
    max ((mantissa.log2 : ℤ) + 1 + exponent - 53) (-1074) := rfl
  generalize hn : (exponent - targetOf mantissa exponent).toNat = n
  have hround : UnpackedFloat.round Format.binary64 sign mantissa exponent =
      UnpackedFloat.roundWithAccuracy Format.binary64 sign (mantissa <<< n) (exponent - n) .exact := by
    rw [← hn]
    rfl
  have htarget := targetOf_shiftLeft hmantissa exponent n
  have hshifted : scaled (mantissa <<< n) (exponent - n) = scaled mantissa exponent := by
    rw [Nat.shiftLeft_eq, ← scaled_add_nat, sub_add_cancel]
  have hpos : 0 < mantissa <<< n := by
    rw [Nat.shiftLeft_eq]
    exact Nat.mul_pos hmantissa (Nat.two_pow_pos n)
  have hlow : -1074 ≤ exponent - n := by omega
  rw [hround, ← hshifted]
  refine exists_isRounded_roundWithAccuracy hpos hlow sign (by omega) le_rfl ?_ fun _ => rfl
  rw [← not_le, scaled_le_scaled_iff, not_le]
  exact Nat.lt_succ_self _

end Rounding

/-! ## Quotients -/

/-- A double with a full mantissa over one whose exponent is not much greater. -/
theorem exists_isRounded_div {m m' : ℕ} {e e' : ℤ} (hm : 0 < m) (hm' : 0 < m') (hfull : 2 ^ 52 ≤ m)
    (h : IsCanonical m e) (h' : IsCanonical m' e') (hexponents : -1073 ≤ e - e') :
    ∃ n f hn, UnpackedFloat.div Format.binary64 (.finite .positive m e hm)
        (.finite .positive m' e' hm') = .finite .positive n f hn ∧
      IsRounded (scaled m e / scaled m' e') n f := by
  have hlog : m.log2 = 52 :=
    (Nat.log2_eq_iff hm.ne').mpr ⟨hfull, h.mantissa_lt⟩
  have hlog' : m'.log2 < 53 := (Nat.log2_lt hm'.ne').mpr h'.mantissa_lt
  obtain ⟨t, ht⟩ : ∃ t, t = min (e - e')
      (max ((m.log2 : ℤ) + 1 + e - ((m'.log2 : ℤ) + 1 + e') - 53) (-1074)) := ⟨_, rfl⟩
  obtain ⟨k, hk⟩ : ∃ k : ℕ, e - e' - t = k := Int.eq_ofNat_of_zero_le (by omega)
  have hdiv : UnpackedFloat.div Format.binary64 (.finite .positive m e hm)
      (.finite .positive m' e' hm') =
      UnpackedFloat.roundWithAccuracy Format.binary64 .positive (m <<< (e - e' - t).toNat / m') t
        (UnpackedFloat.accuracyOfFraction (m <<< (e - e' - t).toNat % m') m') := by
    rw [ht]
    rfl
  rw [show (e - e' - t).toNat = k by omega, Nat.shiftLeft_eq] at hdiv
  -- The quotient is cut off at a unit that leaves it many digits.
  have hbits : 2 ^ (m.log2 + k - m'.log2 - 1) ≤ m * 2 ^ k / m' := by
    rw [Nat.le_div_iff_mul_le hm']
    calc 2 ^ (m.log2 + k - m'.log2 - 1) * m' ≤ 2 ^ (m.log2 + k - m'.log2 - 1) * 2 ^ (m'.log2 + 1) :=
          Nat.mul_le_mul_left _ Nat.lt_log2_self.le
      _ = 2 ^ m.log2 * 2 ^ k := by
          rw [← Nat.pow_add, ← Nat.pow_add]
          congr 1
          omega
      _ ≤ m * 2 ^ k := Nat.mul_le_mul_right _ (Nat.log2_self_le hm.ne')
  have hpos : 0 < m * 2 ^ k / m' := (Nat.two_pow_pos _).trans_le hbits
  have hlong := (Nat.le_log2 hpos.ne').mpr hbits
  have htarget : targetOf (m * 2 ^ k / m') t =
    max (((m * 2 ^ k / m').log2 : ℤ) + 1 + t - 53) (-1074) := rfl
  have hdividend : scaled m e = scaled (m * 2 ^ k) (t + e') := by
    rw [← scaled_add_nat]
    congr 1
    omega
  rw [hdiv, hdividend]
  refine exists_isRounded_roundWithAccuracy hpos (by omega) .positive (by omega) ?_ ?_ ?_
  · rw [le_div_iff₀ (scaled_pos hm' e'), scaled_mul, scaled_le_scaled_iff]
    exact Nat.div_mul_le_self _ _
  · rw [div_lt_iff₀ (scaled_pos hm' e'), scaled_mul, ← not_le, scaled_le_scaled_iff, not_le]
    exact (Nat.div_lt_iff_lt_mul hm').mp (Nat.lt_succ_self _)
  · intro heq
    rw [div_eq_iff (scaled_pos hm' e').ne', scaled_mul, scaled_inj] at heq
    have hrest : m * 2 ^ k % m' = 0 := by
      rw [heq]
      exact Nat.mul_mod_left _ _
    rw [hrest]
    rfl

end PlayDiagram
