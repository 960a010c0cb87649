import Mathlib.Algebra.Order.Ring.Nat
import PlayDiagram.Proofs.Number.FiniteDouble

/-!
# Rounding keeps the order

The mantissa of a double has at most 53 bits, and exactly 53 unless the exponent is the least there is
(`IsCanonical`).  What is rounded to a double is shifted until its mantissa has that many bits.  So a
number that is not less than a double is not rounded to a lesser one, and the other way round
(`exists_roundWithAccuracy_eq`).
-/

namespace PlayDiagram

open Float.Model (Format UnpackedFloat totalExponent)
open Float.Model.UnpackedFloat (Sign Accuracy ExtendedMantissa shiftToTargetExponent
  roundWithAccuracy decreaseExponent)

/-- Mantissas and exponents of doubles other than zero. -/
structure IsCanonical (mantissa : ℕ) (exponent : ℤ) : Prop where
  pos : 0 < mantissa
  mantissa_lt : mantissa < 2 ^ 53
  exponent_ge : -1074 ≤ exponent
  full : exponent = -1074 ∨ 2 ^ 52 ≤ mantissa

/-! ## Shifts -/

theorem le_roundedMantissa (em : ExtendedMantissa) : em.mantissa ≤ em.roundedMantissa := by
  obtain ⟨mantissa, roundBit, stickyBit⟩ := em
  cases roundBit <;> cases stickyBit <;>
    simp only [ExtendedMantissa.roundedMantissa, ExtendedMantissa.accuracy,
      Accuracy.roundToNearestEven] <;> omega

section Shift

theorem shiftToTargetExponent_exponent (mantissa : ℕ) (exponent : ℤ) (accuracy : Accuracy) :
    (shiftToTargetExponent Format.binary64 mantissa exponent accuracy).2 =
      exponent + ((targetOf mantissa exponent - exponent).toNat : ℤ) :=
  rfl

variable {mantissa : ℕ} {exponent : ℤ}

theorem targetOf_shiftLeft (hmantissa : 0 < mantissa) (exponent : ℤ) (n : ℕ) :
    targetOf (mantissa <<< n) (exponent - n) = targetOf mantissa exponent := by
  have hlog : (mantissa <<< n).log2 = mantissa.log2 + n := by
    have hne : mantissa <<< n ≠ 0 := by
      rw [Nat.shiftLeft_eq]
      exact (Nat.mul_pos hmantissa (Nat.two_pow_pos n)).ne'
    rw [Nat.log2_eq_iff hne, Nat.shiftLeft_eq, Nat.pow_add,
      Nat.mul_le_mul_right_iff (Nat.two_pow_pos n), Nat.add_right_comm, Nat.pow_add,
      Nat.mul_lt_mul_right (Nat.two_pow_pos n)]
    exact ⟨Nat.log2_self_le hmantissa.ne', Nat.lt_log2_self⟩
  unfold targetOf
  rw [hlog]
  omega

/-- A number whose exponent is not too great is shifted to the mantissa of a double. -/
theorem isCanonical_shifted (hmantissa : 0 < mantissa) (hexponent : -1074 ≤ exponent)
    (htarget : exponent ≤ targetOf mantissa exponent) :
    IsCanonical (mantissa / 2 ^ (targetOf mantissa exponent - exponent).toNat)
      (targetOf mantissa exponent) := by
  have hlow := Nat.log2_self_le hmantissa.ne'
  have hhigh := Nat.lt_log2_self (n := mantissa)
  have hvalue : targetOf mantissa exponent =
    max ((mantissa.log2 : ℤ) + 1 + exponent - 53) (-1074) := rfl
  generalize hshift : (targetOf mantissa exponent - exponent).toNat = n
  have hlt : mantissa / 2 ^ n < 2 ^ 53 := by
    rw [Nat.div_lt_iff_lt_mul (Nat.two_pow_pos n), ← Nat.pow_add]
    exact hhigh.trans_le (Nat.pow_le_pow_right (by decide) (by omega))
  by_cases hleast : targetOf mantissa exponent = -1074
  · -- Nothing is shifted: the exponent was the least one already.
    have hn : n = 0 := by omega
    subst hn
    rw [Nat.pow_zero, Nat.div_one] at hlt ⊢
    exact ⟨hmantissa, hlt, hleast.ge, Or.inl hleast⟩
  · have hfull : 2 ^ 52 ≤ mantissa / 2 ^ n := by
      rw [Nat.le_div_iff_mul_le (Nat.two_pow_pos n), ← Nat.pow_add]
      exact (Nat.pow_le_pow_right (by decide) (by omega)).trans hlow
    exact ⟨(Nat.two_pow_pos 52).trans_le hfull, hlt, by omega, Or.inr hfull⟩

/-- A double is not shifted beyond a number that is not less. -/
theorem IsCanonical.le_shifted {m : ℕ} {e : ℤ} (h : IsCanonical m e) (hexponent : exponent ≤ e)
    (hle : m * 2 ^ (e - exponent).toNat ≤ mantissa) :
    e < targetOf mantissa exponent ∨ e = targetOf mantissa exponent ∧
      m ≤ mantissa / 2 ^ (targetOf mantissa exponent - exponent).toNat := by
  have hvalue : targetOf mantissa exponent =
    max ((mantissa.log2 : ℤ) + 1 + exponent - 53) (-1074) := rfl
  have htarget : e ≤ targetOf mantissa exponent := by
    rcases h.full with hleast | hfull
    · omega
    · have hpow : 2 ^ (52 + (e - exponent).toNat) ≤ mantissa := by
        rw [Nat.pow_add]
        exact (Nat.mul_le_mul_right _ hfull).trans hle
      have hne : mantissa ≠ 0 := ((Nat.two_pow_pos _).trans_le hpow).ne'
      have hlog := (Nat.le_log2 hne).mpr hpow
      omega
  rcases htarget.lt_or_eq with hlt | heq
  · exact Or.inl hlt
  · refine Or.inr ⟨heq, ?_⟩
    rw [← heq, Nat.le_div_iff_mul_le (Nat.two_pow_pos _)]
    exact hle

end Shift

/-! ## Rounding -/

/-- Rounding up may add a bit to the mantissa, and the second shift takes it away.  Either way the double
does not become less, nor does it pass another one. -/
theorem isCanonical_of_rounded {q r : ℕ} {e : ℤ} (h : IsCanonical q e) (hlow : q ≤ r)
    (hhigh : r ≤ q + 1) :
    IsCanonical (r / 2 ^ (targetOf r e - e).toNat) (e + ((targetOf r e - e).toNat : ℤ)) ∧
      (e < e + ((targetOf r e - e).toNat : ℤ) ∨
        e = e + ((targetOf r e - e).toNat : ℤ) ∧ q ≤ r / 2 ^ (targetOf r e - e).toNat) ∧
      ∀ m' e', IsCanonical m' e' → (e < e' ∨ e = e' ∧ r ≤ m') →
        e + ((targetOf r e - e).toNat : ℤ) < e' ∨ e + ((targetOf r e - e).toNat : ℤ) = e' ∧
          r / 2 ^ (targetOf r e - e).toNat ≤ m' := by
  have hpos := h.pos
  have hlt := h.mantissa_lt
  have hexponent := h.exponent_ge
  have hvalue : targetOf r e = max ((r.log2 : ℤ) + 1 + e - 53) (-1074) := rfl
  by_cases hroom : r < 2 ^ 53
  · have hlog := (Nat.log2_lt (hpos.trans_le hlow).ne').mpr hroom
    have hshift : (targetOf r e - e).toNat = 0 := by omega
    rw [hshift, Nat.pow_zero, Nat.div_one]
    refine ⟨⟨hpos.trans_le hlow, hroom, by omega, ?_⟩, Or.inr ⟨by omega, hlow⟩, ?_⟩
    · exact h.full.imp (fun hleast => by omega) fun hfull => hfull.trans hlow
    · intro m' e' _ hnotLess
      omega
  · obtain rfl : r = 2 ^ 53 := by omega
    rw [Nat.log2_two_pow] at hvalue
    have hshift : (targetOf (2 ^ 53) e - e).toNat = 1 := by omega
    rw [hshift]
    refine ⟨⟨by decide, by decide, by omega, Or.inr (by decide)⟩, Or.inl (by omega), ?_⟩
    intro m' e' h' hnotLess
    have hlt' := h'.mantissa_lt
    rcases h'.full with hleast | hfull <;> omega

/-- Nothing is rounded where nothing was lost. -/
theorem exact_shiftRight (m n : ℕ) :
    ExtendedMantissa.ofMantissaAndAccuracy (m * 2 ^ n) .exact >>> n = ⟨m, false, false⟩ := by
  show n.repeat ExtendedMantissa.shiftRightOne ⟨m * 2 ^ n, false, false⟩ = _
  induction n generalizing m with
  | zero => simp [Nat.repeat]
  | succ n ih =>
      have hdouble : m * 2 ^ (n + 1) = 2 * m * 2 ^ n := by
        rw [Nat.pow_succ, Nat.mul_comm 2 m, Nat.mul_assoc, Nat.mul_comm 2]
      show ExtendedMantissa.shiftRightOne (n.repeat ExtendedMantissa.shiftRightOne _) = _
      rw [hdouble, ih]
      simp [ExtendedMantissa.shiftRightOne]

/-- The two shifts of rounding, from an exponent that is not too great.  The result is not less than a
double that the number is not less than, and not greater than a double that the shifted number does not
reach, or reaches without loss. -/
theorem exists_roundWithAccuracy_eq (sign : Sign) {mantissa : ℕ} {exponent : ℤ} (accuracy : Accuracy)
    (hmantissa : 0 < mantissa) (hexponent : -1074 ≤ exponent)
    (htarget : exponent ≤ targetOf mantissa exponent) :
    ∃ m e hm, roundWithAccuracy Format.binary64 sign mantissa exponent accuracy =
        .finite sign m e hm ∧ IsCanonical m e ∧
      (∀ m' e', IsCanonical m' e' → exponent ≤ e' → m' * 2 ^ (e' - exponent).toNat ≤ mantissa →
        e' < e ∨ e' = e ∧ m' ≤ m) ∧
      ∀ m' e', IsCanonical m' e' → (targetOf mantissa exponent < e' ∨
          targetOf mantissa exponent = e' ∧
            (mantissa / 2 ^ (targetOf mantissa exponent - exponent).toNat < m' ∨
              accuracy = .exact ∧
                mantissa = m' * 2 ^ (targetOf mantissa exponent - exponent).toNat)) →
        e < e' ∨ e = e' ∧ m ≤ m' := by
  have hshifted := isCanonical_shifted hmantissa hexponent htarget
  have hmantissa₁ := shiftToTargetExponent_mantissa mantissa exponent accuracy
  have hexponent₁ : (shiftToTargetExponent Format.binary64 mantissa exponent accuracy).2 =
      targetOf mantissa exponent := by
    rw [shiftToTargetExponent_exponent]
    omega
  have hexact : ∀ m', accuracy = .exact →
      mantissa = m' * 2 ^ (targetOf mantissa exponent - exponent).toNat →
      (shiftToTargetExponent Format.binary64 mantissa exponent accuracy).1 = ⟨m', false, false⟩ := by
    intro m' haccuracy heq
    subst haccuracy
    rw [← exact_shiftRight m' (targetOf mantissa exponent - exponent).toNat, ← heq]
    rfl
  unfold roundWithAccuracy
  generalize shiftToTargetExponent Format.binary64 mantissa exponent accuracy = first
    at hmantissa₁ hexponent₁ hexact ⊢
  obtain ⟨em, e₁⟩ := first
  dsimp only at hmantissa₁ hexponent₁ hexact
  have hlow := le_roundedMantissa em
  have hhigh := roundedMantissa_le em
  rw [hmantissa₁] at hlow hhigh
  rw [← hexponent₁] at hshifted hlow hhigh hexact
  obtain ⟨hcanonical, hle, hge⟩ := isCanonical_of_rounded hshifted hlow hhigh
  have hmantissa₂ := shiftToTargetExponent_mantissa em.roundedMantissa e₁ .exact
  have hpos := hcanonical.pos
  rw [← hmantissa₂] at hpos
  refine ⟨_, e₁ + ((targetOf em.roundedMantissa e₁ - e₁).toNat : ℤ), hpos, dif_neg hpos.ne', ?_, ?_,
    ?_⟩
  · rw [hmantissa₂]
    exact hcanonical
  · intro m' e' h' he' hle'
    have hreached := h'.le_shifted he' hle'
    rw [← hexponent₁] at hreached
    rw [hmantissa₂]
    omega
  · intro m' e' h' hnotReached
    rw [hmantissa₂]
    rw [← hexponent₁] at hnotReached
    refine hge m' e' h' ?_
    rcases hnotReached with hlater | ⟨hsame, hless | ⟨haccuracy, heq⟩⟩
    · exact Or.inl hlater
    · exact Or.inr ⟨hsame, by omega⟩
    · rw [hexact m' haccuracy heq]
      exact Or.inr ⟨hsame, le_rfl⟩

end PlayDiagram
