import Mathlib
import PlayDiagram.Proofs.Number.DoubleSum

/-!
# Bounds of doubles

Rounding passes no double.  So a sum of two doubles is at most what their bounds add up to, if that is a
double (`IsAtMost.add`), and so is a quotient of a word (`isAtMost_word_div`): it does not become infinite.
-/

namespace PlayDiagram

open Float.Model (Format UnpackedFloat)
open Float.Model.UnpackedFloat (Sign unpack pack)

/-- The number that a double stands for, and zero for an infinity or what is no number. -/
def exactValue (x : Float) : ℚ :=
  match x.toModel.unpack with
  | .finite .positive mantissa exponent _ => scaled mantissa exponent
  | .finite .negative mantissa exponent _ => -scaled mantissa exponent
  | .zero _ | .infinity _ | .notANumber => 0

/-- Finite, not negative, and not above a bound. -/
def IsAtMost (bound : ℚ) : UnpackedFloat → Prop
  | .zero _ => 0 ≤ bound
  | .finite .positive mantissa exponent _ => scaled mantissa exponent ≤ bound
  | .finite .negative _ _ _ | .infinity _ | .notANumber => False

/-- A positive number that a double stands for. -/
def IsRepresentable (q : ℚ) : Prop :=
  ∃ m e, IsCanonical m e ∧ e < 972 ∧ q = scaled m e

section Bounds

variable {u v : UnpackedFloat} {bound bound' : ℚ}

theorem IsAtMost.cases (hu : IsAtMost bound u) :
    (∃ sign, u = .zero sign ∧ 0 ≤ bound) ∨
      ∃ m e hm, u = .finite .positive m e hm ∧ scaled m e ≤ bound := by
  rcases u with _ | _ | sign | ⟨_ | _, m, e, hm⟩
  case zero => exact Or.inl ⟨sign, rfl, hu⟩
  case finite.positive => exact Or.inr ⟨m, e, hm, rfl, hu⟩
  all_goals exact hu.elim

theorem IsAtMost.bound_nonneg (hu : IsAtMost bound u) : 0 ≤ bound := by
  obtain ⟨_, -, hle⟩ | ⟨m, e, hm, -, hle⟩ := hu.cases
  · exact hle
  · exact (scaled_pos hm e).le.trans hle

theorem IsAtMost.mono (hu : IsAtMost bound u) (hle : bound ≤ bound') : IsAtMost bound' u := by
  obtain ⟨_, rfl, hzero⟩ | ⟨m, e, hm, rfl, hvalue⟩ := hu.cases
  · exact hzero.trans hle
  · exact hvalue.trans hle

theorem IsAtMost.isFinite {x : Float} (hx : IsAtMost bound x.toModel.unpack) :
    x.isFinite = true := by
  show x.toModel.unpack.isFinite = true
  obtain ⟨_, hvalue, -⟩ | ⟨m, e, hm, hvalue, -⟩ := hx.cases <;> rw [hvalue] <;> rfl

/-- What is rounded to a double that is in bounds stays so when it is packed into bits. -/
theorem IsRounded.isAtMost {q : ℚ} {m : ℕ} {e : ℤ} (h : IsRounded q m e) (hm : 0 < m) (hle : q ≤ bound)
    (hbound : IsRepresentable bound) :
    IsAtMost bound (unpack Format.binary64 (pack Format.binary64 (.finite .positive m e hm))) := by
  obtain ⟨m', e', h', he', rfl⟩ := hbound
  have hrounded := h.le m' e' h' hle
  have hexponents := (h.canonical.scaled_le_iff h').mp hrounded
  rw [unpack_pack_finite .positive hm h.canonical, if_pos (by omega)]
  exact hrounded

/-- A sum of doubles in bounds is at most the sum of the bounds, if that is a double. -/
theorem IsAtMost.add (hu : IsAtMost bound u) (hv : IsAtMost bound' v)
    (hu' : unpack Format.binary64 (pack Format.binary64 u) = u)
    (hv' : unpack Format.binary64 (pack Format.binary64 v) = v)
    (hbounds : IsRepresentable (bound + bound')) :
    IsAtMost (bound + bound') (unpack Format.binary64
      (pack Format.binary64 (UnpackedFloat.add Format.binary64 u v))) := by
  have hu₀ := hu.bound_nonneg
  have hv₀ := hv.bound_nonneg
  obtain ⟨sign, rfl, -⟩ | ⟨m, e, hm, rfl, hle⟩ := hu.cases <;>
    obtain ⟨sign', rfl, -⟩ | ⟨m', e', hm', rfl, hle'⟩ := hv.cases
  · cases sign <;> cases sign' <;> exact add_nonneg hu₀ hv₀
  · exact hv'.symm ▸ hv.mono (le_add_of_nonneg_left hu₀)
  · exact hu'.symm ▸ hu.mono (le_add_of_nonneg_right hv₀)
  · obtain ⟨n, f, hn, hadd, hrounded⟩ :=
      exists_isRounded_add hm hm' (isCanonical_unpack hu') (isCanonical_unpack hv')
    rw [hadd]
    exact hrounded.isAtMost hn (add_le_add hle hle') hbounds

end Bounds

/-- What lies between zero and a finite double is finite. -/
theorem float_isFinite_of_between {x y : Float} (hx : 0 ≤ x) (hxy : x ≤ y) (hy : y.isFinite = true) :
    x.isFinite = true := by
  rw [float_nonneg_iff] at hx
  have hplace := ((float_le_iff x y).mp hxy).2.2
  replace hy : y.toModel.unpack.isFinite = true := hy
  show x.toModel.unpack.isFinite = true
  generalize x.toModel.unpack = u at hx hplace ⊢
  generalize y.toModel.unpack = v at hplace hy
  rcases u with (_ | _) | _ | _ | ⟨_ | _, m, e, hm⟩
  case infinity.positive =>
    rcases v with (_ | _) | _ | _ | ⟨_ | _, m', e', hm'⟩ <;>
      simp_all [UnpackedFloat.isFinite, place, Prod.Lex.toLex_le_toLex]
  case zero | finite.positive => rfl
  all_goals exact hx.elim

/-- An infinite time after any other is infinite. -/
theorem float_add_infinity {x y : Float} (hx : 0 ≤ x) (hy : y.toModel.unpack = .infinity .positive) :
    (x + y).toModel.unpack = .infinity .positive := by
  rw [float_nonneg_iff] at hx
  show unpack Format.binary64 (pack Format.binary64
    (UnpackedFloat.add Format.binary64 x.toModel.unpack y.toModel.unpack)) = _
  rw [hy]
  generalize x.toModel.unpack = u at hx ⊢
  rcases u with (_ | _) | _ | _ | ⟨_ | _, m, e, hm⟩
  case infinity.positive | zero | finite.positive => exact unpack_packedInfinity .positive
  all_goals exact hx.elim

/-! ## Words -/

/-- A number of at most 53 bits times a power of two, unless it is beyond the greatest double. -/
theorem isRepresentable_mul_two_zpow {k : ℕ} {p : ℤ} (hpos : 0 < k) (hbits : k < 2 ^ 53)
    (hlow : -1022 ≤ p) (hhigh : p + k.log2 < 1024) : IsRepresentable (k * 2 ^ p) := by
  have hlog : k.log2 < 53 := (Nat.log2_lt hpos.ne').mpr hbits
  obtain ⟨n, hn⟩ := Nat.exists_eq_add_of_le (Nat.le_of_lt_succ hlog)
  have hfull : 2 ^ 52 ≤ k * 2 ^ n := by
    rw [hn, Nat.pow_add]
    exact Nat.mul_le_mul_right _ (Nat.log2_self_le hpos.ne')
  have hlt : k * 2 ^ n < 2 ^ 53 := by
    calc k * 2 ^ n < 2 ^ (k.log2 + 1) * 2 ^ n :=
          Nat.mul_lt_mul_of_pos_right Nat.lt_log2_self (Nat.two_pow_pos n)
      _ = 2 ^ 53 := by
          rw [← Nat.pow_add]
          congr 1
          omega
  refine ⟨k * 2 ^ n, p - n, ⟨(Nat.two_pow_pos 52).trans_le hfull, hlt, by omega, Or.inr hfull⟩,
    by omega, ?_⟩
  rw [← scaled_add_nat, sub_add_cancel]
  rfl

/-- A representable number is rounded to itself. -/
theorem IsRepresentable.scaled_eq {q : ℚ} (hq : IsRepresentable q) {m : ℕ} {e : ℤ}
    (hrounded : IsRounded q m e) : scaled m e = q := by
  obtain ⟨m', e', h', -, rfl⟩ := hq
  exact (hrounded.le m' e' h' le_rfl).antisymm (hrounded.ge m' e' h' le_rfl)

/-- A word other than zero is a double with a full mantissa. -/
theorem exists_toFloat_eq {n : UInt32} (hn : n ≠ 0) :
    ∃ m e hm, n.toFloat.toModel.unpack = .finite .positive m e hm ∧ IsCanonical m e ∧
      2 ^ 52 ≤ m ∧ -52 ≤ e ∧ scaled m e = n.toNat := by
  have hpos : 0 < n.toNat := Nat.pos_of_ne_zero fun h => hn (UInt32.toNat_inj.mp h)
  have hlog : n.toNat.log2 < 32 := (Nat.log2_lt hpos.ne').mpr n.toNat_lt
  have hlt : n.toNat < 2 ^ 53 := n.toNat_lt.trans (by decide)
  obtain ⟨m, e, hm, hround, hrounded⟩ :=
    @exists_isRounded_round n.toNat 0 hpos (by decide) .positive
  have hzero : scaled n.toNat 0 = n.toNat * 2 ^ (0 : ℤ) := rfl
  have hone : IsCanonical (2 ^ 52) (-52) := ⟨by decide, by decide, by decide, Or.inr le_rfl⟩
  have hgreatest : IsCanonical (2 ^ 52) (-20) := ⟨by decide, by decide, by decide, Or.inr le_rfl⟩
  have hvalue : scaled m e = n.toNat := by
    rw [(isRepresentable_mul_two_zpow hpos hlt (by decide) (by omega)).scaled_eq (hzero ▸ hrounded),
      zpow_zero, mul_one]
  have hlow : scaled (2 ^ 52) (-52) ≤ scaled m e := by
    have hword : (1 : ℚ) ≤ n.toNat := by exact_mod_cast hpos
    rw [hvalue, show scaled (2 ^ 52) (-52) = 1 by norm_num [scaled]]
    exact hword
  have hhigh : scaled m e ≤ scaled (2 ^ 52) (-20) := by
    have hword : (n.toNat : ℚ) ≤ 2 ^ 32 := by exact_mod_cast n.toNat_lt.le
    rw [hvalue, show scaled (2 ^ 52) (-20) = 2 ^ 32 by norm_num [scaled]]
    exact hword
  rw [hone.scaled_le_iff hrounded.canonical] at hlow
  rw [hrounded.canonical.scaled_le_iff hgreatest] at hhigh
  have hofNat : UnpackedFloat.ofNat Format.binary64 n.toNat =
      UnpackedFloat.round Format.binary64 .positive n.toNat 0 := by
    have hcompare : compare (n.toNat : ℤ) 0 = .gt := by
      rw [compare_gt_iff_gt]
      omega
    rw [UnpackedFloat.ofNat, UnpackedFloat.ofInt, UnpackedFloat.normalize, hcompare]
    rfl
  have hunpack : n.toFloat.toModel.unpack = .finite .positive m e hm := by
    show unpack Format.binary64 (pack Format.binary64 (.ofNat Format.binary64 n.toNat)) = _
    rw [hofNat, hround, unpack_pack_finite .positive hm hrounded.canonical, if_pos (by omega)]
  have hfull : 2 ^ 52 ≤ m := hrounded.canonical.full.resolve_left (by omega)
  exact ⟨m, e, hm, hunpack, hrounded.canonical, hfull, by omega, hvalue⟩

/-- A positive finite double is a mantissa at an exponent that is not too great. -/
theorem exists_exactValue_eq {x : Float} (hfinite : x.isFinite = true) (hpositive : 0 < x) :
    ∃ m e hm, x.toModel.unpack = .finite .positive m e hm ∧ IsCanonical m e ∧ e < 972 ∧
      exactValue x = scaled m e := by
  obtain ⟨m, e, hm, hx⟩ := exists_finite_of_positive (u := x.toModel.unpack) hfinite
    ((float_lt_iff_place 0 x).mp hpositive).2.2
  have hsmall : HasSmallExponent x.toModel.unpack := isFinite_unpack_iff.mp hfinite
  rw [hx] at hsmall
  refine ⟨m, e, hm, hx, isCanonical_unpack hx, hsmall, ?_⟩
  unfold exactValue
  rw [hx]

theorem exactValue_pos {x : Float} (hfinite : x.isFinite = true) (hpositive : 0 < x) :
    0 < exactValue x := by
  obtain ⟨m, e, hm, -, -, -, hvalue⟩ := exists_exactValue_eq hfinite hpositive
  rw [hvalue]
  exact scaled_pos hm e

/-- A word other than zero over a positive double is rounded. -/
theorem exists_isRounded_word_div {n : UInt32} (hn : n ≠ 0) {x : Float} (hfinite : x.isFinite = true)
    (hpositive : 0 < x) :
    ∃ m e hm, (n.toFloat / x).toModel.unpack =
        unpack Format.binary64 (pack Format.binary64 (.finite .positive m e hm)) ∧
      IsRounded (n.toNat / exactValue x) m e := by
  obtain ⟨m, e, hm, hword, hcanonical, hfull, he, hvalue⟩ := exists_toFloat_eq hn
  obtain ⟨m', e', hm', hx, hx', he', hvalue'⟩ := exists_exactValue_eq hfinite hpositive
  obtain ⟨k, f, hk, hdiv, hrounded⟩ :=
    exists_isRounded_div hm hm' hfull hcanonical hx' (by omega)
  refine ⟨k, f, hk, ?_, ?_⟩
  · show unpack Format.binary64 (pack Format.binary64
      (UnpackedFloat.div Format.binary64 n.toFloat.toModel.unpack x.toModel.unpack)) = _
    rw [hword, hx, hdiv]
  · rwa [← hvalue, hvalue']

theorem toFloat_zero_div {x : Float} (hfinite : x.isFinite = true) (hpositive : 0 < x) :
    ((0 : UInt32).toFloat / x).toModel.unpack = .zero .positive := by
  obtain ⟨m, e, hm, hx, -⟩ := exists_exactValue_eq hfinite hpositive
  have hzero : (0 : UInt32).toFloat.toModel.unpack = .zero .positive := rfl
  show unpack Format.binary64 (pack Format.binary64
    (UnpackedFloat.div Format.binary64 (0 : UInt32).toFloat.toModel.unpack x.toModel.unpack)) = _
  rw [hx, hzero]
  exact UnpackedFloat.unpack_packedZero

/-- A word over a positive double is at most any double that the exact quotient does not pass. -/
theorem isAtMost_word_div (n : UInt32) {x : Float} {bound : ℚ} (hfinite : x.isFinite = true)
    (hpositive : 0 < x) (hbound : IsRepresentable bound) (hle : n.toNat / exactValue x ≤ bound) :
    IsAtMost bound (n.toFloat / x).toModel.unpack := by
  by_cases hn : n = 0
  · subst hn
    rw [toFloat_zero_div hfinite hpositive]
    exact (div_nonneg (Nat.cast_nonneg _) (exactValue_pos hfinite hpositive).le).trans hle
  · obtain ⟨m, e, hm, hdiv, hrounded⟩ := exists_isRounded_word_div hn hfinite hpositive
    rw [hdiv]
    exact hrounded.isAtMost hm hle hbound

/-- A word over a positive double is infinite if the exact quotient passes all doubles. -/
theorem word_div_eq_infinity {n : UInt32} {x : Float} (hfinite : x.isFinite = true)
    (hpositive : 0 < x) (hle : 2 ^ 1024 ≤ n.toNat / exactValue x) :
    (n.toFloat / x).toModel.unpack = .infinity .positive := by
  have hn : n ≠ 0 := by
    rintro rfl
    rw [UInt32.toNat_zero, Nat.cast_zero, zero_div] at hle
    exact hle.not_gt (pow_pos two_pos 1024)
  obtain ⟨m, e, hm, hdiv, hrounded⟩ := exists_isRounded_word_div hn hfinite hpositive
  have hbeyond : IsCanonical (2 ^ 52) 972 := ⟨by decide, by decide, by decide, Or.inr le_rfl⟩
  have hreached : scaled (2 ^ 52) 972 ≤ scaled m e := by
    refine hrounded.ge _ _ hbeyond (le_trans (le_of_eq ?_) hle)
    rw [scaled, Nat.cast_pow, zpow_ofNat]
    exact (pow_add 2 52 972).symm
  rw [hbeyond.scaled_le_iff hrounded.canonical] at hreached
  rw [hdiv, unpack_pack_finite .positive hm hrounded.canonical, if_neg (by omega)]

end PlayDiagram
