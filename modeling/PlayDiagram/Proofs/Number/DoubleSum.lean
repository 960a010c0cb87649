import Mathlib
import PlayDiagram.Proofs.Number.DoubleOrder
import PlayDiagram.Proofs.Number.LawfulScalar
import PlayDiagram.Proofs.Number.RoundedValue

/-!
# Sums of doubles that are not negative

A sum of two doubles that are not negative is rounded, or infinite, but it is never less than one of the
two (`float_le_add`).  A word over a positive double is not negative (`float_div_nonneg`).  So doubles keep
the laws of `LawfulScalar`.
-/

namespace PlayDiagram

open Float.Model (Format UnpackedFloat)
open Float.Model.UnpackedFloat (Sign unpack pack unpackExponent unpackMantissa packComponents
  packedInfinity)

/-! ## Packing -/

theorem toNat_implicit_append (v : BitVec 52) : (1#1 ++ v).toNat = 2 ^ 52 + v.toNat := by
  rw [BitVec.toNat_append, ← Nat.shiftLeft_add_eq_or_of_lt v.isLt]
  rfl

/-- What is unpacked has the mantissa and the exponent of a double. -/
theorem isCanonical_unpack {b : BitVec Format.binary64.numBits} {sign : Sign} {m : ℕ} {e : ℤ}
    {hm : 0 < m} (hunpack : unpack Format.binary64 b = .finite sign m e hm) : IsCanonical m e := by
  have hbias : (Format.binary64.exponentBias : ℤ) = 1023 := rfl
  have hmantissa : (unpackMantissa b).toNat < 2 ^ 52 := (unpackMantissa b).isLt
  unfold unpack at hunpack
  dsimp only at hunpack
  split at hunpack
  · split at hunpack <;> cases hunpack
  · split at hunpack
    · next hzero =>
      split at hunpack
      · cases hunpack
      · have hexponent : (((unpackExponent b).toNat : ℕ) : ℤ) = 0 := by
          rw [hzero]
          rfl
        cases hunpack
        exact ⟨hm, hmantissa.trans (by decide), by omega, Or.inl (by omega)⟩
    · next hnormal =>
      have hexponent : (unpackExponent b).toNat ≠ 0 := fun h => hnormal (BitVec.eq_of_toNat_eq h)
      have hfull := toNat_implicit_append (unpackMantissa b)
      cases hunpack
      exact ⟨hm, by omega, by omega, Or.inr (by omega)⟩

theorem unpack_packedInfinity (sign : Sign) :
    unpack Format.binary64 (packedInfinity Format.binary64 sign) = .infinity sign := by
  cases sign <;> rfl

/-- Bits with an exponent that is not the greatest one are those of a number, or of zero. -/
theorem unpack_packComponents (sign : Sign) {exponent : BitVec 11} (mantissa : BitVec 52)
    (hexponent : exponent ≠ -1#11) :
    unpack Format.binary64 (packComponents Format.binary64 sign exponent mantissa) =
      if exponent = 0#11 then
        if hzero : mantissa = 0#52 then .zero sign
        else .finite sign mantissa.toNat (-1074)
          (Nat.pos_of_ne_zero fun h => hzero (BitVec.eq_of_toNat_eq h))
      else .finite sign (2 ^ 52 + mantissa.toNat) ((exponent.toNat : ℤ) - 1075) (by omega) := by
  have hbias : (Format.binary64.exponentBias : ℤ) = 1023 := rfl
  unfold unpack
  simp only [UnpackedFloat.unpackExponent_packComponents,
    UnpackedFloat.unpackMantissa_packComponents, UnpackedFloat.unpackSign_packComponents,
    Sign.ofBitVec_toBitVec, if_neg hexponent, toNat_implicit_append, hbias]
  split
  · next hzero =>
    subst hzero
    rfl
  · rfl

/-- A double survives being packed into bits, unless its exponent is too great. -/
theorem unpack_pack_finite (sign : Sign) {m : ℕ} {e : ℤ} (hm : 0 < m) (h : IsCanonical m e) :
    unpack Format.binary64 (pack Format.binary64 (.finite sign m e hm)) =
      if e < 972 then .finite sign m e hm else .infinity sign := by
  have hbias : (Format.binary64.exponentBias : ℤ) = 1023 := rfl
  have hlow := h.exponent_ge
  have hlt := h.mantissa_lt
  unfold pack
  dsimp only
  generalize hbiased : (e + Format.binary64.exponentBias + (52 : ℕ)).toNat = biased
  by_cases hroom : e < 972
  · have hfits : ¬2 ^ 11 ≤ biased + 1 := by omega
    have hvalue : (BitVec.ofNat 11 biased).toNat = biased := by
      rw [BitVec.toNat_ofNat, Nat.mod_eq_of_lt (by omega)]
    have hmantissa : (BitVec.ofNat 52 m).toNat = m % 2 ^ 52 := BitVec.toNat_ofNat m 52
    rw [if_pos hroom, if_neg hfits]
    split
    · next hlog =>
      have hfull : 2 ^ 52 ≤ m := (Nat.le_log2 hm.ne').mp (Nat.succ_injective hlog).ge
      have hspecial : BitVec.ofNat 11 biased ≠ -1#11 := by
        intro heq
        rw [heq] at hvalue
        have hgreatest : (-1#11).toNat = 2047 := rfl
        omega
      have hnormal : BitVec.ofNat 11 biased ≠ 0#11 := by
        intro heq
        rw [heq] at hvalue
        have hleast : (0#11).toNat = 0 := rfl
        omega
      rw [unpack_packComponents sign _ hspecial, if_neg hnormal]
      simp only [UnpackedFloat.finite.injEq, true_and, hvalue, hmantissa]
      omega
    · next hlog =>
      have hsubnormal : m < 2 ^ 52 := by
        rw [← Nat.log2_lt hm.ne']
        have hshort := (Nat.log2_lt hm.ne').mpr hlt
        exact lt_of_le_of_ne (Nat.lt_succ_iff.mp hshort) fun heq => hlog (by rw [heq]; rfl)
      have hleast : e = -1074 := h.full.resolve_right (by omega)
      have hnonzero : BitVec.ofNat 52 m ≠ 0#52 := by
        intro heq
        rw [heq] at hmantissa
        have hzero : (0#52).toNat = 0 := rfl
        omega
      rw [unpack_packComponents sign _ (by decide), if_pos rfl, dif_neg hnonzero]
      simp only [UnpackedFloat.finite.injEq, true_and, hmantissa]
      omega
  · have hfits : 2 ^ 11 ≤ biased + 1 := by omega
    rw [if_neg hroom, if_pos hfits, unpack_packedInfinity]

/-! ## Doubles that are not negative -/

/-- Zero of either sign, or a positive number, or the positive infinity. -/
def IsNonneg : UnpackedFloat → Prop
  | .zero _ | .finite .positive _ _ _ | .infinity .positive => True
  | .finite .negative _ _ _ | .infinity .negative | .notANumber => False

theorem isNonneg_iff {u : UnpackedFloat} :
    IsNonneg u ↔ u.isNaN = false ∧ place (.zero .positive) ≤ place u := by
  rcases u with (_ | _) | _ | _ | ⟨_ | _, m, e, hm⟩ <;>
    simp [IsNonneg, UnpackedFloat.isNaN, place, Prod.Lex.toLex_le_toLex]

theorem float_nonneg_iff (x : Float) : 0 ≤ x ↔ IsNonneg x.toModel.unpack := by
  have hzero : (0 : Float).toModel.unpack = .zero .positive := rfl
  rw [float_le_iff, hzero, isNonneg_iff]
  exact and_iff_right rfl

theorem isNonneg_unpack_packComponents {exponent : BitVec 11} (mantissa : BitVec 52)
    (hexponent : exponent ≠ -1#11) :
    IsNonneg (unpack Format.binary64 (packComponents Format.binary64 .positive exponent mantissa)) := by
  rw [unpack_packComponents .positive mantissa hexponent]
  split
  · split <;> trivial
  · trivial

/-- Packing keeps what is not negative so. -/
theorem IsNonneg.pack {u : UnpackedFloat} (hu : IsNonneg u) :
    IsNonneg (unpack Format.binary64 (pack Format.binary64 u)) := by
  rcases u with (_ | _) | _ | _ | ⟨_ | _, m, e, hm⟩
  case infinity.positive =>
    rw [UnpackedFloat.pack, unpack_packedInfinity]
    trivial
  case zero =>
    rw [UnpackedFloat.pack, UnpackedFloat.unpack_packedZero]
    trivial
  case finite.positive =>
    unfold UnpackedFloat.pack
    dsimp only
    generalize hbiased : (e + Format.binary64.exponentBias + (52 : ℕ)).toNat = biased
    split
    · rw [unpack_packedInfinity]
      trivial
    · next hfits =>
      split
      · apply isNonneg_unpack_packComponents
        intro heq
        have hvalue := congrArg BitVec.toNat heq
        rw [BitVec.toNat_ofNat, Nat.mod_eq_of_lt (by omega)] at hvalue
        have hgreatest : (-1#11).toNat = 2047 := rfl
        omega
      · exact isNonneg_unpack_packComponents _ (by decide)
  all_goals exact hu.elim

/-! ## Sums -/

/-- A double survives being packed again. -/
theorem unpack_pack_toModel (x : Float) :
    unpack Format.binary64 (UnpackedFloat.pack Format.binary64 x.toModel.unpack) =
      x.toModel.unpack := by
  unfold Float.Model.unpack
  rw [UnpackedFloat.pack_unpack_of_valid x.toModel.valid]

/-- Positive numbers are added at the smaller exponent, and the sum is rounded. -/
theorem add_positive {m m' : ℕ} (hm : 0 < m) (hm' : 0 < m') (e e' : ℤ) :
    UnpackedFloat.add Format.binary64 (.finite .positive m e hm) (.finite .positive m' e' hm') =
      UnpackedFloat.round Format.binary64 .positive
        (m <<< (e - min e e').toNat + m' <<< (e' - min e e').toNat) (min e e') := by
  have hpos : 0 < m <<< (e - min e e').toNat := by
    rw [Nat.shiftLeft_eq]
    exact Nat.mul_pos hm (Nat.two_pow_pos _)
  show UnpackedFloat.normalize Format.binary64 (((m <<< (e - min e e').toNat : ℕ) : ℤ) +
    ((m' <<< (e' - min e e').toNat : ℕ) : ℤ)) (min e e') .positive = _
  generalize m <<< (e - min e e').toNat = shifted at hpos ⊢
  generalize m' <<< (e' - min e e').toNat = shifted'
  have hcompare : compare ((shifted : ℤ) + (shifted' : ℤ)) 0 = .gt := by
    rw [compare_gt_iff_gt]
    omega
  rw [UnpackedFloat.normalize, hcompare]
  rfl

/-- The sum of positive doubles is rounded. -/
theorem exists_isRounded_add {m m' : ℕ} {e e' : ℤ} (hm : 0 < m) (hm' : 0 < m')
    (h : IsCanonical m e) (h' : IsCanonical m' e') :
    ∃ n f hn, UnpackedFloat.add Format.binary64 (.finite .positive m e hm)
        (.finite .positive m' e' hm') = .finite .positive n f hn ∧
      IsRounded (scaled m e + scaled m' e') n f := by
  have hpos : 0 < m <<< (e - min e e').toNat + m' <<< (e' - min e e').toNat := by
    rw [Nat.shiftLeft_eq]
    exact Nat.add_pos_left (Nat.mul_pos hm (Nat.two_pow_pos _)) _
  rw [add_positive, ← scaled_shiftLeft m (min_le_left e e'), ← scaled_shiftLeft m' (min_le_right e e'),
    ← scaled_add]
  exact exists_isRounded_round hpos (le_min h.exponent_ge h'.exponent_ge) .positive

/-- The sum of positive doubles is not less than the first one. -/
theorem place_le_add_positive {m m' : ℕ} {e e' : ℤ} (hm : 0 < m) (hm' : 0 < m')
    (h : IsCanonical m e) (h' : IsCanonical m' e') :
    place (.finite .positive m e hm) ≤ place (unpack Format.binary64
      (UnpackedFloat.pack Format.binary64 (UnpackedFloat.add Format.binary64
        (.finite .positive m e hm) (.finite .positive m' e' hm')))) := by
  obtain ⟨n, f, hn, hadd, hrounded⟩ := exists_isRounded_add hm hm' h h'
  have hnotLess := (h.scaled_le_iff hrounded.canonical).mp
    (hrounded.ge m e h (le_add_of_nonneg_right (scaled_pos hm' e').le))
  rw [hadd, unpack_pack_finite .positive hn hrounded.canonical]
  split
  · refine Prod.Lex.toLex_le_toLex.mpr (Or.inr ⟨rfl, Prod.Lex.toLex_le_toLex.mpr ?_⟩)
    dsimp only
    omega
  · exact Prod.Lex.toLex_le_toLex.mpr (Or.inl one_lt_two)

/-- What is rounded keeps its sign. -/
theorem isNonneg_roundWithAccuracy (m : ℕ) (e : ℤ) (accuracy : UnpackedFloat.Accuracy) :
    IsNonneg (UnpackedFloat.roundWithAccuracy Format.binary64 .positive m e accuracy) := by
  unfold UnpackedFloat.roundWithAccuracy
  dsimp only
  split <;> trivial

section Nonneg

variable {u v : UnpackedFloat} (hu : IsNonneg u) (hv : IsNonneg v)

include hu hv

theorem IsNonneg.add : IsNonneg (UnpackedFloat.add Format.binary64 u v) := by
  rcases u with (_ | _) | _ | _ | ⟨_ | _, m, e, hm⟩ <;>
    rcases v with (_ | _) | _ | _ | ⟨_ | _, m', e', hm'⟩
  case finite.positive.finite.positive =>
    rw [add_positive]
    exact isNonneg_roundWithAccuracy _ _ _
  case zero.zero =>
    unfold UnpackedFloat.add
    dsimp only
    split <;> trivial
  all_goals trivial

theorem place_le_add (hu' : unpack Format.binary64 (pack Format.binary64 u) = u)
    (hv' : unpack Format.binary64 (pack Format.binary64 v) = v) :
    place u ≤ place (unpack Format.binary64
      (UnpackedFloat.pack Format.binary64 (UnpackedFloat.add Format.binary64 u v))) := by
  rcases u with (_ | _) | _ | _ | ⟨_ | _, m, e, hm⟩
  case zero => exact (isNonneg_iff.mp (IsNonneg.add hu hv).pack).2
  case infinity.positive =>
    rcases v with (_ | _) | _ | _ | ⟨_ | _, m', e', hm'⟩
    case infinity.negative | notANumber | finite.negative => exact hv.elim
    all_goals exact (congrArg place hu').ge
  case finite.positive =>
    rcases v with (_ | _) | _ | _ | ⟨_ | _, m', e', hm'⟩
    case infinity.negative | notANumber | finite.negative => exact hv.elim
    case zero => exact (congrArg place hu').ge
    case infinity.positive =>
      refine le_trans ?_ (congrArg place hv').ge
      exact Prod.Lex.toLex_le_toLex.mpr (Or.inl one_lt_two)
    case finite.positive =>
      exact place_le_add_positive hm hm' (isCanonical_unpack hu') (isCanonical_unpack hv')
  all_goals exact hu.elim

end Nonneg

/-- A sum of doubles that are not negative is not less than the first one. -/
theorem float_le_add {x y : Float} (hx : 0 ≤ x) (hy : 0 ≤ y) : x ≤ x + y := by
  rw [float_nonneg_iff] at hx hy
  refine (float_le_iff _ _).mpr ⟨(isNonneg_iff.mp hx).1, (isNonneg_iff.mp (hx.add hy).pack).1, ?_⟩
  exact place_le_add hx hy (unpack_pack_toModel x) (unpack_pack_toModel y)

/-! ## Quotients -/

theorem isNonneg_toFloat (n : UInt32) : IsNonneg n.toFloat.toModel.unpack := by
  have hinteger : IsNonneg (UnpackedFloat.ofNat Format.binary64 n.toNat) := by
    unfold UnpackedFloat.ofNat UnpackedFloat.ofInt UnpackedFloat.normalize
    split
    · next hnegative =>
      rw [compare_lt_iff_lt] at hnegative
      omega
    · trivial
    · exact isNonneg_roundWithAccuracy _ _ _
  exact hinteger.pack

/-- Over a positive number, what is not negative stays so. -/
theorem IsNonneg.div_positive {u : UnpackedFloat} (hu : IsNonneg u) {m : ℕ} {e : ℤ} (hm : 0 < m) :
    IsNonneg (UnpackedFloat.div Format.binary64 u (.finite .positive m e hm)) := by
  rcases u with (_ | _) | _ | _ | ⟨_ | _, m', e', hm'⟩
  case zero | infinity.positive => trivial
  case finite.positive => exact isNonneg_roundWithAccuracy _ _ _
  all_goals exact hu.elim

theorem exists_finite_of_positive {u : UnpackedFloat} (hfinite : u.isFinite = true)
    (hpositive : place (.zero .positive) < place u) :
    ∃ m e hm, u = .finite .positive m e hm := by
  rcases u with (_ | _) | _ | _ | ⟨_ | _, m, e, hm⟩
  case finite.positive => exact ⟨m, e, hm, rfl⟩
  case infinity.negative | infinity.positive | notANumber => cases hfinite
  case zero => exact absurd hpositive (lt_irrefl _)
  case finite.negative => simp [place, Prod.Lex.toLex_lt_toLex] at hpositive

theorem float_div_nonneg (n : UInt32) {x : Float} (hfinite : x.isFinite = true) (hpositive : 0 < x) :
    0 ≤ n.toFloat / x := by
  obtain ⟨m, e, hm, hvalue⟩ := exists_finite_of_positive (u := x.toModel.unpack) hfinite
    ((float_lt_iff_place 0 x).mp hpositive).2.2
  rw [float_nonneg_iff]
  show IsNonneg (unpack Format.binary64 (UnpackedFloat.pack Format.binary64
    (UnpackedFloat.div Format.binary64 n.toFloat.toModel.unpack x.toModel.unpack)))
  rw [hvalue]
  exact ((isNonneg_toFloat n).div_positive hm).pack

instance : LawfulScalar Float where
  isNaN_zero := rfl
  isNaN_of_le := isNaN_of_float_le
  le_trans := float_le_trans
  le_of_lt := float_le_of_lt
  not_lt := float_not_lt
  beq_iff {x y} := by
    rw [float_beq_iff, float_le_iff, float_le_iff]
    constructor
    · rintro ⟨hx, hy, hplace⟩
      exact ⟨⟨hx, hy, hplace.le⟩, hy, hx, hplace.ge⟩
    · rintro ⟨⟨hx, hy, hle⟩, -, -, hge⟩
      exact ⟨hx, hy, hle.antisymm hge⟩
  le_add := float_le_add
  div_nonneg n _ hfinite hpositive := float_div_nonneg n hfinite hpositive

end PlayDiagram
