import Mathlib.Algebra.Group.Nat.Defs
import PlayDiagram.Json.Value

/-!
# Numbers are finite doubles

A JSON number is read as a double that is finite, whether it is an integer or not
(`Number.toFloat_isFinite`).  An integer of 64 bits is far below the greatest double: rounding leaves
its exponent small, and a double of small exponent survives being packed into bits.
-/

namespace PlayDiagram

open Float.Model (Format UnpackedFloat totalExponent)
open Float.Model.UnpackedFloat (Sign Accuracy ExtendedMantissa shiftToTargetExponent
  roundWithAccuracy unpackExponent packComponents)

/-- Zero, or a number whose exponent the format of doubles has room for. -/
def HasSmallExponent : UnpackedFloat → Prop
  | .zero _ => True
  | .finite _ _ exponent _ => exponent < 972
  | .infinity _ | .notANumber => False

section Packing

theorem hasSmallExponent_unpack {b : BitVec Format.binary64.numBits}
    (hexponent : unpackExponent b ≠ -1#_) :
    HasSmallExponent (UnpackedFloat.unpack Format.binary64 b) := by
  have hbias : (Format.binary64.exponentBias : Int) = 1023 := rfl
  have hbound : (unpackExponent b).toNat < 2047 := by
    have hlt : (unpackExponent b).toNat < 2048 := (unpackExponent b).isLt
    have hne : (unpackExponent b).toNat ≠ 2047 := fun h => hexponent (BitVec.eq_of_toNat_eq h)
    omega
  unfold UnpackedFloat.unpack
  rw [if_neg hexponent]
  by_cases hzero : unpackExponent b = 0#_
  · rw [if_pos hzero]
    by_cases hfraction : UnpackedFloat.unpackMantissa b = 0#_
    · rw [dif_pos hfraction]
      trivial
    · rw [dif_neg hfraction]
      show ((unpackExponent b).toNat : Int) - (Format.binary64.exponentBias + (52 : Nat)) + 1 < 972
      rw [hzero, hbias]
      decide
  · rw [if_neg hzero]
    show ((unpackExponent b).toNat : Int) - (Format.binary64.exponentBias + (52 : Nat)) < 972
    omega

/-- What is unpacked from bits is finite exactly if its exponent is small. -/
theorem isFinite_unpack_iff {b : BitVec Format.binary64.numBits} :
    (UnpackedFloat.unpack Format.binary64 b).isFinite = true ↔
      HasSmallExponent (UnpackedFloat.unpack Format.binary64 b) := by
  constructor
  · intro hfinite
    apply hasSmallExponent_unpack
    intro hexponent
    unfold UnpackedFloat.unpack at hfinite
    rw [if_pos hexponent] at hfinite
    split at hfinite <;> cases hfinite
  · intro hsmall
    cases hunpack : UnpackedFloat.unpack Format.binary64 b with
    | zero sign => rfl
    | finite sign mantissa exponent hmantissa => rfl
    | infinity sign =>
        rw [hunpack] at hsmall
        exact hsmall.elim
    | notANumber =>
        rw [hunpack] at hsmall
        exact hsmall.elim

theorem hasSmallExponent_packComponents (sign : Sign) {exponent : BitVec 11} (mantissa : BitVec 52)
    (hexponent : exponent ≠ -1#11) :
    HasSmallExponent (UnpackedFloat.unpack Format.binary64
      (packComponents Format.binary64 sign exponent mantissa)) := by
  apply hasSmallExponent_unpack
  rw [UnpackedFloat.unpackExponent_packComponents]
  exact hexponent

/-- A number of small exponent does not become infinite when it is packed into bits. -/
theorem HasSmallExponent.pack {f : UnpackedFloat} (hf : HasSmallExponent f) :
    HasSmallExponent (UnpackedFloat.unpack Format.binary64
      (UnpackedFloat.pack Format.binary64 f)) := by
  cases f with
  | infinity sign => exact hf.elim
  | notANumber => exact hf.elim
  | zero sign => exact hasSmallExponent_packComponents sign 0 (by decide)
  | finite sign mantissa exponent hmantissa =>
      have hbias : (Format.binary64.exponentBias : Int) = 1023 := rfl
      have hexponent : exponent < 972 := hf
      have hbiased : (exponent + Format.binary64.exponentBias + (52 : Nat)).toNat < 2047 := by
        omega
      have hroom : ¬2048 ≤ (exponent + Format.binary64.exponentBias + (52 : Nat)).toNat + 1 := by
        omega
      unfold UnpackedFloat.pack
      simp only [if_neg hroom]
      split
      · apply hasSmallExponent_packComponents
        intro heq
        have hvalue := congrArg BitVec.toNat heq
        rw [BitVec.toNat_ofNat, Nat.mod_eq_of_lt (by omega)] at hvalue
        exact absurd hvalue (Nat.ne_of_lt hbiased)
      · exact hasSmallExponent_packComponents sign _ (by decide)

theorem HasSmallExponent.neg {f : UnpackedFloat} (hf : HasSmallExponent f) :
    HasSmallExponent f.neg := by
  cases f with
  | infinity sign => exact hf.elim
  | notANumber => exact hf.elim
  | zero sign => trivial
  | finite sign mantissa exponent hmantissa => exact hf

end Packing

section Rounding

theorem shiftRight_mantissa (em : ExtendedMantissa) (n : ℕ) :
    (em >>> n).mantissa = em.mantissa / 2 ^ n := by
  show (n.repeat ExtendedMantissa.shiftRightOne em).mantissa = _
  induction n with
  | zero => exact (Nat.div_one _).symm
  | succ n ih =>
      show (n.repeat ExtendedMantissa.shiftRightOne em).mantissa / 2 = _
      rw [ih, Nat.div_div_eq_div_mul, Nat.pow_succ]

theorem roundedMantissa_le (em : ExtendedMantissa) :
    em.roundedMantissa ≤ em.mantissa + 1 := by
  obtain ⟨mantissa, roundBit, stickyBit⟩ := em
  have hparity : mantissa % 2 ≤ 1 := Nat.le_of_lt_succ (Nat.mod_lt mantissa (by decide))
  cases roundBit <;> cases stickyBit <;>
    simp only [ExtendedMantissa.roundedMantissa, ExtendedMantissa.accuracy,
      Accuracy.roundToNearestEven] <;> omega

theorem ofMantissaAndAccuracy_mantissa (mantissa : Nat) (accuracy : Accuracy) :
    (ExtendedMantissa.ofMantissaAndAccuracy mantissa accuracy).mantissa = mantissa := by
  cases accuracy with
  | exact => rfl
  | inexact order => cases order <;> rfl

/-- The exponent to which a number is shifted. -/
def targetOf (mantissa : ℕ) (exponent : ℤ) : ℤ :=
  max ((mantissa.log2 : ℤ) + 1 + exponent - 53) (-1074)

theorem shiftToTargetExponent_mantissa (mantissa : ℕ) (exponent : ℤ) (accuracy : Accuracy) :
    (shiftToTargetExponent Format.binary64 mantissa exponent accuracy).1.mantissa =
      mantissa / 2 ^ (targetOf mantissa exponent - exponent).toNat := by
  have hshifted := shiftRight_mantissa (ExtendedMantissa.ofMantissaAndAccuracy mantissa accuracy)
    (targetOf mantissa exponent - exponent).toNat
  rw [ofMantissaAndAccuracy_mantissa] at hshifted
  exact hshifted

/-- Shifting makes the exponent at most as great as the number has bits. -/
theorem shiftToTargetExponent_exponent_le {mantissa bits : Nat} {exponent bound : Int}
    (accuracy : Accuracy) (hmantissa : mantissa < 2 ^ bits) (hexponent : exponent ≤ bound)
    (hbound : 0 ≤ bound) :
    (shiftToTargetExponent Format.binary64 mantissa exponent accuracy).2 ≤ bound + bits := by
  have hlog : mantissa.log2 ≤ bits := by
    by_cases hzero : mantissa = 0
    · subst hzero
      exact Nat.zero_le _
    · exact Nat.le_of_lt ((Nat.log2_lt hzero).mpr hmantissa)
  show exponent + ((Format.binary64.targetExponent (totalExponent mantissa exponent)
    - exponent).toNat : Int) ≤ bound + bits
  have htarget : Format.binary64.targetExponent (totalExponent mantissa exponent) =
      max ((mantissa.log2 : Int) + 1 + exponent - 53) (-1074) := rfl
  omega

/-- Rounding shifts twice, since rounding up may add a bit to the mantissa. -/
theorem hasSmallExponent_roundWithAccuracy (bits : Nat) (bound : Int) {mantissa : Nat}
    {exponent : Int} (sign : Sign) (accuracy : Accuracy) (hmantissa : mantissa < 2 ^ bits)
    (hexponent : exponent ≤ bound) (hbound : 0 ≤ bound) (hroom : bound + 2 * bits < 970) :
    HasSmallExponent (roundWithAccuracy Format.binary64 sign mantissa exponent accuracy) := by
  have hfirst := shiftToTargetExponent_exponent_le accuracy hmantissa hexponent hbound
  have hrounded : (shiftToTargetExponent Format.binary64 mantissa exponent
      accuracy).1.roundedMantissa < 2 ^ (bits + 1) := by
    have hshifted := Nat.div_le_self mantissa (2 ^ (targetOf mantissa exponent - exponent).toNat)
    rw [← shiftToTargetExponent_mantissa mantissa exponent accuracy] at hshifted
    have hup := roundedMantissa_le
      (shiftToTargetExponent Format.binary64 mantissa exponent accuracy).1
    rw [Nat.pow_succ]
    omega
  have hsecond := shiftToTargetExponent_exponent_le .exact hrounded hfirst (by omega)
  unfold roundWithAccuracy
  dsimp only
  by_cases hzero : (shiftToTargetExponent Format.binary64
      (shiftToTargetExponent Format.binary64 mantissa exponent accuracy).1.roundedMantissa
      (shiftToTargetExponent Format.binary64 mantissa exponent accuracy).2 .exact).1.mantissa = 0
  · rw [dif_pos hzero]
    trivial
  · rw [dif_neg hzero]
    show (shiftToTargetExponent Format.binary64 _ _ .exact).2 < 972
    omega

/-- A natural number below `2 ^ 64` is rounded to a number of small exponent. -/
theorem hasSmallExponent_round {n : Nat} (sign : Sign) (hn : n < 2 ^ 64) :
    HasSmallExponent (UnpackedFloat.round Format.binary64 sign n 0) := by
  have htarget : Format.binary64.targetExponent (totalExponent n 0) =
      max ((n.log2 : Int) + 1 + 0 - 53) (-1074) := rfl
  have hshift : (0 - Format.binary64.targetExponent (totalExponent n 0)).toNat ≤ 52 := by
    omega
  unfold UnpackedFloat.round UnpackedFloat.decreaseExponent
  apply hasSmallExponent_roundWithAccuracy 116 0
  · rw [Nat.shiftLeft_eq]
    calc
      n * 2 ^ (0 - Format.binary64.targetExponent (totalExponent n 0)).toNat ≤ n * 2 ^ 52 :=
        Nat.mul_le_mul_left n (Nat.pow_le_pow_right (by decide) hshift)
      _ < 2 ^ 64 * 2 ^ 52 := Nat.mul_lt_mul_of_pos_right hn (by decide)
      _ = 2 ^ 116 := by decide
  · omega
  · decide
  · decide

theorem hasSmallExponent_ofNat {n : Nat} (hn : n < 2 ^ 64) :
    HasSmallExponent (UnpackedFloat.ofNat Format.binary64 n) := by
  unfold UnpackedFloat.ofNat UnpackedFloat.ofInt UnpackedFloat.normalize
  split
  · exact hasSmallExponent_round _ (by omega)
  · trivial
  · exact hasSmallExponent_round _ (by omega)

end Rounding

theorem toFloat_isFinite (n : UInt64) : n.toFloat.isFinite = true := by
  have hsmall := (hasSmallExponent_ofNat n.toNat_lt).pack
  exact isFinite_unpack_iff.mpr hsmall

theorem neg_isFinite {x : Float} (hx : x.isFinite = true) : (-x).isFinite = true := by
  have hsmall : HasSmallExponent x.toModel.unpack := isFinite_unpack_iff.mp hx
  have hneg := hsmall.neg.pack
  exact isFinite_unpack_iff.mpr hneg

/-- A number is read as a finite double. -/
theorem Json.Number.toFloat_isFinite (n : Json.Number) : n.toFloat.isFinite = true := by
  cases n with
  | real x hfinite => exact hfinite
  | integer value lower upper =>
      show (if 0 ≤ value then value.toNat.toUInt64.toFloat
        else -value.natAbs.toUInt64.toFloat).isFinite = true
      by_cases hsign : 0 ≤ value
      · rw [if_pos hsign]
        exact PlayDiagram.toFloat_isFinite _
      · rw [if_neg hsign]
        exact neg_isFinite (PlayDiagram.toFloat_isFinite _)

end PlayDiagram
