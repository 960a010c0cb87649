import Mathlib
import PlayDiagram.Number.Fixed

/-!
# The written forms of doubles

What is no number is written with a letter that begins no other written form, so the text of a double
tells whether it is a number (`head?_fixedText_iff`).
-/

namespace PlayDiagram

open Float.Model (Format UnpackedFloat)
open Float.Model.UnpackedFloat (unpack unpackExponent unpackMantissa)

/-! ## The fields of a double -/

theorem unpackExponent_toNat (b : BitVec Format.binary64.numBits) :
    (unpackExponent b).toNat = b.toNat / 2 ^ 52 % 2 ^ 11 := by
  unfold unpackExponent
  rw [BitVec.toNat_cast, BitVec.extractLsb_toNat, Nat.shiftRight_eq_div_pow]
  rfl

theorem unpackMantissa_toNat (b : BitVec Format.binary64.numBits) :
    (unpackMantissa b).toNat = b.toNat % 2 ^ 52 := by
  unfold unpackMantissa
  rw [BitVec.toNat_cast, BitVec.extractLsb_toNat, Nat.shiftRight_zero]
  rfl

/-- Bits stand for no number exactly if the exponent is the greatest, and the fraction not zero. -/
theorem isNaN_unpack_iff {b : BitVec Format.binary64.numBits} :
    (unpack Format.binary64 b).isNaN = true ↔
      b.toNat / 2 ^ 52 % 2 ^ 11 = 2047 ∧ b.toNat % 2 ^ 52 ≠ 0 := by
  have hexponent : unpackExponent b = -1#_ ↔ b.toNat / 2 ^ 52 % 2 ^ 11 = 2047 := by
    rw [← BitVec.toNat_inj, unpackExponent_toNat]
    rfl
  have hfraction : unpackMantissa b = 0#_ ↔ b.toNat % 2 ^ 52 = 0 := by
    rw [← BitVec.toNat_inj, unpackMantissa_toNat]
    rfl
  rw [← hexponent, ne_eq, ← hfraction]
  unfold unpack
  dsimp only
  split_ifs with hgreatest hzero
  · exact ⟨nofun, fun h => absurd hzero h.2⟩
  · exact ⟨fun _ => ⟨hgreatest, hzero⟩, fun _ => rfl⟩
  all_goals exact ⟨nofun, fun h => absurd h.1 hgreatest⟩

theorem Binary64.ofFloat_eq_nan_iff {x : Float} : ofFloat x = nan ↔ x.isNaN = true := by
  have hbits : x.isNaN = true ↔
      x.toBits.toNat / 2 ^ 52 % 2 ^ 11 = 2047 ∧ x.toBits.toNat % 2 ^ 52 ≠ 0 := isNaN_unpack_iff
  rw [hbits]
  unfold ofFloat
  dsimp only
  split_ifs with hgreatest hzero
  · exact ⟨nofun, fun h => absurd hzero h.2⟩
  · exact ⟨fun _ => ⟨hgreatest, hzero⟩, fun _ => rfl⟩
  all_goals exact ⟨nofun, fun h => absurd h.1 hgreatest⟩

/-! ## Texts -/

theorem exists_head?_digit {l : List Char} (hl : l ≠ []) (hdigits : ∀ c ∈ l, c.isDigit = true)
    (rest : List Char) : ∃ c, (l ++ rest).head? = some c ∧ c.isDigit = true := by
  obtain ⟨c, l, rfl⟩ := List.exists_cons_of_ne_nil hl
  exact ⟨c, rfl, hdigits c List.mem_cons_self⟩

namespace Decimal

theorem isDigit_of_mem_digits {d : Decimal} {c : Char} (hc : c ∈ d.digits) : c.isDigit = true :=
  Nat.isDigit_of_mem_toDigits (by decide) (by decide) hc

theorem isDigit_of_mem_zeros {n : ℕ} {c : Char} (hc : c ∈ zeros n) : c.isDigit = true := by
  rw [List.eq_of_mem_replicate hc]
  rfl

/-- A numeral begins with a digit. -/
theorem head?_positional (d : Decimal) (wholePoint : Bool) :
    ∃ c, (d.positional wholePoint).toList.head? = some c ∧ c.isDigit = true := by
  have hdigits : d.digits ≠ [] := Nat.toDigits_ne_nil
  unfold positional
  dsimp only
  split_ifs
  · rw [String.toList_ofList, List.append_assoc]
    exact exists_head?_digit hdigits (fun c hc => isDigit_of_mem_digits hc) _
  · rw [String.toList_ofList]
    exact exists_head?_digit hdigits (fun c hc => isDigit_of_mem_digits hc) _
  · -- Enough zeros stand before the digits for one character to be left before the point.
    rw [String.toList_ofList, List.splitAt_eq]
    refine exists_head?_digit ?_ (fun c hc => ?_) _
    · rw [← List.length_pos_iff, List.length_take, List.length_append, zeros, List.length_replicate]
      omega
    · rcases List.mem_append.mp (List.mem_of_mem_take hc) with hc | hc
      · exact isDigit_of_mem_zeros hc
      · exact isDigit_of_mem_digits hc

end Decimal

theorem fixedText_of_isNaN (places : ℕ) {x : Float} (hx : x.isNaN = true) :
    fixedText places x = "NaN" := by
  unfold fixedText
  rw [Binary64.ofFloat_eq_nan_iff.mpr hx]

/-- The text of a double begins with this letter exactly if the double is no number. -/
theorem head?_fixedText_iff (places : ℕ) (x : Float) :
    (fixedText places x).toList.head? = some 'N' ↔ x.isNaN = true := by
  constructor
  · intro hhead
    rw [← Binary64.ofFloat_eq_nan_iff]
    unfold fixedText at hhead
    cases hvalue : Binary64.ofFloat x with
    | nan => rfl
    | infinite negative =>
        rw [hvalue] at hhead
        dsimp only at hhead
        cases negative <;> exact absurd hhead (by decide)
    | finite negative significand exponent =>
        rw [hvalue] at hhead
        dsimp only at hhead
        cases negative with
        | true =>
            rw [if_pos rfl, String.toList_append] at hhead
            cases hhead
        | false =>
            rw [if_neg Bool.false_ne_true, String.empty_append] at hhead
            obtain ⟨c, hc, hdigit⟩ := Decimal.head?_positional
              ⟨roundToPlaces places significand exponent, -places⟩ false
            rw [Option.some.inj (hc.symm.trans hhead)] at hdigit
            cases hdigit
  · intro hx
    rw [fixedText_of_isNaN places hx]
    rfl

end PlayDiagram
