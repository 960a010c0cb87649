import Mathlib
import PlayDiagram.Proofs.Number.ClampedDouble

/-!
# The order of doubles

Doubles that are numbers are ordered by sign, then by exponent, then by mantissa: `place` gives each its
place in a linear order.  To be at most as great is to stand no later, for numbers (`float_le_iff`), so
that comparison is transitive and total on them.
-/

namespace PlayDiagram

open Float.Model (UnpackedFloat)
open Float.Model.UnpackedFloat (Sign)

/-- Where a number stands among all numbers.  Both zeros stand at one place. -/
def place : UnpackedFloat → ℤ ×ₗ ℤ ×ₗ ℤ
  | .infinity .negative => toLex (-2, toLex (0, 0))
  | .finite .negative mantissa exponent _ => toLex (-1, toLex (-exponent, -(mantissa : ℤ)))
  | .zero _ | .notANumber => toLex (0, toLex (0, 0))
  | .finite .positive mantissa exponent _ => toLex (1, toLex (exponent, (mantissa : ℤ)))
  | .infinity .positive => toLex (2, toLex (0, 0))

section Unpacked

theorem compare_then_cases (e e' : ℤ) (m m' : ℕ) :
    ((compare e e').then (compare m m') = .lt ∧ (e < e' ∨ e = e' ∧ m < m')) ∨
      ((compare e e').then (compare m m') = .eq ∧ e = e' ∧ m = m') ∨
      ((compare e e').then (compare m m') = .gt ∧ (e' < e ∨ e' = e ∧ m' < m)) := by
  rcases lt_trichotomy e e' with he | rfl | he
  · simp [compare_lt_iff_lt.mpr he, he]
  · rcases lt_trichotomy m m' with hm | rfl | hm
    · simp [compare_lt_iff_lt.mpr hm, hm]
    · simp
    · simp [compare_gt_iff_gt.mpr hm, hm]
  · simp [compare_gt_iff_gt.mpr he, he]

/-- Numbers compare as their places do. -/
theorem compare_cases {u v : UnpackedFloat} (hu : u.isNaN = false) (hv : v.isNaN = false) :
    (u.compare v = some .lt ∧ place u < place v) ∨ (u.compare v = some .eq ∧ place u = place v) ∨
      (u.compare v = some .gt ∧ place v < place u) := by
  rcases u with (_ | _) | _ | _ | ⟨_ | _, m, e, hm⟩ <;>
    rcases v with (_ | _) | _ | _ | ⟨_ | _, m', e', hm'⟩ <;>
    simp_all [UnpackedFloat.isNaN, UnpackedFloat.compare, place, Prod.Lex.toLex_lt_toLex]
  -- What is left are two infinities, and two finite numbers of one sign.
  case finite.negative.finite.negative => grind [compare_then_cases e e' m m']
  case finite.positive.finite.positive => grind [compare_then_cases e e' m m']
  all_goals rfl

theorem compare_eq_none {u v : UnpackedFloat} (h : u.isNaN = true ∨ v.isNaN = true) :
    u.compare v = none := by
  rcases u with (_ | _) | _ | _ | ⟨_ | _, m, e, hm⟩ <;>
    rcases v with (_ | _) | _ | _ | ⟨_ | _, m', e', hm'⟩ <;>
    simp_all [UnpackedFloat.isNaN, UnpackedFloat.compare]

theorem compare_eq_some_iff {u v : UnpackedFloat} {order : Ordering} :
    u.compare v = some order ↔
      u.isNaN = false ∧ v.isNaN = false ∧ compare (place u) (place v) = order := by
  by_cases hnumbers : u.isNaN = false ∧ v.isNaN = false
  · obtain ⟨hu, hv⟩ := hnumbers
    rcases compare_cases hu hv with ⟨h, hplace⟩ | ⟨h, hplace⟩ | ⟨h, hplace⟩
    · rw [h, compare_lt_iff_lt.mpr hplace]
      simp [hu, hv]
    · rw [h, compare_eq_iff_eq.mpr hplace]
      simp [hu, hv]
    · rw [h, compare_gt_iff_gt.mpr hplace]
      simp [hu, hv]
  · have hnone : u.compare v = none := compare_eq_none (by grind)
    rw [hnone]
    constructor
    · intro h
      cases h
    · rintro ⟨hu, hv, -⟩
      exact absurd ⟨hu, hv⟩ hnumbers

/-- To be at most as great is to stand no later, for numbers. -/
theorem unpacked_le_iff {u v : UnpackedFloat} :
    u.le v = true ↔ u.isNaN = false ∧ v.isNaN = false ∧ place u ≤ place v := by
  rw [UnpackedFloat.le, Option.any_eq_true]
  simp only [compare_eq_some_iff, ← compare_le_iff_le, Ordering.isLE_iff_ne_gt]
  constructor
  · rintro ⟨_, ⟨hu, hv, rfl⟩, hle⟩
    exact ⟨hu, hv, hle⟩
  · rintro ⟨hu, hv, hle⟩
    exact ⟨_, ⟨hu, hv, rfl⟩, hle⟩

theorem unpacked_lt_iff {u v : UnpackedFloat} :
    u.lt v = true ↔ u.isNaN = false ∧ v.isNaN = false ∧ place u < place v := by
  rw [UnpackedFloat.lt, beq_iff_eq, compare_eq_some_iff, compare_lt_iff_lt]

theorem unpacked_beq_iff {u v : UnpackedFloat} :
    u.beq v = true ↔ u.isNaN = false ∧ v.isNaN = false ∧ place u = place v := by
  rw [UnpackedFloat.beq, beq_iff_eq, compare_eq_some_iff, compare_eq_iff_eq]

end Unpacked

theorem float_le_iff (x y : Float) :
    x ≤ y ↔ x.isNaN = false ∧ y.isNaN = false ∧
      place x.toModel.unpack ≤ place y.toModel.unpack :=
  decide_eq_true_iff.trans unpacked_le_iff

theorem float_lt_iff_place (x y : Float) :
    x < y ↔ x.isNaN = false ∧ y.isNaN = false ∧
      place x.toModel.unpack < place y.toModel.unpack :=
  (float_lt_iff x y).trans unpacked_lt_iff

theorem float_beq_iff (x y : Float) :
    (x == y) = true ↔ x.isNaN = false ∧ y.isNaN = false ∧
      place x.toModel.unpack = place y.toModel.unpack :=
  unpacked_beq_iff

section Order

variable {x y z : Float}

theorem isNaN_of_float_le (hxy : x ≤ y) : x.isNaN = false ∧ y.isNaN = false :=
  ⟨((float_le_iff x y).mp hxy).1, ((float_le_iff x y).mp hxy).2.1⟩

theorem float_le_trans (hxy : x ≤ y) (hyz : y ≤ z) : x ≤ z := by
  rw [float_le_iff] at *
  exact ⟨hxy.1, hyz.2.1, hxy.2.2.trans hyz.2.2⟩

theorem float_le_of_lt (hxy : x < y) : x ≤ y := by
  rw [float_lt_iff_place] at hxy
  exact (float_le_iff x y).mpr ⟨hxy.1, hxy.2.1, hxy.2.2.le⟩

/-- Two numbers can be compared. -/
theorem float_not_lt (hx : x.isNaN = false) (hy : y.isNaN = false) : ¬x < y ↔ y ≤ x := by
  rw [float_lt_iff_place, float_le_iff]
  simp only [hx, hy, true_and, not_lt]

end Order

/-! ## Zeros -/

section Zeros

variable {x : Float}

/-- What equals zero is one of the two zeros. -/
theorem unpack_of_beq_zero (hx : (x == 0) = true) : ∃ sign, x.toModel.unpack = .zero sign := by
  obtain ⟨hnumber, -, hplace⟩ := (float_beq_iff x 0).mp hx
  have hzero : place (0 : Float).toModel.unpack = toLex (0, toLex (0, 0)) := rfl
  replace hnumber : x.toModel.unpack.isNaN = false := hnumber
  rw [hzero] at hplace
  rcases hvalue : x.toModel.unpack with (_ | _) | _ | sign | ⟨_ | _, m, e, hm⟩
  case zero => exact ⟨sign, rfl⟩
  case notANumber =>
    rw [hvalue] at hnumber
    cases hnumber
  all_goals
    rw [hvalue] at hplace
    simp [place] at hplace

theorem float_zero_sub (hx : (x == 0) = true) : 0 - x = 0 := by
  obtain ⟨sign, hvalue⟩ := unpack_of_beq_zero hx
  have hzero : (0 : Float).toModel.unpack = .zero .positive := rfl
  show Float.ofModel (.pack (.sub .binary64 (0 : Float).toModel.unpack x.toModel.unpack)) = 0
  rw [hvalue, hzero]
  cases sign <;> rfl

end Zeros

end PlayDiagram
