import Mathlib.Algebra.Order.Ring.Rat
import PlayDiagram.Court.Point
import PlayDiagram.Number.Exact

/-!
# The finite values among the extended ones

On finite values the operations and comparisons of `ExtendedRat` are those of the rational numbers.
-/

namespace PlayDiagram

namespace ExtendedRat

@[simp] theorem finite_sub (x y : ℚ) : finite x - finite y = finite (x - y) := by
  show finite (x + -y) = finite (x - y)
  rw [sub_eq_add_neg]

theorem finite_div {x y : ℚ} (hy : y ≠ 0) : finite x / finite y = finite (x / y) :=
  if_neg hy

@[simp] theorem finite_lt_finite {x y : ℚ} : finite x < finite y ↔ x < y :=
  decide_eq_true_iff

@[simp] theorem finite_le_finite {x y : ℚ} : finite x ≤ finite y ↔ x ≤ y := by
  show (decide (x < y) || decide (finite x = finite y)) = true ↔ x ≤ y
  rw [Bool.or_eq_true, decide_eq_true_iff, decide_eq_true_iff, finite.injEq, le_iff_lt_or_eq]

protected theorem le_trans {x y z : ExtendedRat} (hxy : x ≤ y) (hyz : y ≤ z) : x ≤ z := by
  cases x <;> cases y <;> cases z <;> first
    | rfl
    | exact absurd hxy Bool.false_ne_true
    | exact absurd hyz Bool.false_ne_true
    | exact finite_le_finite.mpr ((finite_le_finite.mp hxy).trans (finite_le_finite.mp hyz))

theorem zero_eq : (0 : ExtendedRat) = finite 0 :=
  rfl

@[simp] theorem finite_eq_zero_iff {x : ℚ} : finite x = 0 ↔ x = 0 := by
  rw [zero_eq, finite.injEq]

@[simp] theorem finite_beq_zero_iff {x : ℚ} : (finite x == 0) = true ↔ x = 0 :=
  decide_eq_true_iff.trans finite_eq_zero_iff

end ExtendedRat

/-- Both coordinates are numbers, and not infinite. -/
def Point.IsExact (p : Point ExtendedRat) : Prop :=
  ∃ x y : ℚ, p = ⟨.finite x, .finite y⟩

end PlayDiagram
