import Mathlib.Algebra.Order.Field.Rat
import PlayDiagram.Proofs.Number.FiniteExtendedRat

/-!
# Laws that rounding keeps

Sums of doubles are rounded, and some doubles are no numbers, so that few laws of exact numbers hold of
them.  `LawfulScalar` lists laws that do: any two numbers can be compared, and adding a length to a time
never takes it back.  What is proved from these laws alone holds of the running program and of exact
numbers alike.
-/

namespace PlayDiagram

/-- Any two numbers can be compared, and adding what is not negative makes none smaller that is not
negative itself. -/
class LawfulScalar (α : Type) [Scalar α] : Prop where
  isNaN_zero : Scalar.isNaN (0 : α) = false
  isNaN_of_le {x y : α} : x ≤ y → Scalar.isNaN x = false ∧ Scalar.isNaN y = false
  le_trans {x y z : α} : x ≤ y → y ≤ z → x ≤ z
  le_of_lt {x y : α} : x < y → x ≤ y
  not_lt {x y : α} : Scalar.isNaN x = false → Scalar.isNaN y = false → (¬x < y ↔ y ≤ x)
  beq_iff {x y : α} : (x == y) = true ↔ x ≤ y ∧ y ≤ x
  le_add {x y : α} : 0 ≤ x → 0 ≤ y → x ≤ x + y
  div_nonneg (n : UInt32) {x : α} : Scalar.isFinite x = true → 0 < x → 0 ≤ Scalar.ofWord n / x

/-! ## Exact numbers -/

instance : LawfulScalar ℚ where
  isNaN_zero := rfl
  isNaN_of_le _ := ⟨rfl, rfl⟩
  le_trans hxy hyz := le_trans hxy hyz
  le_of_lt hxy := le_of_lt hxy
  not_lt _ _ := not_lt
  beq_iff := beq_iff_eq.trans le_antisymm_iff
  le_add _ hy := le_add_of_nonneg_right hy
  div_nonneg n _ _ hx := div_nonneg (Nat.cast_nonneg n.toNat) (le_of_lt hx)

namespace ExtendedRat

theorem lt_iff_below {x y : ExtendedRat} : x < y ↔ below x y = true :=
  Iff.rfl

theorem le_iff_below_or_same {x y : ExtendedRat} :
    x ≤ y ↔ below x y = true ∨ same x y = true :=
  Bool.or_eq_true _ _ ▸ Iff.rfl

theorem not_lt_iff {x y : ExtendedRat} (hx : Scalar.isNaN x = false) (hy : Scalar.isNaN y = false) :
    ¬x < y ↔ y ≤ x := by
  cases x <;> cases y
  case finite.finite => rw [finite_lt_finite, finite_le_finite, not_lt]
  all_goals simp_all [lt_iff_below, le_iff_below_or_same, Scalar.isNaN, below, same]

theorem beq_iff_le_and_le {x y : ExtendedRat} : (x == y) = true ↔ x ≤ y ∧ y ≤ x := by
  show same x y = true ↔ _
  cases x <;> cases y
  case finite.finite =>
    rw [finite_le_finite, finite_le_finite, ← le_antisymm_iff, ← finite.injEq]
    exact decide_eq_true_iff
  all_goals simp [le_iff_below_or_same, below, same]

theorem le_add_of_nonneg {x y : ExtendedRat} (hx : 0 ≤ x) (hy : 0 ≤ y) : x ≤ x + y := by
  cases x <;> cases y
  case finite.finite x y =>
    exact finite_le_finite.mpr (le_add_of_nonneg_right (finite_le_finite.mp hy))
  all_goals first
    | exact absurd hx Bool.false_ne_true
    | exact absurd hy Bool.false_ne_true
    | rfl

end ExtendedRat

instance : LawfulScalar ExtendedRat where
  isNaN_zero := rfl
  isNaN_of_le {x y} hxy := by
    cases x <;> cases y <;> first
      | exact absurd hxy Bool.false_ne_true
      | exact ⟨rfl, rfl⟩
  le_trans hxy hyz := ExtendedRat.le_trans hxy hyz
  le_of_lt {x y} hxy := by
    show (ExtendedRat.below x y || ExtendedRat.same x y) = true
    rw [show ExtendedRat.below x y = true from hxy, Bool.true_or]
  not_lt := ExtendedRat.not_lt_iff
  beq_iff := ExtendedRat.beq_iff_le_and_le
  le_add := ExtendedRat.le_add_of_nonneg
  div_nonneg n {x} hfinite hx := by
    cases x with
    | nan | negInf | posInf => cases hfinite
    | finite q =>
        have hq : 0 < q := ExtendedRat.finite_lt_finite.mp hx
        show 0 ≤ ExtendedRat.finite n.toNat / ExtendedRat.finite q
        rw [ExtendedRat.finite_div hq.ne']
        exact ExtendedRat.finite_le_finite.mpr (div_nonneg (Nat.cast_nonneg n.toNat) hq.le)

/-! ## What follows from the laws -/

namespace LawfulScalar

variable {α : Type} [Scalar α] [LawfulScalar α] {low high x y z : α}

protected theorem le_refl (hx : Scalar.isNaN x = false) : x ≤ x := by
  by_cases hlt : x < x
  · exact le_of_lt hlt
  · exact (not_lt hx hx).mp hlt

theorem zero_le_zero : (0 : α) ≤ 0 :=
  LawfulScalar.le_refl isNaN_zero

theorem not_lt_of_le (hxy : x ≤ y) : ¬y < x :=
  (not_lt (isNaN_of_le hxy).2 (isNaN_of_le hxy).1).mpr hxy

protected theorem lt_of_le_of_lt (hxy : x ≤ y) (hyz : y < z) : x < z := by
  obtain ⟨hx, -⟩ := isNaN_of_le hxy
  obtain ⟨-, hz⟩ := isNaN_of_le (le_of_lt hyz)
  by_contra hlt
  exact not_lt_of_le (LawfulScalar.le_trans ((not_lt hx hz).mp hlt) hxy) hyz

protected theorem lt_of_lt_of_le (hxy : x < y) (hyz : y ≤ z) : x < z := by
  obtain ⟨hx, -⟩ := isNaN_of_le (le_of_lt hxy)
  obtain ⟨-, hz⟩ := isNaN_of_le hyz
  by_contra hlt
  exact not_lt_of_le (LawfulScalar.le_trans hyz ((not_lt hx hz).mp hlt)) hxy

/-- What equals zero is not greater. -/
theorem le_zero_of_beq (hx : (x == 0) = true) : x ≤ 0 :=
  (beq_iff.mp hx).1

theorem le_zero_iff (hx : 0 ≤ x) : x ≤ 0 ↔ (x == 0) = true :=
  ⟨fun hle => beq_iff.mpr ⟨hle, hx⟩, le_zero_of_beq⟩

/-! ### Choosing one of two -/

theorem le_greater_left (hx : Scalar.isNaN x = false) (y : α) : x ≤ Scalar.greater x y := by
  unfold Scalar.greater
  split_ifs with hlt
  · exact le_of_lt hlt
  · exact LawfulScalar.le_refl hx

theorem le_greater_right (hx : Scalar.isNaN x = false) (hy : Scalar.isNaN y = false) :
    y ≤ Scalar.greater x y := by
  unfold Scalar.greater
  split_ifs with hlt
  · exact LawfulScalar.le_refl hy
  · exact (not_lt hx hy).mp hlt

theorem lesser_zero (hx : 0 ≤ x) : Scalar.lesser 0 x = 0 := by
  unfold Scalar.lesser
  rw [isNaN_zero, if_neg Bool.false_ne_true, if_neg (not_lt_of_le hx), ite_self]

/-! ### Clamping -/

/-- A number is clamped to one between the bounds. -/
theorem clamp_between (hbounds : low ≤ high) (hx : Scalar.isNaN x = false) :
    low ≤ Scalar.clamp low high x ∧ Scalar.clamp low high x ≤ high := by
  obtain ⟨hlow, hhigh⟩ := isNaN_of_le hbounds
  unfold Scalar.clamp
  by_cases hbelow : x < low
  · simp only [hbelow, not_lt_of_le hbounds, if_true, if_false]
    exact ⟨LawfulScalar.le_refl hlow, hbounds⟩
  · by_cases habove : high < x
    · simp only [hbelow, habove, if_true, if_false]
      exact ⟨hbounds, LawfulScalar.le_refl hhigh⟩
    · simp only [hbelow, habove, if_false]
      exact ⟨(not_lt hx hlow).mp hbelow, (not_lt hhigh hx).mp habove⟩

/-- What lies between the bounds is not changed. -/
theorem clamp_of_between (hlow : low ≤ x) (hhigh : x ≤ high) : Scalar.clamp low high x = x := by
  unfold Scalar.clamp
  simp only [not_lt_of_le hlow, not_lt_of_le hhigh, if_false]

section Mono

variable {bound : α} (hbound : Scalar.isNaN bound = false) (hxy : x ≤ y)

include hbound hxy

theorem raise_mono : (if x < bound then bound else x) ≤ (if y < bound then bound else y) := by
  obtain ⟨-, hy⟩ := isNaN_of_le hxy
  split_ifs with hx' hy' hy'
  · exact LawfulScalar.le_refl hbound
  · exact (not_lt hy hbound).mp hy'
  · exact LawfulScalar.le_trans hxy (le_of_lt hy')
  · exact hxy

theorem lower_mono : (if bound < x then bound else x) ≤ (if bound < y then bound else y) := by
  obtain ⟨hx, -⟩ := isNaN_of_le hxy
  split_ifs with hx' hy' hy'
  · exact LawfulScalar.le_refl hbound
  · exact LawfulScalar.le_trans (le_of_lt hx') hxy
  · exact (not_lt hbound hx).mp hx'
  · exact hxy

end Mono

theorem clamp_mono (hlow : Scalar.isNaN low = false) (hhigh : Scalar.isNaN high = false)
    (hxy : x ≤ y) : Scalar.clamp low high x ≤ Scalar.clamp low high y :=
  lower_mono hhigh (raise_mono hlow hxy)

end LawfulScalar

end PlayDiagram
