import PlayDiagram.Number.Binary64

/-!
# Clamping doubles

Clamping between finite bounds makes an infinity finite, since it lies beyond one of them.  What is no
number lies beyond nothing and passes through (`clamp_isFinite_iff`).
-/

namespace PlayDiagram

open Float.Model (UnpackedFloat)

/-- Doubles are compared by what they stand for. -/
theorem float_lt_iff (x y : Float) :
    x < y ↔ x.toModel.unpack.lt y.toModel.unpack = true :=
  decide_eq_true_iff

section Unpacked

/-- What is no number lies neither below nor above anything. -/
theorem lt_eq_false_of_isNaN {u : UnpackedFloat} (hu : u.isNaN = true) (v : UnpackedFloat) :
    u.lt v = false ∧ v.lt u = false := by
  cases u with
  | notANumber => exact ⟨rfl, by cases v <;> rfl⟩
  | infinity sign => cases hu
  | zero sign => cases hu
  | finite sign mantissa exponent hmantissa => cases hu

/-- An infinity lies below everything finite, or above. -/
theorem lt_of_infinite {u : UnpackedFloat} (hnumber : u.isNaN = false)
    (hinfinite : u.isFinite = false) :
    (∀ v : UnpackedFloat, v.isFinite = true → u.lt v = true) ∨
      ∀ v : UnpackedFloat, v.isFinite = true → u.lt v = false ∧ v.lt u = true := by
  cases u with
  | notANumber => cases hnumber
  | zero sign => cases hinfinite
  | finite sign mantissa exponent hmantissa => cases hinfinite
  | infinity sign =>
      cases sign with
      | negative =>
          refine Or.inl fun v hv => ?_
          cases v with
          | notANumber => cases hv
          | infinity sign => cases hv
          | zero sign => rfl
          | finite sign mantissa exponent hmantissa => rfl
      | positive =>
          refine Or.inr fun v hv => ?_
          cases v with
          | notANumber => cases hv
          | infinity sign => cases hv
          | zero sign => exact ⟨rfl, rfl⟩
          | finite sign mantissa exponent hmantissa => cases sign <;> exact ⟨rfl, rfl⟩

end Unpacked

theorem isNaN_eq_false_of_isFinite {x : Float} (hx : x.isFinite = true) : x.isNaN = false := by
  have hfinite : x.toModel.unpack.isFinite = true := hx
  show x.toModel.unpack.isNaN = false
  cases hvalue : x.toModel.unpack with
  | notANumber =>
      rw [hvalue] at hfinite
      cases hfinite
  | infinity sign => rfl
  | zero sign => rfl
  | finite sign mantissa exponent hmantissa => rfl

/-- Clamping yields one of the bounds or the value itself. -/
theorem clamp_cases {α : Type} [Scalar α] (low high x : α) :
    Scalar.clamp low high x = low ∨ Scalar.clamp low high x = high ∨
      Scalar.clamp low high x = x := by
  unfold Scalar.clamp
  by_cases hlow : x < low
  · simp only [hlow, if_true]
    by_cases hhigh : high < low
    · exact Or.inr (Or.inl (if_pos hhigh))
    · exact Or.inl (if_neg hhigh)
  · simp only [hlow, if_false]
    by_cases hhigh : high < x
    · exact Or.inr (Or.inl (if_pos hhigh))
    · exact Or.inr (Or.inr (if_neg hhigh))

/-- What is no number passes through. -/
theorem clamp_of_isNaN (low high : Float) {x : Float} (hnan : x.isNaN = true) :
    Scalar.clamp low high x = x := by
  have hbelow : ¬x < low := by
    rw [float_lt_iff, (lt_eq_false_of_isNaN hnan _).1]
    exact Bool.false_ne_true
  have habove : ¬high < x := by
    rw [float_lt_iff, (lt_eq_false_of_isNaN hnan _).2]
    exact Bool.false_ne_true
  unfold Scalar.clamp
  simp only [hbelow, habove, if_false]

/-- Between finite bounds, a value is clamped to a finite one exactly if it is a number. -/
theorem clamp_isFinite_iff {low high : Float} (hlow : low.isFinite = true)
    (hhigh : high.isFinite = true) (x : Float) :
    (Scalar.clamp low high x).isFinite = true ↔ x.isNaN = false := by
  constructor
  · intro hclamp
    refine Bool.eq_false_iff.mpr fun hnan => ?_
    rw [clamp_of_isNaN low high hnan] at hclamp
    exact absurd hnan (Bool.eq_false_iff.mp (isNaN_eq_false_of_isFinite hclamp))
  · intro hnumber
    by_cases hfinite : x.isFinite = true
    · rcases clamp_cases low high x with h | h | h
      · rwa [h]
      · rwa [h]
      · rwa [h]
    · have hinfinite : x.toModel.unpack.isFinite = false := Bool.eq_false_iff.mpr hfinite
      unfold Scalar.clamp
      rcases lt_of_infinite hnumber hinfinite with hbelow | habove
      · have hlt : x < low := (float_lt_iff x low).mpr (hbelow _ hlow)
        simp only [hlt, if_true]
        split
        · exact hhigh
        · exact hlow
      · have hnot : ¬x < low := by
          rw [float_lt_iff, (habove _ hlow).1]
          exact Bool.false_ne_true
        have hlt : high < x := (float_lt_iff high x).mpr (habove _ hhigh).2
        simp only [hnot, hlt, if_false, if_true]
        exact hhigh

end PlayDiagram
