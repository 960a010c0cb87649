import PlayDiagram.Playback.Schedule

/-!
# Maps of times

Laying actions out and running a clock take no more than comparing, adding and subtracting times.  A
map that keeps all that (`IsTimeMap`) may embed the times in a larger kind of number or measure them
in another unit: what is computed from the images is the image of what is computed.
-/

namespace PlayDiagram

variable {α β : Type}

/-- The map keeps what schedules and clocks ask of times. -/
structure IsTimeMap [Scalar α] [Scalar β] (φ : α → β) : Prop where
  map_zero : φ 0 = 0
  map_add : ∀ x y, φ (x + y) = φ x + φ y
  map_sub : ∀ x y, φ (x - y) = φ x - φ y
  lt_iff : ∀ x y, φ x < φ y ↔ x < y
  le_iff : ∀ x y, φ x ≤ φ y ↔ x ≤ y
  beq_zero : ∀ x, (φ x == 0) = (x == 0)
  isNaN_eq : ∀ x, Scalar.isNaN (φ x) = Scalar.isNaN x
  isFinite_eq : ∀ x, Scalar.isFinite (φ x) = Scalar.isFinite x

namespace IsTimeMap

variable [Scalar α] [Scalar β] {φ : α → β} (hφ : IsTimeMap φ)

include hφ

theorem pos_iff (x : α) : 0 < φ x ↔ 0 < x := by
  rw [← hφ.map_zero, hφ.lt_iff]

theorem lesser_map (x y : α) : Scalar.lesser (φ x) (φ y) = φ (Scalar.lesser x y) := by
  simp only [Scalar.lesser, hφ.isNaN_eq, hφ.lt_iff, apply_ite φ]

theorem greater_map (x y : α) : Scalar.greater (φ x) (φ y) = φ (Scalar.greater x y) := by
  simp only [Scalar.greater, hφ.lt_iff, apply_ite φ]

theorem clamp_map (low high x : α) :
    Scalar.clamp (φ low) (φ high) (φ x) = φ (Scalar.clamp low high x) := by
  simp only [Scalar.clamp, hφ.lt_iff, ← apply_ite φ]

theorem place_map (c : Cursor α) (trigger : Trigger) (lengthMs : α) :
    Cursor.place ⟨φ c.freeMs, φ c.anchorMs⟩ trigger (φ lengthMs) =
      (φ (c.place trigger lengthMs).1,
        ⟨φ (c.place trigger lengthMs).2.freeMs, φ (c.place trigger lengthMs).2.anchorMs⟩) := by
  cases trigger with
  | afterPrevious => simp only [Cursor.place, hφ.map_add]
  | withPrevious => simp only [Cursor.place, ← hφ.map_add, hφ.greater_map]

end IsTimeMap

end PlayDiagram
