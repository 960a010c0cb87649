import Mathlib.Algebra.Order.Field.Basic
import Mathlib.Algebra.Order.Field.Rat
import PlayDiagram.Proofs.Playback.ScheduleEntries
import PlayDiagram.Proofs.Playback.TimeMap
import PlayDiagram.Proofs.Playback.WindowBounds

/-!
# Windows in rational time

Coordinates may be any numbers, but the times of a schedule are rational ones, embedded by a map of
times.  Each entry occupies a window as long as its action lasts, after the start of the schedule and
before its end (`ofActions_windows`).
-/

namespace PlayDiagram

open ExtendedRat (finite)

@[simp] theorem exact_greater (x y : ℚ) : Scalar.greater x y = max x y := by
  unfold Scalar.greater
  by_cases hlt : x < y
  · rw [if_pos hlt, max_eq_right hlt.le]
  · rw [if_neg hlt, max_eq_left (not_lt.mp hlt)]

@[simp] theorem exact_clamp (low high x : ℚ) : Scalar.clamp low high x = min high (max low x) := by
  unfold Scalar.clamp
  by_cases hlow : x < low
  · rw [if_pos hlow, max_eq_left hlow.le]
    by_cases hhigh : high < low
    · rw [if_pos hhigh, min_eq_left hhigh.le]
    · rw [if_neg hhigh, min_eq_right (not_lt.mp hhigh)]
  · rw [if_neg hlow, max_eq_right (not_lt.mp hlow)]
    by_cases hhigh : high < x
    · rw [if_pos hhigh, min_eq_left hhigh.le]
    · rw [if_neg hhigh, min_eq_right (not_lt.mp hhigh)]

/-- With a floor, every action takes some time. -/
theorem Tempo.lengthMs_pos {tempo : Tempo ℚ} (hfloor : 1 ≤ tempo.config.floorMs) (timing : Timing) :
    0 < tempo.lengthMs timing := by
  have hnominal : 0 < (tempo.config.effectiveMs timing.durationMs).toNat := by
    unfold PlaybackConfig.effectiveMs
    rw [UInt32.toNat_max]
    exact lt_max_of_lt_right (UInt32.le_iff_toNat_le.mp hfloor)
  exact div_pos (Nat.cast_pos.mpr hnominal) tempo.speed.positive

/-! ## Placing -/

namespace Cursor

variable (c : Cursor ℚ) (trigger : Trigger)

/-- Once an action is placed, the schedule so far ends with it or where it ended before. -/
theorem place_freeMs {lengthMs : ℚ} (hlength : 0 ≤ lengthMs) :
    (c.place trigger lengthMs).2.freeMs =
      max c.freeMs ((c.place trigger lengthMs).1 + lengthMs) := by
  cases trigger with
  | afterPrevious => exact (max_eq_right (le_add_of_nonneg_right hlength)).symm
  | withPrevious => exact exact_greater _ _

/-- Placing an action moves the end of the schedule no further back. -/
theorem le_place_freeMs {lengthMs : ℚ} (hlength : 0 ≤ lengthMs) :
    c.freeMs ≤ (c.place trigger lengthMs).2.freeMs := by
  rw [c.place_freeMs trigger hlength]
  exact le_max_left _ _

theorem place_end_le (lengthMs : ℚ) :
    (c.place trigger lengthMs).1 + lengthMs ≤ (c.place trigger lengthMs).2.freeMs := by
  cases trigger with
  | afterPrevious => exact le_rfl
  | withPrevious =>
      show c.anchorMs + lengthMs ≤ Scalar.greater c.freeMs (c.anchorMs + lengthMs)
      rw [exact_greater]
      exact le_max_right _ _

/-- An action starts where it is anchored for those that come with it. -/
@[simp] theorem place_anchorMs (lengthMs : ℚ) :
    (c.place trigger lengthMs).2.anchorMs = (c.place trigger lengthMs).1 := by
  cases trigger <;> rfl

/-- An action starts before the end of the schedule. -/
theorem place_anchorMs_le_freeMs {lengthMs : ℚ} (hlength : 0 ≤ lengthMs) :
    (c.place trigger lengthMs).2.anchorMs ≤ (c.place trigger lengthMs).2.freeMs := by
  rw [place_anchorMs]
  exact (le_add_of_nonneg_right hlength).trans (c.place_end_le trigger lengthMs)

theorem anchorMs_le_place (hanchor : c.anchorMs ≤ c.freeMs) (lengthMs : ℚ) :
    c.anchorMs ≤ (c.place trigger lengthMs).1 := by
  cases trigger with
  | afterPrevious => exact hanchor
  | withPrevious => exact le_rfl

theorem place_nonneg (hfree : 0 ≤ c.freeMs) (hanchor : 0 ≤ c.anchorMs) (lengthMs : ℚ) :
    0 ≤ (c.place trigger lengthMs).1 := by
  cases trigger with
  | afterPrevious => exact hfree
  | withPrevious => exact hanchor

end Cursor

/-! ## Schedules -/

variable {α : Type} [Scalar α]

/-- The entry occupies a window of a schedule that lasts `totalMs`. -/
structure ScheduledAction.Occupies (φ : ℚ → α) (totalMs : ℚ) (s : ScheduledAction α)
    (startMs lengthMs : ℚ) : Prop where
  starts : s.startMs = φ startMs
  ends : s.endMs = φ (startMs + lengthMs)
  nonneg : 0 ≤ startMs
  le_total : startMs + lengthMs ≤ totalMs

namespace Schedule

variable {φ : ℚ → α} (hφ : IsTimeMap φ) {tempo : Tempo α} {exact : Tempo ℚ}
  (hlength : ∀ timing, tempo.lengthMs timing = φ (exact.lengthMs timing))

include hφ hlength

theorem layOut_windows {c : Cursor ℚ} (hfree : 0 ≤ c.freeMs) (hanchor : 0 ≤ c.anchorMs)
    (actions : List (Action α)) :
    ∃ totalMs : ℚ, c.freeMs ≤ totalMs ∧
      (layOut tempo ⟨φ c.freeMs, φ c.anchorMs⟩ actions).totalMs = φ totalMs ∧
      ∀ (k : ℕ) (s : ScheduledAction α),
        (layOut tempo ⟨φ c.freeMs, φ c.anchorMs⟩ actions).actions[k]? = some s →
        ∃ a startMs, actions[k]? = some a ∧
          s.Occupies φ totalMs startMs (exact.lengthMs a.timing) := by
  induction actions generalizing c with
  | nil => exact ⟨c.freeMs, le_rfl, rfl, fun k s hs => absurd hs (by simp [layOut])⟩
  | cons a rest ih =>
      have hlasts := exact.lengthMs_nonneg a.timing
      have hstart := c.place_nonneg a.timing.trigger hfree hanchor (exact.lengthMs a.timing)
      have hlater := c.le_place_freeMs a.timing.trigger hlasts
      obtain ⟨totalMs, hle, htotal, hentries⟩ :=
        ih (hfree.trans hlater) (hstart.trans_eq (c.place_anchorMs _ _).symm)
      simp only [layOut, hlength, hφ.place_map, ← hφ.map_add]
      refine ⟨totalMs, hlater.trans hle, htotal, fun k s hs => ?_⟩
      cases k with
      | zero =>
          cases hs
          exact ⟨a, _, rfl, rfl, rfl, hstart, (c.place_end_le _ _).trans hle⟩
      | succ k => exact hentries k s hs

/-- The times of a schedule are rational, and each entry occupies a window in it as long as its action
lasts. -/
theorem ofActions_windows (actions : List (Action α)) :
    ∃ totalMs : ℚ, 0 ≤ totalMs ∧ (ofActions tempo actions).totalMs = φ totalMs ∧
      ∀ (k : ℕ) (s : ScheduledAction α), (ofActions tempo actions).actions[k]? = some s →
        ∃ a startMs, actions[k]? = some a ∧
          s.Occupies φ totalMs startMs (exact.lengthMs a.timing) := by
  cases actions with
  | nil => exact ⟨0, le_rfl, hφ.map_zero.symm, fun k s hs => absurd hs (by simp [ofActions])⟩
  | cons a rest =>
      have hzero : ofActions tempo (a :: rest) =
          layOut tempo ⟨φ 0, φ 0⟩ (a.triggered .afterPrevious :: rest) := by
        rw [hφ.map_zero]
        rfl
      obtain ⟨totalMs, hle, htotal, hentries⟩ :=
        layOut_windows hφ hlength (c := ⟨0, 0⟩) le_rfl le_rfl (a.triggered .afterPrevious :: rest)
      rw [hzero]
      refine ⟨totalMs, hle, htotal, fun k s hs => ?_⟩
      obtain ⟨a', startMs, ha', hwindow⟩ := hentries k s hs
      cases k with
      | zero =>
          cases ha'
          exact ⟨a, startMs, rfl, hwindow⟩
      | succ k => exact ⟨a', startMs, ha', hwindow⟩

end Schedule

/-! ## Both kinds of exact numbers -/

theorem isTimeMap_id : IsTimeMap (id : ℚ → ℚ) where
  map_zero := rfl
  map_add _ _ := rfl
  map_sub _ _ := rfl
  lt_iff _ _ := Iff.rfl
  le_iff _ _ := Iff.rfl
  beq_zero _ := rfl
  isNaN_eq _ := rfl
  isFinite_eq _ := rfl

/-- With a floor, every action of a schedule takes some time. -/
theorem Schedule.ofActions_lasts {tempo : Tempo ℚ} (hfloor : 1 ≤ tempo.config.floorMs)
    (actions : List (Action ℚ)) {s : ScheduledAction ℚ}
    (hs : s ∈ (ofActions tempo actions).actions) : s.startMs < s.endMs := by
  obtain ⟨totalMs, -, -, hentries⟩ := ofActions_windows isTimeMap_id (fun _ => rfl) actions
  obtain ⟨k, hk⟩ := List.mem_iff_getElem?.mp hs
  obtain ⟨a, startMs, -, hwindow⟩ := hentries k s hk
  rw [hwindow.starts, hwindow.ends]
  exact lt_add_of_pos_right startMs (tempo.lengthMs_pos hfloor a.timing)

theorem isTimeMap_finite : IsTimeMap finite where
  map_zero := rfl
  map_add _ _ := rfl
  map_sub x y := (ExtendedRat.finite_sub x y).symm
  lt_iff _ _ := ExtendedRat.finite_lt_finite
  le_iff _ _ := ExtendedRat.finite_le_finite
  beq_zero x := by rw [Bool.eq_iff_iff, ExtendedRat.finite_beq_zero_iff, beq_iff_eq]
  isNaN_eq _ := rfl
  isFinite_eq _ := rfl

theorem Speed.exists_rat (s : Speed ExtendedRat) : ∃ q : ℚ, 0 < q ∧ s.value = .finite q := by
  obtain ⟨value, hfinite, hpositive⟩ := s
  cases value with
  | nan | negInf | posInf => cases hfinite
  | finite q => exact ⟨q, ExtendedRat.finite_lt_finite.mp hpositive, rfl⟩

/-- The tempo with its speed as a rational number. -/
theorem Tempo.exists_exact (tempo : Tempo ExtendedRat) :
    ∃ exact : Tempo ℚ, exact.config = tempo.config ∧
      finite exact.speed.value = tempo.speed.value ∧
      ∀ timing, tempo.lengthMs timing = finite (exact.lengthMs timing) := by
  obtain ⟨q, hq, hvalue⟩ := tempo.speed.exists_rat
  refine ⟨⟨tempo.config, q, rfl, hq⟩, rfl, hvalue.symm, fun timing => ?_⟩
  unfold Tempo.lengthMs Speed.scale
  rw [hvalue]
  exact ExtendedRat.finite_div hq.ne'

end PlayDiagram
