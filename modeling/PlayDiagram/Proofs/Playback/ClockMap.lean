import PlayDiagram.Proofs.Playback.ClockPosition
import PlayDiagram.Proofs.Playback.TimeMap

/-!
# Clocks under maps of times

A map of times takes the run of one clock to the run of another (`IsTimeMap.run_mapTimes`).  The two
stand in the same transition all along, and report the same.
-/

namespace PlayDiagram

variable {α β : Type}

def Clock.mapTimes (φ : α → β) (c : Clock α) : Clock β :=
  { durations := c.durations.map φ, index := c.index, elapsedMs := φ c.elapsedMs }

def ClockStep.mapTimes (φ : α → β) : ClockStep α → ClockStep β
  | advance deltaMs => .advance (φ deltaMs)
  | restart => .restart
  | jump index => .jump index

namespace IsTimeMap

variable [Scalar α] [Scalar β] {φ : α → β} (hφ : IsTimeMap φ)

include hφ

theorem rollOver_map (index : ℕ) (elapsedMs : α) (durations : List α) :
    Clock.rollOver index (φ elapsedMs) (durations.map φ) =
      ((Clock.rollOver index elapsedMs durations).1,
        φ (Clock.rollOver index elapsedMs durations).2) := by
  induction durations generalizing index elapsedMs with
  | nil => rfl
  | cons first durations ih =>
      cases durations with
      | nil => simp only [List.map_cons, List.map_nil, Clock.rollOver, hφ.lesser_map]
      | cons second durations =>
          rw [List.map_cons, List.map_cons, Clock.rollOver, Clock.rollOver, ← List.map_cons,
            ← hφ.map_sub, ih]
          simp only [hφ.le_iff, hφ.beq_zero]
          by_cases hover : first ≤ elapsedMs
          · by_cases hsecond : (second == 0) = true
            · simp only [hover, hsecond, if_true, hφ.map_zero]
            · simp only [hover, hsecond, if_true, if_false, Bool.false_eq_true]
          · simp only [hover, if_false]

theorem addTick_map (elapsedMs deltaMs : α) :
    Clock.addTick (φ elapsedMs) (φ deltaMs) = φ (Clock.addTick elapsedMs deltaMs) := by
  simp only [Clock.addTick, hφ.isFinite_eq, hφ.pos_iff, ← hφ.map_add, apply_ite φ]

theorem isFinished_mapTimes (c : Clock α) : (c.mapTimes φ).isFinished = c.isFinished := by
  unfold Clock.isFinished Clock.mapTimes
  rw [List.getLast?_map, List.length_map]
  cases c.durations.getLast? with
  | none => rfl
  | some last => simp only [Option.map_some, hφ.le_iff]

theorem advance_mapTimes (c : Clock α) (deltaMs : α) :
    (c.mapTimes φ).advance (φ deltaMs) = (c.advance deltaMs).mapTimes φ := by
  have hsame := hφ.isFinished_mapTimes c
  by_cases hfinished : c.isFinished = true
  · rw [Clock.advance_of_isFinished hfinished, Clock.advance_of_isFinished (hsame.trans hfinished)]
  · have hrunning := Bool.eq_false_iff.mpr hfinished
    rw [Clock.advance_of_running hrunning, Clock.advance_of_running (hsame.trans hrunning)]
    simp only [Clock.mapTimes, hφ.addTick_map, ← List.map_drop, hφ.rollOver_map]

/-- Clocks whose times are mapped report the same about a tick. -/
theorem tick_snd_mapTimes (c : Clock α) (deltaMs : α) :
    ((c.mapTimes φ).tick (φ deltaMs)).2 = (c.tick deltaMs).2 := by
  rw [Clock.tick_snd, Clock.tick_snd, hφ.advance_mapTimes, hφ.isFinished_mapTimes]

theorem jump_mapTimes (c : Clock α) (index : ℕ) :
    (c.mapTimes φ).jump index =
      if index < c.durations.length then .ok (({ c with index, elapsedMs := 0 } : Clock α).mapTimes φ)
      else .error (.phaseOutOfRange index c.durations.length) := by
  simp only [Clock.jump, Clock.mapTimes, List.length_map, hφ.map_zero]

theorem step_mapTimes (c : Clock α) (s : ClockStep α) :
    (c.mapTimes φ).step (s.mapTimes φ) = (c.step s).mapTimes φ := by
  cases s with
  | advance deltaMs => exact hφ.advance_mapTimes c deltaMs
  | restart => simp only [Clock.step, ClockStep.mapTimes, Clock.restart, Clock.mapTimes, hφ.map_zero]
  | jump index =>
      show ((c.mapTimes φ).jump index).toOption.getD (c.mapTimes φ) =
        ((c.jump index).toOption.getD c).mapTimes φ
      rw [hφ.jump_mapTimes, Clock.jump]
      by_cases hindex : index < c.durations.length
      · rw [if_pos hindex, if_pos hindex]
        rfl
      · rw [if_neg hindex, if_neg hindex]
        rfl

theorem run_mapTimes (c : Clock α) (steps : List (ClockStep α)) :
    (c.mapTimes φ).run (steps.map (·.mapTimes φ)) = (c.run steps).mapTimes φ := by
  induction steps generalizing c with
  | nil => rfl
  | cons s rest ih => rw [List.map_cons, Clock.run_cons, Clock.run_cons, hφ.step_mapTimes, ih]

end IsTimeMap

end PlayDiagram
