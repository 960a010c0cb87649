import PlayDiagram.Playback.Clock
import PlayDiagram.Proofs.Number.LawfulScalar
import PlayDiagram.Proofs.Playback.Compilation

/-!
# Windows within their schedule

The times of a schedule are sums of lengths, each of which the running program rounds.  The windows lie
within the schedule nevertheless (`Schedule.ofActions_window`), so that no transition of a play takes less
than no time (`Document.totalMs_nonneg`).  Every time stands for an instant of the transition
(`Transition.instant_between`), and a later one never for an earlier instant (`Transition.instant_mono`).
Only laws that rounding keeps are used, so that all this holds in doubles as in exact numbers.
-/

namespace PlayDiagram

variable {α : Type} [Scalar α] [LawfulScalar α]

theorem Tempo.lengthMs_nonneg (tempo : Tempo α) (timing : Timing) : 0 ≤ tempo.lengthMs timing :=
  LawfulScalar.div_nonneg _ tempo.speed.finite tempo.speed.positive

/-! ## Placing -/

/-- The cursor has not gone back before the start of the transition. -/
structure Cursor.IsNonneg (c : Cursor α) : Prop where
  freeMs : 0 ≤ c.freeMs
  anchorMs : 0 ≤ c.anchorMs

/-- What placing an action does to a cursor and to the schedule so far. -/
structure Cursor.Places (c : Cursor α) (startMs lengthMs : α) (next : Cursor α) : Prop where
  isNonneg : next.IsNonneg
  start_nonneg : 0 ≤ startMs
  start_le_end : startMs ≤ startMs + lengthMs
  end_le_freeMs : startMs + lengthMs ≤ next.freeMs
  freeMs_le : c.freeMs ≤ next.freeMs

/-- An action takes place between the start of the transition and the end of the schedule so far, which
moves no further back. -/
theorem Cursor.IsNonneg.places {c : Cursor α} (hc : c.IsNonneg) (trigger : Trigger) {lengthMs : α}
    (hlength : 0 ≤ lengthMs) :
    c.Places (c.place trigger lengthMs).1 lengthMs (c.place trigger lengthMs).2 := by
  have hfree := LawfulScalar.le_add hc.freeMs hlength
  have hanchor := LawfulScalar.le_add hc.anchorMs hlength
  obtain ⟨hfreeNumber, hfreeNumber'⟩ := LawfulScalar.isNaN_of_le hfree
  obtain ⟨-, hanchorNumber⟩ := LawfulScalar.isNaN_of_le hanchor
  cases trigger with
  | afterPrevious =>
      exact ⟨⟨LawfulScalar.le_trans hc.freeMs hfree, hc.freeMs⟩, hc.freeMs, hfree,
        LawfulScalar.le_refl hfreeNumber', hfree⟩
  | withPrevious =>
      have hfirst := LawfulScalar.le_greater_left hfreeNumber (c.anchorMs + lengthMs)
      have hsecond := LawfulScalar.le_greater_right hfreeNumber hanchorNumber
      exact ⟨⟨LawfulScalar.le_trans hc.freeMs hfirst, hc.anchorMs⟩, hc.anchorMs, hanchor, hsecond,
        hfirst⟩

namespace Schedule

variable {tempo : Tempo α}

/-- What is laid out ends no earlier than the cursor stood, and all its windows lie before its end. -/
theorem layOut_window {c : Cursor α} (hc : c.IsNonneg) (actions : List (Action α)) :
    c.freeMs ≤ (layOut tempo c actions).totalMs ∧
      ∀ s ∈ (layOut tempo c actions).actions,
        0 ≤ s.startMs ∧ s.startMs ≤ s.endMs ∧ s.endMs ≤ (layOut tempo c actions).totalMs := by
  induction actions generalizing c with
  | nil =>
      obtain ⟨-, hnumber⟩ := LawfulScalar.isNaN_of_le hc.freeMs
      simp only [layOut]
      exact ⟨LawfulScalar.le_refl hnumber, fun s hs => absurd hs List.not_mem_nil⟩
  | cons a rest ih =>
      have hplaces := hc.places a.timing.trigger (tempo.lengthMs_nonneg a.timing)
      obtain ⟨htotal, hwindows⟩ := ih hplaces.isNonneg
      simp only [layOut]
      refine ⟨LawfulScalar.le_trans hplaces.freeMs_le htotal, fun s hs => ?_⟩
      rcases List.mem_cons.mp hs with rfl | hs
      · exact ⟨hplaces.start_nonneg, hplaces.start_le_end,
          LawfulScalar.le_trans hplaces.end_le_freeMs htotal⟩
      · exact hwindows s hs

theorem ofActions_window_and_total (tempo : Tempo α) (actions : List (Action α)) :
    0 ≤ (ofActions tempo actions).totalMs ∧
      ∀ s ∈ (ofActions tempo actions).actions,
        0 ≤ s.startMs ∧ s.startMs ≤ s.endMs ∧ s.endMs ≤ (ofActions tempo actions).totalMs := by
  have hstart : Cursor.IsNonneg (⟨0, 0⟩ : Cursor α) :=
    ⟨LawfulScalar.zero_le_zero, LawfulScalar.zero_le_zero⟩
  cases actions with
  | nil => exact ⟨LawfulScalar.zero_le_zero, fun s hs => absurd hs List.not_mem_nil⟩
  | cons a rest => exact layOut_window hstart (a.triggered .afterPrevious :: rest)

theorem ofActions_totalMs_nonneg (tempo : Tempo α) (actions : List (Action α)) :
    0 ≤ (ofActions tempo actions).totalMs :=
  (ofActions_window_and_total tempo actions).1

/-- No entry ends before it starts, and all lie within the schedule. -/
theorem ofActions_window {actions : List (Action α)} {s : ScheduledAction α}
    (hs : s ∈ (ofActions tempo actions).actions) :
    0 ≤ s.startMs ∧ s.startMs ≤ s.endMs ∧ s.endMs ≤ (ofActions tempo actions).totalMs :=
  (ofActions_window_and_total tempo actions).2 s hs

end Schedule

/-! ## Plays -/

theorem Transition.between_totalMs_nonneg (tempo : Tempo α) (index : ℕ)
    (departing arriving : Phase α) (owner : Option ObjectId) :
    0 ≤ (between tempo index departing arriving owner).schedule.totalMs :=
  Schedule.ofActions_totalMs_nonneg tempo departing.actions

/-- No transition of a play has a length below zero, or one that is no number. -/
theorem Document.totalMs_nonneg {d : Document α} {tempo : Tempo α} {t : Transition α}
    (ht : t ∈ (d.compile tempo).transitions) : 0 ≤ t.schedule.totalMs := by
  obtain ⟨p, -, hschedule⟩ := exists_phase_of_schedule ht
  rw [hschedule]
  exact Schedule.ofActions_totalMs_nonneg tempo p.actions

theorem Clock.start_durations_nonneg (d : Document α) (tempo : Tempo α) :
    ∀ duration ∈ (start (d.compile tempo)).durations, 0 ≤ duration := by
  intro duration hduration
  obtain ⟨t, ht, rfl⟩ := List.mem_map.mp hduration
  exact Document.totalMs_nonneg ht

/-! ## Instants -/

namespace Transition

variable {transition : Transition α} {s t : α}

omit [LawfulScalar α] in
theorem instant_of_isNaN (ht : Scalar.isNaN t = true) : transition.instant t = 0 :=
  if_pos ht

omit [LawfulScalar α] in
theorem instant_of_number (ht : Scalar.isNaN t = false) :
    transition.instant t = Scalar.clamp 0 transition.schedule.totalMs t :=
  if_neg (ne_true_of_eq_false ht)

/-- A time within the transition stands for itself. -/
theorem instant_of_between (hstart : 0 ≤ t) (hend : t ≤ transition.schedule.totalMs) :
    transition.instant t = t := by
  rw [instant_of_number (LawfulScalar.isNaN_of_le hstart).2, LawfulScalar.clamp_of_between hstart hend]

variable (htotal : 0 ≤ transition.schedule.totalMs)

include htotal

/-- Every time stands for one within the transition. -/
theorem instant_between (t : α) :
    0 ≤ transition.instant t ∧ transition.instant t ≤ transition.schedule.totalMs := by
  cases ht : Scalar.isNaN t with
  | true =>
      rw [instant_of_isNaN ht]
      exact ⟨LawfulScalar.zero_le_zero, htotal⟩
  | false =>
      rw [instant_of_number ht]
      exact LawfulScalar.clamp_between htotal ht

/-- A later time stands for a later instant, or for the same. -/
theorem instant_mono (hst : s ≤ t) : transition.instant s ≤ transition.instant t := by
  obtain ⟨hs, ht⟩ := LawfulScalar.isNaN_of_le hst
  rw [instant_of_number hs, instant_of_number ht]
  exact LawfulScalar.clamp_mono LawfulScalar.isNaN_zero (LawfulScalar.isNaN_of_le htotal).2 hst

/-- The end of the transition stands for itself. -/
theorem instant_totalMs :
    transition.instant transition.schedule.totalMs = transition.schedule.totalMs :=
  instant_of_between htotal (LawfulScalar.le_refl (LawfulScalar.isNaN_of_le htotal).2)

end Transition

end PlayDiagram
