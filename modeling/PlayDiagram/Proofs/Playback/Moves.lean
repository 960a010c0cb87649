import PlayDiagram.Proofs.Playback.Windows

/-!
# Moves in exact time

With times and coordinates in exact numbers, an object is moved by the actions that it performs:
each takes it along a straight path, in a window of the time axis.  `Phase.HasMove` reads the moves
of an object off the actions of the phase and the windows of the schedule.
-/

namespace PlayDiagram

/-- The point that lies a fraction of the way from one point to another. -/
def Point.partWay (p q : Point ℚ) (fraction : ℚ) : Point ℚ :=
  ⟨p.x + (q.x - p.x) * fraction, p.y + (q.y - p.y) * fraction⟩

@[simp] theorem Point.partWay_one (p q : Point ℚ) : p.partWay q 1 = q := by
  simp [partWay]

@[simp] theorem Point.partWay_self (p : Point ℚ) (fraction : ℚ) : p.partWay p fraction = p := by
  simp [partWay]

/-- A path that an object follows, and the window in which it does. -/
structure Move where
  origin : Point ℚ
  target : Point ℚ
  startMs : ℚ
  endMs : ℚ
  deriving DecidableEq

/-- The instant lies in the window, its ends included. -/
def Move.Covers (m : Move) (t : ℚ) : Prop :=
  m.startMs ≤ t ∧ t ≤ m.endMs

/-- Where the move takes its object at an instant of the window: as far along the path as the instant
is into the window.  A window without length is over as soon as it starts. -/
def Move.pointAt (m : Move) (t : ℚ) : Point ℚ :=
  if m.startMs = m.endMs then m.target
  else m.origin.partWay m.target ((t - m.startMs) / (m.endMs - m.startMs))

/-- The object performs the action at an index of the phase, and this is its move in it. -/
def Phase.HasMove
    (tempo : Tempo ℚ) (p : Phase ℚ) (id : ObjectId) (k : ℕ) (m : Move) : Prop :=
  ∃ a s, p.actions[k]? = some a ∧ a.performer = some id ∧
    (Schedule.ofActions tempo p.actions).actions[k]? = some s ∧
    m = ⟨a.origin, a.target, s.startMs, s.endMs⟩

/-- The move that a scheduled action depicts. -/
def ScheduledAction.move (s : ScheduledAction ℚ) : Move :=
  ⟨s.origin, s.target, s.startMs, s.endMs⟩

theorem ScheduledAction.contains_iff {s : ScheduledAction ℚ} {t : ℚ} :
    s.contains t = true ↔ s.move.Covers t := by
  unfold ScheduledAction.contains Move.Covers
  rw [Bool.and_eq_true, decide_eq_true_iff, decide_eq_true_iff]
  rfl

/-- The moves of an object are those that its entries in the schedule depict. -/
theorem Phase.hasMove_iff {tempo : Tempo ℚ} {p : Phase ℚ} {id : ObjectId} {k : ℕ} {m : Move} :
    p.HasMove tempo id k m ↔
      ∃ s, (Schedule.ofActions tempo p.actions).actions[k]? = some s ∧
        s.performer = some id ∧ s.move = m := by
  constructor
  · rintro ⟨a, s, ha, hperformer, hs, rfl⟩
    obtain ⟨a', ha', hdepicts⟩ := Schedule.exists_action_of_entry hs
    rw [ha] at ha'
    cases ha'
    refine ⟨s, hs, hdepicts.performer.trans hperformer, ?_⟩
    rw [ScheduledAction.move, hdepicts.origin, hdepicts.target]
  · rintro ⟨s, hs, hperformer, rfl⟩
    obtain ⟨a, ha, hdepicts⟩ := Schedule.exists_action_of_entry hs
    refine ⟨a, s, ha, hdepicts.performer.symm.trans hperformer, hs, ?_⟩
    rw [ScheduledAction.move, hdepicts.origin, hdepicts.target]

theorem Point.lerp_eq_partWay (p q : Point ℚ) {fraction : ℚ} (hzero : 0 ≤ fraction)
    (hone : fraction ≤ 1) : p.lerp q fraction = p.partWay q fraction := by
  unfold Point.lerp
  by_cases hstart : fraction ≤ 0
  · have hfraction : fraction = 0 := le_antisymm hstart hzero
    rw [if_pos (Or.inr hstart), hfraction]
    simp [partWay]
  · have hpositive : ¬(Scalar.isNaN fraction = true ∨ fraction ≤ 0) :=
      not_or.mpr ⟨Bool.false_ne_true, hstart⟩
    rw [if_neg hpositive]
    by_cases hfinish : 1 ≤ fraction
    · have hfraction : fraction = 1 := le_antisymm hone hfinish
      rw [if_pos hfinish, hfraction]
      simp [partWay]
    · rw [if_neg hfinish]
      rfl

/-- An object is where its move takes it. -/
theorem ScheduledAction.positionAt_eq {s : ScheduledAction ℚ} {t : ℚ} (hcovers : s.move.Covers t) :
    s.positionAt t = s.move.pointAt t := by
  obtain ⟨hstart, hend⟩ := hcovers
  unfold ScheduledAction.positionAt ScheduledAction.progress ScheduledAction.durationMs Move.pointAt
  by_cases hlength : s.move.startMs = s.move.endMs
  · have hspan : s.endMs - s.startMs ≤ 0 := sub_nonpos.mpr hlength.ge
    rw [if_pos hlength]
    simp only [if_pos hspan]
    exact (Point.lerp_eq_partWay _ _ zero_le_one le_rfl).trans (Point.partWay_one _ _)
  · have hlt : s.startMs < s.endMs := lt_of_le_of_ne (hstart.trans hend) hlength
    have hspan : ¬s.endMs - s.startMs ≤ 0 := not_le.mpr (sub_pos.mpr hlt)
    have hzero : 0 ≤ (t - s.startMs) / (s.endMs - s.startMs) :=
      div_nonneg (sub_nonneg.mpr hstart) (sub_pos.mpr hlt).le
    have hone : (t - s.startMs) / (s.endMs - s.startMs) ≤ 1 :=
      div_le_one_of_le₀ (sub_le_sub_right hend _) (sub_pos.mpr hlt).le
    rw [if_neg hlength]
    simp only [if_neg hspan]
    rw [exact_clamp, max_eq_right hzero, min_eq_right hone]
    exact Point.lerp_eq_partWay _ _ hzero hone

end PlayDiagram
