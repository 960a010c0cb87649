import PlayDiagram.Proofs.Number.DoubleBounds
import PlayDiagram.Proofs.Playback.Roots
import PlayDiagram.Wire.EncodePlayback

/-!
# The range of times

A speed has to be positive, but at a very low one an action takes longer than doubles can tell.  How low
that is for schedules of fewer than `2 ^ 32` actions is `Speed.times_in_range_iff`.
-/

namespace PlayDiagram

open Float.Model (UnpackedFloat)

/-! ## Levels -/

section Levels

variable {α : Type} [Scalar α]

/-- Times by levels: an action takes no time by more than one level up, as long as there are levels. -/
structure Tempo.HasLevels (tempo : Tempo α) (top : ℕ) (reached : ℕ → α → Prop) : Prop where
  zero : reached 0 0
  higher : ∀ {n x}, reached n x → reached (n + 1) x
  add : ∀ {n x} timing, n < top → reached n x → reached (n + 1) (x + tempo.lengthMs timing)

namespace Tempo.HasLevels

variable {tempo : Tempo α} {top : ℕ} {reached : ℕ → α → Prop} (h : tempo.HasLevels top reached)

include h

theorem afterAction {c : Cursor α} {n : ℕ} (hn : n < top) (hfree : reached n c.freeMs)
    (hanchor : reached n c.anchorMs) (a : Action α) :
    reached (n + 1) (c.afterAction tempo a).freeMs ∧
      reached (n + 1) (c.afterAction tempo a).anchorMs := by
  unfold Cursor.afterAction Cursor.place
  cases a.timing.trigger with
  | afterPrevious => exact ⟨h.add _ hn hfree, h.higher hfree⟩
  | withPrevious =>
      refine ⟨?_, h.higher hanchor⟩
      show reached (n + 1) (Scalar.greater c.freeMs (c.anchorMs + tempo.lengthMs a.timing))
      unfold Scalar.greater
      split_ifs
      · exact h.add _ hn hanchor
      · exact h.higher hfree

theorem after {c : Cursor α} {n : ℕ} (hfree : reached n c.freeMs) (hanchor : reached n c.anchorMs)
    {actions : List (Action α)} (hn : n + actions.length ≤ top) :
    reached (n + actions.length) (c.after tempo actions).freeMs := by
  induction actions generalizing c n with
  | nil => exact hfree
  | cons a rest ih =>
      rw [List.length_cons] at hn ⊢
      obtain ⟨hfree', hanchor'⟩ := h.afterAction (by omega) hfree hanchor a
      rw [Nat.add_comm rest.length, ← Nat.add_assoc]
      exact ih hfree' hanchor' (by omega)

theorem ofActions_totalMs {actions : List (Action α)} (hlength : actions.length ≤ top) :
    reached actions.length (Schedule.ofActions tempo actions).totalMs := by
  have hrooted : (Schedule.rooted actions).length = actions.length := by
    cases actions <;> rfl
  have hafter : reached (0 + (Schedule.rooted actions).length)
      (Cursor.after tempo ⟨0, 0⟩ (Schedule.rooted actions)).freeMs :=
    h.after h.zero h.zero (by omega)
  rwa [Nat.zero_add, hrooted, ← Schedule.layOut_totalMs, ← Schedule.ofActions_eq_layOut] at hafter

end Tempo.HasLevels

end Levels

/-! ## Exact times -/

theorem word_cast_le (n : UInt32) : (n.toNat : ℚ) ≤ 2 ^ 32 - 1 := by
  have hlt : (n.toNat : ℚ) + 1 ≤ 2 ^ 32 := by exact_mod_cast n.toNat_lt
  exact le_sub_iff_add_le.mpr hlt

namespace Schedule

theorem ofActions_totalMs_le (tempo : Tempo ℚ) (actions : List (Action ℚ)) :
    (ofActions tempo actions).totalMs ≤ actions.length * ((2 ^ 32 - 1) / tempo.speed.value) := by
  have hlongest : 0 ≤ (2 ^ 32 - 1) / tempo.speed.value :=
    div_nonneg (by norm_num) tempo.speed.positive.le
  have hlevels : tempo.HasLevels actions.length
      fun n x => x ≤ n * ((2 ^ 32 - 1) / tempo.speed.value) := by
    refine ⟨by simp, fun {n x} hx => ?_, fun {n x} timing _ hx => ?_⟩
    · rw [Nat.cast_succ, add_one_mul]
      exact hx.trans (le_add_of_nonneg_right hlongest)
    · rw [Nat.cast_succ, add_one_mul]
      exact add_le_add hx (div_le_div_of_nonneg_right (word_cast_le _) tempo.speed.positive.le)
  exact hlevels.ofActions_totalMs le_rfl

/-- Actions that follow each other take their time each. -/
theorem ofActions_replicate_totalMs (tempo : Tempo ℚ) {a : Action ℚ}
    (hafter : a.timing.trigger = .afterPrevious) (n : ℕ) :
    (ofActions tempo (List.replicate n a)).totalMs = n * tempo.lengthMs a.timing := by
  induction n with
  | zero => simp [ofActions]
  | succ n ih =>
      have hone : (ofActions tempo [a]).totalMs = tempo.lengthMs a.timing := zero_add _
      obtain ⟨hboth, -⟩ := ofActions_append tempo (List.replicate n a) [a]
      rw [List.replicate_succ', (hboth (Or.inr (Or.inr ⟨a, rfl, hafter⟩))).2, ih, hone, Nat.cast_succ,
        add_one_mul]

end Schedule

/-- Fewer than `2 ^ 32` actions take less than `2 ^ 1024` milliseconds, unless the speed is too low for as
many of the longest ones. -/
theorem Speed.exact_times_lt_iff (speed : Speed ℚ) :
    (∀ (config : PlaybackConfig) (actions : List (Action ℚ)), actions.length < 2 ^ 32 →
      let schedule := Schedule.ofActions ⟨config, speed⟩ actions
      schedule.totalMs < 2 ^ 1024 ∧
        ∀ a ∈ schedule.actions, a.startMs < 2 ^ 1024 ∧ a.endMs < 2 ^ 1024) ↔
      (2 ^ 32 - 1) ^ 2 < speed.value * 2 ^ 1024 := by
  have hspeed := speed.positive
  have hlongest : (2 ^ 32 - 1) * ((2 ^ 32 - 1) / speed.value) < 2 ^ 1024 ↔
      (2 ^ 32 - 1) ^ 2 < speed.value * 2 ^ 1024 := by
    rw [← mul_div_assoc, div_lt_iff₀ hspeed, ← sq, mul_comm]
  rw [← hlongest]
  constructor
  · intro htimes
    let longest : Action ℚ := (Action.freehand ⟨"a1"⟩ .cut ⟨0, 0⟩ ⟨0, 0⟩).lasting 4294967295
    have hwords : ((2 ^ 32 - 1 : ℕ) : ℚ) = 2 ^ 32 - 1 := by norm_num
    have hlength : Tempo.lengthMs ⟨{}, speed⟩ longest.timing = (2 ^ 32 - 1) / speed.value :=
      congrArg (· / speed.value) hwords
    have hcount : (List.replicate (2 ^ 32 - 1) longest).length < 2 ^ 32 := by
      rw [List.length_replicate]
      decide
    have htotal := (htimes {} (List.replicate (2 ^ 32 - 1) longest) hcount).1
    rwa [Schedule.ofActions_replicate_totalMs ⟨{}, speed⟩ rfl, hlength, hwords] at htotal
  · intro hbelow config actions hlength schedule
    have htotal : schedule.totalMs < 2 ^ 1024 := by
      refine ((Schedule.ofActions_totalMs_le _ actions).trans ?_).trans_lt hbelow
      refine mul_le_mul_of_nonneg_right ?_ (div_nonneg (by norm_num) hspeed.le)
      have hcount : (actions.length : ℚ) + 1 ≤ 2 ^ 32 := by exact_mod_cast hlength
      exact le_sub_iff_add_le.mpr hcount
    refine ⟨htotal, fun a ha => ?_⟩
    obtain ⟨-, hstart, hend⟩ := Schedule.ofActions_window ha
    exact ⟨(hstart.trans hend).trans_lt htotal, hend.trans_lt htotal⟩

/-! ## Rounded times -/

/-- The speed in exact arithmetic. -/
def Speed.exact (speed : Speed Float) : Speed ℚ where
  value := exactValue speed.value
  finite := rfl
  positive := exactValue_pos speed.finite speed.positive

section Rounded

variable (tempo : Tempo Float)

/-- At a speed of at least `2 ^ (-960)`, no action takes longer than `2 ^ 992` milliseconds. -/
theorem Tempo.lengthMs_isAtMost (hspeed : 2 ^ (-960 : ℤ) ≤ exactValue tempo.speed.value)
    (timing : Timing) : IsAtMost (2 ^ (992 : ℤ)) (tempo.lengthMs timing).toModel.unpack := by
  have hpos := exactValue_pos tempo.speed.finite tempo.speed.positive
  have hbound : IsRepresentable (2 ^ (992 : ℤ)) := by
    have hone := isRepresentable_mul_two_zpow (k := 1) (p := 992) (by decide) (by decide) (by decide)
      (by decide)
    rwa [Nat.cast_one, one_mul] at hone
  refine isAtMost_word_div _ tempo.speed.finite tempo.speed.positive hbound ?_
  rw [div_le_iff₀ hpos]
  calc ((tempo.config.effectiveMs timing.durationMs).toNat : ℚ) ≤ 2 ^ 32 - 1 := word_cast_le _
    _ ≤ 2 ^ (992 : ℤ) * 2 ^ (-960 : ℤ) := by
        rw [← zpow_add₀ two_ne_zero]
        norm_num
    _ ≤ 2 ^ (992 : ℤ) * exactValue tempo.speed.value :=
        mul_le_mul_of_nonneg_left hspeed (zpow_pos two_pos _).le

/-- What fewer than `2 ^ 32` such actions take adds up to a double, however it is rounded. -/
theorem Schedule.ofActions_isAtMost (hspeed : 2 ^ (-960 : ℤ) ≤ exactValue tempo.speed.value)
    {actions : List (Action Float)} (hlength : actions.length < 2 ^ 32) :
    IsAtMost (actions.length * 2 ^ (992 : ℤ)) (ofActions tempo actions).totalMs.toModel.unpack := by
  have hlevels : tempo.HasLevels (2 ^ 32 - 1)
      fun n x => IsAtMost (n * 2 ^ (992 : ℤ)) x.toModel.unpack := by
    refine ⟨?_, fun {n x} hx => ?_, fun {n x} timing hn hx => ?_⟩
    · show (0 : ℚ) ≤ (0 : ℕ) * 2 ^ (992 : ℤ)
      rw [Nat.cast_zero, zero_mul]
    · refine hx.mono ?_
      rw [Nat.cast_succ, add_one_mul]
      exact le_add_of_nonneg_right (zpow_pos two_pos _).le
    · have hlog : (n + 1).log2 < 32 := (Nat.log2_lt (Nat.succ_ne_zero n)).mpr (by omega)
      have hsum : IsRepresentable (n * 2 ^ (992 : ℤ) + 2 ^ (992 : ℤ)) := by
        rw [← add_one_mul, ← Nat.cast_succ]
        exact isRepresentable_mul_two_zpow (k := n + 1) (Nat.succ_pos n) (by omega) (by decide) (by omega)
      rw [Nat.cast_succ, add_one_mul]
      exact hx.add (tempo.lengthMs_isAtMost hspeed timing) (unpack_pack_toModel x)
        (unpack_pack_toModel _) hsum
  exact hlevels.ofActions_totalMs (by omega)

/-- One action that takes too long makes the schedule infinite. -/
theorem Schedule.ofActions_totalMs_infinite {actions : List (Action Float)} {a : Action Float}
    (ha : a ∈ actions)
    (hlong : exactValue tempo.speed.value * 2 ^ 1024 ≤
      (tempo.config.effectiveMs a.timing.durationMs).toNat) :
    Scalar.isFinite (ofActions tempo actions).totalMs = false := by
  have hpos := exactValue_pos tempo.speed.finite tempo.speed.positive
  have hlength : (tempo.lengthMs a.timing).toModel.unpack = .infinity .positive := by
    refine word_div_eq_infinity tempo.speed.finite tempo.speed.positive ?_
    rwa [le_div_iff₀ hpos, mul_comm]
  obtain ⟨k, hk⟩ := List.mem_iff_getElem?.mp ha
  have hentry := List.mem_of_getElem? (ofActions_getElem? tempo hk)
  obtain ⟨hstart, hle, hend⟩ := ofActions_window hentry
  have hinfinite := float_add_infinity hstart hlength
  rw [Bool.eq_false_iff]
  intro hfinite
  have hfinite' := float_isFinite_of_between (float_le_trans hstart hle) hend hfinite
  replace hfinite' := (congrArg UnpackedFloat.isFinite hinfinite).symm.trans hfinite'
  cases hfinite'

end Rounded

/-- The exact times of fewer than `2 ^ 32` actions stay below `2 ^ 1024` milliseconds at a speed if and only
if as many of the longest actions do.  In doubles they are finite at a speed of at least `2 ^ (-960)`, but
not if a single action exactly takes as long as that. -/
theorem Speed.times_in_range_iff (speed : Speed Float) :
    ((∀ (config : PlaybackConfig) (actions : List (Action ℚ)), actions.length < 2 ^ 32 →
        let schedule := Schedule.ofActions ⟨config, speed.exact⟩ actions
        schedule.totalMs < 2 ^ 1024 ∧
          ∀ a ∈ schedule.actions, a.startMs < 2 ^ 1024 ∧ a.endMs < 2 ^ 1024) ↔
      (2 ^ 32 - 1) ^ 2 < exactValue speed.value * 2 ^ 1024) ∧
    ∀ (config : PlaybackConfig) (actions : List (Action Float)),
      let schedule := Schedule.ofActions ⟨config, speed⟩ actions
      (2 ^ (-960 : ℤ) ≤ exactValue speed.value → actions.length < 2 ^ 32 →
        Scalar.isFinite schedule.totalMs = true ∧ ∀ a ∈ schedule.actions,
          Scalar.isFinite a.startMs = true ∧ Scalar.isFinite a.endMs = true) ∧
      ((∃ a ∈ actions, exactValue speed.value * 2 ^ 1024 ≤
          (config.effectiveMs a.timing.durationMs).toNat) →
        Scalar.isFinite schedule.totalMs = false) := by
  refine ⟨speed.exact.exact_times_lt_iff, ?_⟩
  intro config actions schedule
  refine ⟨fun hspeed hlength => ?_, ?_⟩
  · have htotal : schedule.totalMs.isFinite = true :=
      (Schedule.ofActions_isAtMost ⟨config, speed⟩ hspeed hlength).isFinite
    refine ⟨htotal, fun a ha => ?_⟩
    obtain ⟨hstart, hle, hend⟩ := Schedule.ofActions_window ha
    have hend' := float_isFinite_of_between (float_le_trans hstart hle) hend htotal
    exact ⟨float_isFinite_of_between hstart hle hend', hend'⟩
  · rintro ⟨a, ha, hlong⟩
    exact Schedule.ofActions_totalMs_infinite ⟨config, speed⟩ ha hlong

theorem Encode.float_eq_null {x : Float} (hx : Scalar.isFinite x = false) : Encode.float x = .null := by
  have hnot : ¬x.isFinite = true := Bool.eq_false_iff.mp hx
  unfold Encode.float Json.Value.ofFloat Json.Number.ofFloat?
  rw [dif_neg hnot]

/-- The least positive double is accepted as a speed.  A single cut of the default duration then takes more
than `2 ^ 1024` milliseconds, in doubles an infinite time: a tick of the greatest double does not finish
it, at its end an object that it does not move has not arrived, and it is saved without an end. -/
theorem Speed.least_out_of_range :
    let least : Speed Float := ⟨Float.ofBits 1, by decide, by decide⟩
    let player (name : String) (x y : Float) : CourtObject Float := .new ⟨name⟩ .offensePlayer ⟨x, y⟩
    let cut : Action Float := (Action.freehand ⟨"a1"⟩ .cut ⟨500, 700⟩ ⟨300, 200⟩).performedBy ⟨"P1"⟩
    let phase (name : String) (objects : List (CourtObject Float)) (actions : List (Action Float)) :
        Phase Float :=
      { id := ⟨name⟩, name, objects, actions, ballOwner := .inherit }
    let first := phase "p1" [player "P1" 500 700, player "P2" 200 200] [cut]
    let second := phase "p2" [player "P1" 300 200, player "P2" 800 400] []
    let play := (Document.new .half [first, second]).compile ⟨{}, least⟩
    let c := Clock.start play
    Speed.ofScalar (Float.ofBits 1) = .ok least ∧
      2 ^ 1024 ≤ (Schedule.ofActions ⟨{}, least.exact⟩
        [Action.freehand ⟨"a1"⟩ .cut ⟨500, 700⟩ ⟨300, 200⟩]).totalMs ∧
      (∃ t, play.transitions = [t] ∧ Scalar.isFinite t.schedule.totalMs = false ∧
        Encode.float t.schedule.totalMs = .null ∧
        (t.frameAt t.schedule.totalMs).position? ⟨"P2"⟩ = some ⟨200, 200⟩) ∧
      (c.advance (Float.ofBits 0x7FEFFFFFFFFFFFFF)).isFinished = false := by
  intro least player cut phase first second play c
  have hexact : 2 ^ 1024 ≤ (Schedule.ofActions ⟨{}, least.exact⟩
      [Action.freehand ⟨"a1"⟩ .cut ⟨500, 700⟩ ⟨300, 200⟩]).totalMs := by decide +kernel
  have htotal : Scalar.isFinite (Schedule.ofActions ⟨{}, least⟩ first.actions).totalMs = false := by
    decide +kernel
  refine ⟨dif_pos ⟨by decide, by decide⟩, hexact,
    ⟨_, rfl, htotal, Encode.float_eq_null htotal, ?_⟩, ?_⟩ <;> decide +kernel

end PlayDiagram
