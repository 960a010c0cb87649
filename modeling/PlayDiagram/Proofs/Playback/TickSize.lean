import Mathlib.Order.Bounds.Basic
import Mathlib.Tactic.Ring
import PlayDiagram.Proofs.Playback.ClockPosition

/-!
# Ticks of any size

If every transition has a length, no time is ever dropped before the end.  Where a clock stands then
depends only on how much time it was given, and not on the ticks in which it was (`run_advance_position`).
-/

namespace PlayDiagram.Clock

/-! ## The times of a play -/

theorem start_durations_sum (play : CompiledPlay ℚ) : (start play).durations.sum = play.totalMs := by
  unfold CompiledPlay.totalMs start
  rw [List.sum_eq_foldl, List.foldl_map]

theorem startMs_start (play : CompiledPlay ℚ) (i : ℕ) :
    startMs (start play).durations i =
      ((play.transitions.take i).map (·.schedule.totalMs)).sum := by
  unfold startMs start
  rw [← List.map_take]

theorem start_durations_pos {play : CompiledPlay ℚ}
    (hlengths : ∀ t ∈ play.transitions, 0 < t.schedule.totalMs) :
    ∀ duration ∈ (start play).durations, 0 < duration := by
  intro duration hduration
  obtain ⟨t, ht, rfl⟩ := List.mem_map.mp hduration
  exact hlengths t ht

theorem start_inPlay_of_nonneg {play : CompiledPlay ℚ} (hmoves : play.transitions ≠ [])
    (hlengths : ∀ t ∈ play.transitions, 0 ≤ t.schedule.totalMs) : (start play).InPlay := by
  have hdurations : (start play).durations ≠ [] := mt List.map_eq_nil_iff.mp hmoves
  refine .of_start ?_ (List.length_pos_of_ne_nil hdurations) rfl
  intro duration hduration
  obtain ⟨t, ht, rfl⟩ := List.mem_map.mp hduration
  exact hlengths t ht

theorem start_inPlay {play : CompiledPlay ℚ} (hmoves : play.transitions ≠ [])
    (hlengths : ∀ t ∈ play.transitions, 0 < t.schedule.totalMs) : (start play).InPlay :=
  start_inPlay_of_nonneg hmoves fun t ht => (hlengths t ht).le

/-! ## The time in the whole play -/

/-- The clock's time in the whole play. -/
def playMs (c : Clock ℚ) : ℚ :=
  startMs c.durations c.index + c.elapsedMs

section Stands

variable {c : Clock ℚ}

theorem InPlay.playMs_le_startMs (hc : c.InPlay) : c.playMs ≤ startMs c.durations (c.index + 1) := by
  obtain ⟨duration, hstands⟩ := hc.standsIn
  have helapsed := hstands.elapsed_le
  rw [startMs_succ hstands.lasts, playMs]
  linarith

theorem InPlay.startMs_le_sum (hc : c.InPlay) {i : ℕ} (hi : i ≤ c.durations.length) :
    startMs c.durations i ≤ c.durations.sum := by
  rw [← startMs_length]
  exact startMs_mono hc.durations_nonneg hi

theorem InPlay.playMs_le_sum (hc : c.InPlay) : c.playMs ≤ c.durations.sum := by
  obtain ⟨duration, hstands⟩ := hc.standsIn
  exact hc.playMs_le_startMs.trans (hc.startMs_le_sum hstands.index_lt)

/-- A clock that has come to the end of the play is finished, and no other one is. -/
theorem InPlay.isFinished_iff_playMs (hc : c.InPlay)
    (hpos : ∀ duration ∈ c.durations, 0 < duration) :
    c.isFinished = true ↔ c.playMs = c.durations.sum := by
  obtain ⟨duration, hstands⟩ := hc.standsIn
  have hstart := startMs_succ hstands.lasts
  rw [hstands.isFinished_iff]
  constructor
  · rintro ⟨hlast, helapsed⟩
    rw [← startMs_length, ← hlast, hstart, playMs, helapsed]
  · intro hend
    have hlast : c.index + 1 = c.durations.length := by
      by_contra hne
      have hindex := hstands.index_lt
      have hbefore := hstands.elapsed_lt (by omega) (hpos _ (List.mem_of_getElem? hstands.lasts))
      have hsum := hc.startMs_le_sum hstands.index_lt
      rw [hstart, ← hend, playMs] at hsum
      linarith
    refine ⟨hlast, ?_⟩
    rw [← startMs_length, ← hlast, hstart, playMs] at hend
    linarith

/-- The clock stands in the last of the transitions that have started. -/
theorem InPlay.index_isGreatest (hc : c.InPlay) (hpos : ∀ duration ∈ c.durations, 0 < duration) :
    IsGreatest {i | i < c.durations.length ∧ startMs c.durations i ≤ c.playMs} c.index := by
  obtain ⟨duration, hstands⟩ := hc.standsIn
  constructor
  · exact ⟨hstands.index_lt, le_add_of_nonneg_right hstands.elapsed_nonneg⟩
  · rintro i ⟨hi, hstarted⟩
    by_contra hlater
    have hbefore := hstands.elapsed_lt (by omega) (hpos _ (List.mem_of_getElem? hstands.lasts))
    have hnext : startMs c.durations (c.index + 1) ≤ startMs c.durations i :=
      startMs_mono hc.durations_nonneg (not_le.mp hlater)
    rw [startMs_succ hstands.lasts] at hnext
    rw [playMs] at hstarted
    linarith

/-- Clocks of one play that have come equally far are the same. -/
theorem InPlay.eq_of_playMs_eq {c' : Clock ℚ} (hc : c.InPlay) (hc' : c'.InPlay)
    (hpos : ∀ duration ∈ c.durations, 0 < duration) (hdurations : c'.durations = c.durations)
    (hplayMs : c'.playMs = c.playMs) : c' = c := by
  have hgreatest := hc.index_isGreatest hpos
  have hgreatest' := hc'.index_isGreatest (hdurations ▸ hpos)
  rw [hdurations, hplayMs] at hgreatest'
  have hindex : c'.index = c.index := hgreatest'.unique hgreatest
  have helapsed : c'.elapsedMs = c.elapsedMs := by
    rw [playMs, playMs, hdurations, hindex] at hplayMs
    exact add_left_cancel hplayMs
  obtain ⟨durations, index, elapsedMs⟩ := c
  obtain ⟨durations', index', elapsedMs'⟩ := c'
  cases hdurations
  cases hindex
  cases helapsed
  rfl

/-- A tick adds to the time in the play, up to the end of it. -/
theorem InPlay.playMs_advance (hc : c.InPlay) (hpos : ∀ duration ∈ c.durations, 0 < duration)
    (deltaMs : ℚ) :
    (c.advance deltaMs).playMs = min (c.playMs + max 0 deltaMs) c.durations.sum := by
  have hdelta : 0 ≤ max 0 deltaMs := le_max_left 0 deltaMs
  by_cases hfinished : c.isFinished = true
  · have hend := (hc.isFinished_iff_playMs hpos).mp hfinished
    rw [advance_of_isFinished hfinished, hend, min_eq_right (le_add_of_nonneg_right hdelta)]
  · obtain ⟨k, rest, duration, hadvance, hlanding⟩ :=
      hc.advance_landing (Bool.eq_false_iff.mpr hfinished) deltaMs
    have hstands := hlanding.standsIn hc.durations_nonneg
    have hstart := startMs_add c.durations c.index k
    have hplayMs : (c.advance deltaMs).playMs = startMs c.durations (c.index + k) + rest := by
      rw [hadvance, playMs]
    have hle := (hc.advance deltaMs).playMs_le_sum
    rw [advance_durations, hplayMs] at hle
    rw [hplayMs, playMs]
    rcases hlanding.ends with ⟨-, hrest, -⟩ | ⟨-, hzero, -⟩ | ⟨hlast, hrest⟩
    · rw [hstart, hrest] at hle ⊢
      rw [min_eq_left (by linarith)]
      ring
    · exact absurd hzero (hpos _ (List.mem_of_getElem? hstands.lasts)).ne'
    · have hindex : c.index + k + 1 = c.durations.length := by
        have hbefore : c.index + k < c.durations.length := hstands.index_lt
        rw [List.length_drop] at hlast
        omega
      have hsum : c.durations.sum = startMs c.durations (c.index + k) + duration := by
        rw [← startMs_length, ← hindex]
        exact startMs_succ hstands.lasts
      rw [hsum, hrest, ← min_add_add_left, hstart]
      congr 1
      ring

/-- Ticks add up. -/
theorem InPlay.playMs_run_advance (hc : c.InPlay) (hpos : ∀ duration ∈ c.durations, 0 < duration)
    {deltas : List ℚ} (hdeltas : ∀ deltaMs ∈ deltas, 0 ≤ deltaMs) :
    (c.run (deltas.map .advance)).playMs = min (c.playMs + deltas.sum) c.durations.sum := by
  induction deltas generalizing c with
  | nil =>
      rw [List.sum_nil, add_zero, min_eq_left hc.playMs_le_sum]
      rfl
  | cons deltaMs rest ih =>
      have hdelta : 0 ≤ deltaMs := hdeltas deltaMs List.mem_cons_self
      have hrest : ∀ deltaMs ∈ rest, 0 ≤ deltaMs := fun x hx =>
        hdeltas x (List.mem_cons_of_mem deltaMs hx)
      have hsum : c.durations.sum ≤ c.durations.sum + rest.sum :=
        le_add_of_nonneg_right (List.sum_nonneg hrest)
      have htick := ih (hc.advance deltaMs) (by rwa [advance_durations]) hrest
      rw [hc.playMs_advance hpos, advance_durations, max_eq_right hdelta, ← min_add_add_right,
        min_assoc, min_eq_right hsum, add_assoc] at htick
      rw [List.map_cons, run_cons, List.sum_cons]
      exact htick

/-- Two ticks are as good as one of both lengths. -/
theorem InPlay.advance_advance (hc : c.InPlay) (hpos : ∀ duration ∈ c.durations, 0 < duration)
    {a b : ℚ} (ha : 0 ≤ a) (hb : 0 ≤ b) : (c.advance a).advance b = c.advance (a + b) := by
  have htwo : ∀ deltaMs ∈ [a, b], 0 ≤ deltaMs := by
    intro deltaMs hdelta
    rcases List.mem_pair.mp hdelta with rfl | rfl
    · exact ha
    · exact hb
  have hplayMs : ((c.advance a).advance b).playMs = (c.advance (a + b)).playMs := by
    have hrun : ((c.advance a).advance b).playMs = _ := hc.playMs_run_advance hpos htwo
    rw [hrun, hc.playMs_advance hpos, max_eq_right (add_nonneg ha hb), List.sum_pair]
  refine (hc.advance (a + b)).eq_of_playMs_eq ((hc.advance a).advance b) ?_ ?_ hplayMs
  · rwa [advance_durations]
  · simp

end Stands

/-- The clock of a play whose transitions all have a length stands, after any ticks, where the sum of the
ticks takes it: in the last transition that has started by then, or at the end of the play. -/
theorem run_advance_position (d : Document ℚ) (tempo : Tempo ℚ)
    (hmoves : (d.compile tempo).transitions ≠ [])
    (hlengths : ∀ t ∈ (d.compile tempo).transitions, 0 < t.schedule.totalMs)
    {deltas : List ℚ} (hdeltas : ∀ deltaMs ∈ deltas, 0 ≤ deltaMs) :
    let play := d.compile tempo
    let c := (start play).run (deltas.map .advance)
    let startOf (i : ℕ) : ℚ := ((play.transitions.take i).map (·.schedule.totalMs)).sum
    let now := min deltas.sum play.totalMs
    IsGreatest {i | i < play.transitions.length ∧ startOf i ≤ now} c.index ∧
      c.elapsedMs = now - startOf c.index ∧
      (c.isFinished = true ↔ play.totalMs ≤ deltas.sum) ∧
      ∀ a b : ℚ, 0 ≤ a → 0 ≤ b → (c.advance a).advance b = c.advance (a + b) := by
  intro play c startOf now
  have hstart : (start play).InPlay := start_inPlay hmoves hlengths
  have hc : c.InPlay := hstart.run _
  have hdurations : c.durations = (start play).durations := run_durations _ _
  have hpos : ∀ duration ∈ c.durations, 0 < duration := hdurations ▸ start_durations_pos hlengths
  have hlength : c.durations.length = play.transitions.length := by
    rw [hdurations]
    exact List.length_map _
  have hstartOf : ∀ i, startMs c.durations i = startOf i := by
    rw [hdurations]
    exact startMs_start play
  have hsum : c.durations.sum = play.totalMs := by
    rw [hdurations, start_durations_sum]
  have hnow : c.playMs = now := by
    have hrun := hstart.playMs_run_advance (start_durations_pos hlengths) hdeltas
    have hzero : (start play).playMs = 0 := add_zero 0
    rwa [hzero, zero_add, start_durations_sum] at hrun
  refine ⟨?_, ?_, ?_, fun a b ha hb => hc.advance_advance hpos ha hb⟩
  · have hgreatest := hc.index_isGreatest hpos
    simpa only [hlength, hstartOf, hnow] using hgreatest
  · rw [← hnow, ← hstartOf, playMs, add_sub_cancel_left]
  · rw [hc.isFinished_iff_playMs hpos, hnow, hsum]
    exact min_eq_right_iff

/-- Three ticks take the clock from the first transition over into the second one, as one tick of 450 ms
would. -/
theorem run_advance_position_threeTicks :
    let phase (name : String) (actions : List (Action ℚ)) : Phase ℚ :=
      { id := ⟨name⟩, name, objects := [], actions, ballOwner := .inherit }
    let cut : Action ℚ := .freehand ⟨"a1"⟩ .cut ⟨0, 0⟩ ⟨0, 0⟩
    let d : Document ℚ := .new .half [phase "p1" [cut.lasting 600], phase "p2" [cut], phase "p3" []]
    let tempo : Tempo ℚ := ⟨{}, 2, rfl, by decide⟩
    let c := (start (d.compile tempo)).run ([200, 0, 250].map .advance)
    (d.compile tempo).transitions.map (·.schedule.totalMs) = [300, 400] ∧
      c.index = 1 ∧ c.elapsedMs = 450 - 300 ∧ c.isFinished = false ∧
      (c.advance 150).advance 100 = c.advance (150 + 100) := by
  intro phase cut d tempo c
  have hlasts : (d.compile tempo).transitions.map (·.schedule.totalMs) = [300, 400] := by
    decide +kernel
  have htotal : (d.compile tempo).totalMs = 700 := by decide +kernel
  have hsum : [(200 : ℚ), 0, 250].sum = 450 := by decide +kernel
  have hlengths : ∀ t ∈ (d.compile tempo).transitions, 0 < t.schedule.totalMs := by decide +kernel
  obtain ⟨hgreatest, helapsed, hfinished, hadd⟩ :=
    run_advance_position d tempo (List.cons_ne_nil _ _) hlengths
      (by decide : ∀ deltaMs ∈ [(200 : ℚ), 0, 250], 0 ≤ deltaMs)
  rw [htotal, hsum] at hgreatest helapsed hfinished
  have hbefore : c.index < 2 := hgreatest.1.1
  have hstarted : 1 ≤ c.index := hgreatest.2 ⟨by decide, by decide +kernel⟩
  have hindex : c.index = 1 := by omega
  replace helapsed : c.elapsedMs = _ := helapsed
  rw [hindex] at helapsed
  refine ⟨hlasts, hindex, helapsed.trans (by decide +kernel), ?_, ?_⟩
  · rw [Bool.eq_false_iff, Ne, hfinished]
    decide +kernel
  · exact hadd 150 100 (by decide) (by decide)

end PlayDiagram.Clock
