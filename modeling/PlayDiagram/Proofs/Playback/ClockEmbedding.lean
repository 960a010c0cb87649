import PlayDiagram.Proofs.Playback.ClockMap
import PlayDiagram.Proofs.Playback.Compilation
import PlayDiagram.Proofs.Playback.Windows

/-!
# Clocks that are driven by any values

The transitions of a compiled play last finite times, whatever its coordinates are.  A clock of it
therefore runs like one in rational numbers (`run_embed`), even if the ticks are infinite or no
numbers: those count as no time at all.
-/

namespace PlayDiagram

open ExtendedRat (finite)

namespace ExtendedRat

/-- The value if it is finite, and else zero. -/
def finiteOrZero : ExtendedRat → ℚ
  | finite x => x
  | nan | negInf | posInf => 0

/-- The value is finite and not negative. -/
def IsLength (x : ExtendedRat) : Prop :=
  ∃ q : ℚ, 0 ≤ q ∧ x = finite q

theorem IsLength.nonneg {x : ExtendedRat} (hx : x.IsLength) : 0 ≤ x.finiteOrZero := by
  obtain ⟨q, hq, rfl⟩ := hx
  exact hq

theorem IsLength.finite_finiteOrZero {x : ExtendedRat} (hx : x.IsLength) :
    finite x.finiteOrZero = x := by
  obtain ⟨q, -, rfl⟩ := hx
  rfl

end ExtendedRat

/-! ## Compiled plays last finite times -/

theorem Schedule.ofActions_isLength (tempo : Tempo ExtendedRat) (actions : List (Action ExtendedRat)) :
    (ofActions tempo actions).totalMs.IsLength := by
  obtain ⟨exact, -, -, hlength⟩ := tempo.exists_exact
  obtain ⟨totalMs, hnonneg, htotal, -⟩ := ofActions_windows isTimeMap_finite hlength actions
  exact ⟨totalMs, hnonneg, htotal⟩

theorem Document.totalMs_isLength {d : Document ExtendedRat} {tempo : Tempo ExtendedRat}
    {t : Transition ExtendedRat} (ht : t ∈ (d.compile tempo).transitions) :
    t.schedule.totalMs.IsLength := by
  obtain ⟨p, -, hschedule⟩ := Document.exists_phase_of_schedule ht
  rw [hschedule]
  exact Schedule.ofActions_isLength tempo p.actions

/-! ## Embedding rational clocks -/

/-- The step with its time as a rational number. -/
def ClockStep.finiteOrZero : ClockStep ExtendedRat → ClockStep ℚ
  | advance deltaMs => .advance deltaMs.finiteOrZero
  | restart => .restart
  | jump index => .jump index

namespace Clock

/-- The clock with its times among the extended numbers. -/
def embed (c : Clock ℚ) : Clock ExtendedRat :=
  { durations := c.durations.map finite, index := c.index, elapsedMs := finite c.elapsedMs }

@[simp] theorem embed_durations_length (c : Clock ℚ) :
    c.embed.durations.length = c.durations.length :=
  List.length_map _

/-- A tick that is not finite counts as no time at all. -/
theorem addTick_finiteOrZero (elapsedMs deltaMs : ExtendedRat) :
    addTick elapsedMs deltaMs = addTick elapsedMs (finite deltaMs.finiteOrZero) := by
  cases deltaMs <;> rfl

theorem advance_finiteOrZero (c : Clock ExtendedRat) (deltaMs : ExtendedRat) :
    c.advance deltaMs = c.advance (finite deltaMs.finiteOrZero) := by
  by_cases hfinished : c.isFinished = true
  · rw [advance_of_isFinished hfinished, advance_of_isFinished hfinished]
  · have hrunning := Bool.eq_false_iff.mpr hfinished
    rw [advance_of_running hrunning, advance_of_running hrunning, ← addTick_finiteOrZero]

@[simp] theorem advance_embed (c : Clock ℚ) (deltaMs : ExtendedRat) :
    c.embed.advance deltaMs = (c.advance deltaMs.finiteOrZero).embed := by
  rw [advance_finiteOrZero]
  exact isTimeMap_finite.advance_mapTimes c deltaMs.finiteOrZero

@[simp] theorem step_embed (c : Clock ℚ) (s : ClockStep ExtendedRat) :
    c.embed.step s = (c.step s.finiteOrZero).embed := by
  cases s with
  | advance deltaMs => exact c.advance_embed deltaMs
  | restart => rfl
  | jump index => exact isTimeMap_finite.step_mapTimes c (.jump index)

@[simp] theorem run_embed (c : Clock ℚ) (steps : List (ClockStep ExtendedRat)) :
    c.embed.run steps = (c.run (steps.map ClockStep.finiteOrZero)).embed := by
  induction steps generalizing c with
  | nil => rfl
  | cons s rest ih => rw [List.map_cons, run_cons, run_cons, step_embed, ih]

@[simp] theorem atOrBefore_embed {c c' : Clock ℚ} : c.embed.AtOrBefore c'.embed ↔ c.AtOrBefore c' := by
  unfold AtOrBefore embed
  rw [ExtendedRat.finite_le_finite]

theorem StandsIn.embed {c : Clock ℚ} {duration : ℚ} (hc : c.StandsIn duration) :
    0 ≤ c.embed.elapsedMs ∧ c.embed.elapsedMs ≤ finite duration ∧
      (c.index + 1 < c.durations.length → 0 < finite duration →
        c.embed.elapsedMs < finite duration) := by
  refine ⟨ExtendedRat.finite_le_finite.mpr hc.elapsed_nonneg,
    ExtendedRat.finite_le_finite.mpr hc.elapsed_le, fun hnext hpos => ?_⟩
  have hpos : 0 < duration := ExtendedRat.finite_lt_finite.mp hpos
  exact ExtendedRat.finite_lt_finite.mpr (hc.elapsed_lt hnext hpos)

/-! ## The clock of a compiled play -/

/-- The clock at the start of a play, in rational numbers. -/
def exactStart (play : CompiledPlay ExtendedRat) : Clock ℚ :=
  { durations := play.transitions.map (·.schedule.totalMs.finiteOrZero), index := 0, elapsedMs := 0 }

variable (d : Document ExtendedRat) (tempo : Tempo ExtendedRat)

@[simp] theorem embed_exactStart :
    (exactStart (d.compile tempo)).embed = start (d.compile tempo) := by
  unfold exactStart embed start
  rw [List.map_map]
  congr 1
  apply List.map_congr_left
  intro t ht
  exact (Document.totalMs_isLength ht).finite_finiteOrZero

@[simp] theorem exactStart_durations_length (play : CompiledPlay ExtendedRat) :
    (exactStart play).durations.length = play.transitions.length :=
  List.length_map _

theorem exactStart_durations_nonneg :
    ∀ duration ∈ (exactStart (d.compile tempo)).durations, 0 ≤ duration := by
  intro duration hduration
  obtain ⟨t, ht, rfl⟩ := List.mem_map.mp hduration
  exact (Document.totalMs_isLength ht).nonneg

theorem exactStart_inPlay (hmoves : (d.compile tempo).transitions ≠ []) :
    (exactStart (d.compile tempo)).InPlay := by
  have hdurations : (exactStart (d.compile tempo)).durations ≠ [] := mt List.map_eq_nil_iff.mp hmoves
  exact .of_start (exactStart_durations_nonneg d tempo) (List.length_pos_of_ne_nil hdurations) rfl

/-- What the transitions last. -/
theorem exactStart_durations_iff {k : ℕ} {duration : ℚ} :
    (exactStart (d.compile tempo)).durations[k]? = some duration ↔
      ∃ t, (d.compile tempo).transitions[k]? = some t ∧ t.schedule.totalMs = finite duration := by
  unfold exactStart
  rw [List.getElem?_map, Option.map_eq_some_iff]
  refine exists_congr fun t => and_congr_right fun ht => ?_
  obtain ⟨q, -, hq⟩ := Document.totalMs_isLength (List.mem_of_getElem? ht)
  rw [hq, ExtendedRat.finite.injEq]
  rfl

end Clock

end PlayDiagram
