import PlayDiagram.Proofs.Playback.RollOver

/-!
# The position of a clock

Wherever a clock is driven, it stands in one of the transitions of its play, and before the end of it
as long as another one follows (`InPlay`).  A tick moves it forward or not at all
(`InPlay.atOrBefore_advance`).
-/

namespace PlayDiagram.Clock

section Durations

variable {α : Type} [Scalar α]

theorem advance_of_isFinished {c : Clock α} (hfinished : c.isFinished = true) (deltaMs : α) :
    c.advance deltaMs = c := by
  simp [advance, tick, hfinished]

theorem advance_of_running {c : Clock α} (hrunning : c.isFinished = false) (deltaMs : α) :
    c.advance deltaMs =
      { c with
        index := (rollOver c.index (addTick c.elapsedMs deltaMs) (c.durations.drop c.index)).1
        elapsedMs :=
          (rollOver c.index (addTick c.elapsedMs deltaMs) (c.durations.drop c.index)).2 } := by
  simp [advance, tick, hrunning]

/-- A tick reports whether there is more to play. -/
@[simp] theorem tick_snd (c : Clock α) (deltaMs : α) :
    (c.tick deltaMs).2 = !(c.advance deltaMs).isFinished := by
  by_cases hfinished : c.isFinished = true
  · simp [advance, tick, hfinished]
  · simp [advance, tick, hfinished]

@[simp] theorem advance_durations (c : Clock α) (deltaMs : α) :
    (c.advance deltaMs).durations = c.durations := by
  by_cases hfinished : c.isFinished = true
  · rw [advance_of_isFinished hfinished]
  · rw [advance_of_running (Bool.eq_false_iff.mpr hfinished)]

theorem jump_eq_ok_iff {c next : Clock α} {index : ℕ} :
    c.jump index = .ok next ↔
      index < c.durations.length ∧ next = { c with index, elapsedMs := 0 } := by
  unfold jump
  by_cases hindex : index < c.durations.length
  · simp [hindex, eq_comm]
  · simp [hindex]

theorem jump_of_le {c : Clock α} {index : ℕ} (hindex : c.durations.length ≤ index) :
    c.jump index = .error (.phaseOutOfRange index c.durations.length) :=
  if_neg (not_lt.mpr hindex)

/-- A jump that is refused changes nothing. -/
theorem step_jump_of_le {c : Clock α} {index : ℕ} (hindex : c.durations.length ≤ index) :
    c.step (.jump index) = c := by
  simp [step, jump_of_le hindex, Except.toOption]

theorem step_jump_of_lt {c : Clock α} {index : ℕ} (hindex : index < c.durations.length) :
    c.step (.jump index) = { c with index, elapsedMs := 0 } := by
  simp [step, jump_eq_ok_iff.mpr ⟨hindex, rfl⟩, Except.toOption]

@[simp] theorem step_durations (c : Clock α) (s : ClockStep α) : (c.step s).durations = c.durations := by
  cases s with
  | advance deltaMs => exact c.advance_durations deltaMs
  | restart => rfl
  | jump index =>
      by_cases hindex : index < c.durations.length
      · rw [step_jump_of_lt hindex]
      · rw [step_jump_of_le (not_lt.mp hindex)]

@[simp] theorem run_cons (c : Clock α) (s : ClockStep α) (rest : List (ClockStep α)) :
    c.run (s :: rest) = (c.step s).run rest :=
  rfl

@[simp] theorem run_durations (c : Clock α) (steps : List (ClockStep α)) :
    (c.run steps).durations = c.durations := by
  induction steps generalizing c with
  | nil => rfl
  | cons s rest ih => simp [ih]

/-- A finished clock stands still. -/
theorem run_advance_of_isFinished {c : Clock α} (hfinished : c.isFinished = true)
    (deltas : List α) : c.run (deltas.map .advance) = c := by
  induction deltas with
  | nil => rfl
  | cons deltaMs rest ih =>
      rw [List.map_cons, run_cons, step, advance_of_isFinished hfinished, ih]

/-- The one clock is not ahead of the other. -/
def AtOrBefore (c c' : Clock α) : Prop :=
  c.index < c'.index ∨ c.index = c'.index ∧ c.elapsedMs ≤ c'.elapsedMs

end Durations

/-! ## Standing in a transition -/

/-- The clock stands in a transition of this duration. -/
structure StandsIn (c : Clock ℚ) (duration : ℚ) : Prop where
  lasts : c.durations[c.index]? = some duration
  elapsed_nonneg : 0 ≤ c.elapsedMs
  elapsed_le : c.elapsedMs ≤ duration
  elapsed_lt : c.index + 1 < c.durations.length → 0 < duration → c.elapsedMs < duration

/-- The clock of a play with transitions stands in one of them. -/
structure InPlay (c : Clock ℚ) : Prop where
  durations_nonneg : ∀ duration ∈ c.durations, 0 ≤ duration
  standsIn : ∃ duration, c.StandsIn duration

theorem addTick_eq (elapsedMs deltaMs : ℚ) : addTick elapsedMs deltaMs = elapsedMs + max 0 deltaMs := by
  have hfinite : Scalar.isFinite deltaMs = true := rfl
  unfold addTick
  by_cases hpos : 0 < deltaMs
  · rw [if_pos ⟨hfinite, hpos⟩, max_eq_right hpos.le]
  · rw [if_neg fun h => hpos h.2, max_eq_left (not_lt.mp hpos), add_zero]

theorem StandsIn.index_lt {c : Clock ℚ} {duration : ℚ} (hc : c.StandsIn duration) :
    c.index < c.durations.length :=
  (List.getElem?_eq_some_iff.mp hc.lasts).1

theorem StandsIn.isFinished_iff {c : Clock ℚ} {duration : ℚ} (hc : c.StandsIn duration) :
    c.isFinished = true ↔ c.index + 1 = c.durations.length ∧ c.elapsedMs = duration := by
  have hindex := hc.index_lt
  obtain ⟨last, hlast⟩ : ∃ last, c.durations.getLast? = some last :=
    Option.isSome_iff_exists.mp (List.getLast?_isSome.mpr (List.ne_nil_of_length_pos (by omega)))
  have hfinished : c.isFinished = true ↔ c.index + 1 = c.durations.length ∧ last ≤ c.elapsedMs := by
    simp [isFinished, hlast]
  rw [hfinished]
  refine and_congr_right fun hend => ?_
  have hsame : duration = last := by
    have hlasts := hc.lasts
    rw [List.getLast?_eq_getElem?, ← hend, Nat.add_sub_cancel, hlasts] at hlast
    exact Option.some.inj hlast
  rw [hsame] at hc ⊢
  exact ⟨fun h => le_antisymm hc.elapsed_le h, fun h => h.ge⟩

theorem InPlay.of_start {c : Clock ℚ} (hdurations : ∀ duration ∈ c.durations, 0 ≤ duration)
    (hindex : c.index < c.durations.length) (helapsed : c.elapsedMs = 0) : c.InPlay := by
  refine ⟨hdurations, c.durations[c.index], List.getElem?_eq_getElem hindex, helapsed.ge, ?_, ?_⟩
  · rw [helapsed]
    exact hdurations _ (List.getElem_mem hindex)
  · intro _ hpos
    rwa [helapsed]

/-! ## A tick -/

/-- A running clock lands where its tick ends. -/
theorem InPlay.advance_landing {c : Clock ℚ} (hc : c.InPlay) (hrunning : c.isFinished = false)
    (deltaMs : ℚ) :
    ∃ k rest duration, c.advance deltaMs = { c with index := c.index + k, elapsedMs := rest } ∧
      Landing (c.durations.drop c.index) (c.elapsedMs + max 0 deltaMs) k rest duration := by
  obtain ⟨duration, hstands⟩ := hc.standsIn
  have hleft : c.durations.drop c.index ≠ [] := by
    rw [Ne, List.drop_eq_nil_iff, not_le]
    exact hstands.index_lt
  have htotal : 0 ≤ c.elapsedMs + max 0 deltaMs :=
    add_nonneg hstands.elapsed_nonneg (le_max_left 0 deltaMs)
  obtain ⟨k, rest, duration, hroll, hlanding⟩ := rollOver_landing hleft c.index htotal
  refine ⟨k, rest, duration, ?_, hlanding⟩
  rw [advance_of_running hrunning, addTick_eq, hroll]

/-- Where a tick lands, the clock stands. -/
theorem Landing.standsIn {c : Clock ℚ} {total rest duration : ℚ} {k : ℕ}
    (hdurations : ∀ duration ∈ c.durations, 0 ≤ duration)
    (hlanding : Landing (c.durations.drop c.index) total k rest duration) :
    StandsIn { c with index := c.index + k, elapsedMs := rest } duration := by
  have hlasts : c.durations[c.index + k]? = some duration := by
    rw [← List.getElem?_drop]
    exact hlanding.lasts
  have hduration : 0 ≤ duration := hdurations duration (List.mem_of_getElem? hlasts)
  have hover : 0 ≤ total - startMs (c.durations.drop c.index) k :=
    sub_nonneg.mpr hlanding.reached
  rcases hlanding.ends with ⟨-, rfl, hlt⟩ | ⟨-, rfl, rfl⟩ | ⟨hlast, rfl⟩
  · exact ⟨hlasts, hover, hlt.le, fun _ _ => hlt⟩
  · exact ⟨hlasts, le_rfl, le_rfl, fun _ hpos => hpos⟩
  · refine ⟨hlasts, le_min hover hduration, min_le_right _ _, ?_⟩
    intro hnext
    rw [List.length_drop] at hlast
    have hnext : c.index + k + 1 < c.durations.length := hnext
    omega

theorem InPlay.advance {c : Clock ℚ} (hc : c.InPlay) (deltaMs : ℚ) :
    (c.advance deltaMs).InPlay := by
  by_cases hfinished : c.isFinished = true
  · rwa [advance_of_isFinished hfinished]
  · obtain ⟨k, rest, duration, hadvance, hlanding⟩ :=
      hc.advance_landing (Bool.eq_false_iff.mpr hfinished) deltaMs
    rw [hadvance]
    exact ⟨hc.durations_nonneg, duration, hlanding.standsIn hc.durations_nonneg⟩

/-- A tick never takes the clock back. -/
theorem InPlay.atOrBefore_advance {c : Clock ℚ} (hc : c.InPlay) (deltaMs : ℚ) :
    c.AtOrBefore (c.advance deltaMs) := by
  by_cases hfinished : c.isFinished = true
  · rw [advance_of_isFinished hfinished]
    exact Or.inr ⟨rfl, le_rfl⟩
  · obtain ⟨k, rest, duration, hadvance, hlanding⟩ :=
      hc.advance_landing (Bool.eq_false_iff.mpr hfinished) deltaMs
    rw [hadvance]
    rcases Nat.eq_zero_or_pos k with rfl | hpos
    · refine Or.inr ⟨rfl, ?_⟩
      obtain ⟨first, hstands⟩ := hc.standsIn
      have hfirst : first = duration := by
        have hlasts := hlanding.lasts
        rw [List.getElem?_drop, Nat.add_zero, hstands.lasts] at hlasts
        exact Option.some.inj hlasts
      have hlater : c.elapsedMs ≤ c.elapsedMs + max 0 deltaMs :=
        le_add_of_nonneg_right (le_max_left 0 deltaMs)
      have hends := hlanding.ends
      rw [startMs_zero, sub_zero] at hends
      rcases hends with ⟨-, rfl, -⟩ | ⟨hpos, -, -⟩ | ⟨-, rfl⟩
      · exact hlater
      · exact absurd hpos (Nat.lt_irrefl 0)
      · exact le_min hlater (hfirst ▸ hstands.elapsed_le)
    · exact Or.inl (Nat.lt_add_of_pos_right hpos)

/-! ## Runs -/

theorem InPlay.step {c : Clock ℚ} (hc : c.InPlay) (s : ClockStep ℚ) : (c.step s).InPlay := by
  have hplay : 0 < c.durations.length := by
    obtain ⟨duration, hstands⟩ := hc.standsIn
    exact Nat.zero_lt_of_lt hstands.index_lt
  cases s with
  | advance deltaMs => exact hc.advance deltaMs
  | restart => exact .of_start hc.durations_nonneg hplay rfl
  | jump index =>
      by_cases hindex : index < c.durations.length
      · rw [step_jump_of_lt hindex]
        exact .of_start hc.durations_nonneg hindex rfl
      · rwa [step_jump_of_le (not_lt.mp hindex)]

theorem InPlay.run {c : Clock ℚ} (hc : c.InPlay) (steps : List (ClockStep ℚ)) :
    (c.run steps).InPlay := by
  induction steps generalizing c with
  | nil => exact hc
  | cons s rest ih =>
      rw [run_cons]
      exact ih (hc.step s)

end PlayDiagram.Clock
