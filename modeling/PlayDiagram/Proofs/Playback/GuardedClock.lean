import PlayDiagram.Proofs.Playback.ClockPosition
import PlayDiagram.Proofs.Playback.GuardedFrames

/-!
# Running a clock under guard

Here a clock reads the durations of its transitions at indices, and counts from the last one of them.
However it is driven, it never reads beyond them (`Clock.HasPlace`), so that nothing in playback meets a
fault (`Document.playback_has_no_faults`).
-/

namespace PlayDiagram

namespace Clock

section Guarded

variable {α : Type} [Scalar α]

/-- Rolls a time in the transition at an index over into the later ones, up to the last. -/
def guardedRollOver (durations : List α) (last index : ℕ) (elapsedMs : α) : Except Fault (ℕ × α) :=
  if index < last then do
    let duration ← guardedEntry durations index
    if duration ≤ elapsedMs then
      let next ← guardedEntry durations (index + 1)
      if next == 0 then return (index + 1, 0)
      else guardedRollOver durations last (index + 1) (elapsedMs - duration)
    else return (index, elapsedMs)
  else return (index, elapsedMs)
  termination_by last - index

/-- A time in the last transition ends with it. -/
def guardedEnd (durations : List α) (last : ℕ) (position : ℕ × α) : Except Fault (ℕ × α) :=
  if position.1 = last then
    return (position.1, Scalar.lesser position.2 (← guardedEntry durations last))
  else return position

/-- `Clock.tick` under guard. -/
def guardedTick (c : Clock α) (deltaMs : α) : Except Fault (Clock α × Bool) :=
  if c.isFinished then return (c, false)
  else do
    let last ← guardedPred c.durations.length
    let rolled ← guardedRollOver c.durations last c.index (addTick c.elapsedMs deltaMs)
    let (index, elapsedMs) ← guardedEnd c.durations last rolled
    let next := { c with index, elapsedMs }
    return (next, !next.isFinished)

/-- `Clock.step` under guard: only a tick makes demands. -/
def guardedStep (c : Clock α) : ClockStep α → Except Fault (Clock α)
  | .advance deltaMs => return (← c.guardedTick deltaMs).1
  | .restart => return c.restart
  | .jump index => return (c.jump index).toOption.getD c

/-- `Clock.run` under guard. -/
def guardedRun (c : Clock α) (steps : List (ClockStep α)) : Except Fault (Clock α) :=
  steps.foldlM guardedStep c

/-- `Clock.frame?` under guard. -/
def guardedFrame? (c : Clock α) (play : CompiledPlay α) : Except Fault (Option (Frame α)) :=
  match play.transitions[c.index]? with
  | some t => return some (← t.guardedFrameAt c.elapsedMs)
  | none => return none

end Guarded

/-! ## The place of a clock -/

section Places

variable {α : Type} [Scalar α]

/-- The clock stands in one of its transitions, if it has any. -/
def HasPlace (c : Clock α) : Prop :=
  c.durations ≠ [] → c.index < c.durations.length

theorem rollOver_index_lt (index : ℕ) (elapsedMs : α) {durations : List α} (hne : durations ≠ []) :
    (rollOver index elapsedMs durations).1 < index + durations.length := by
  induction durations generalizing index elapsedMs with
  | nil => exact absurd rfl hne
  | cons duration rest ih =>
      cases rest with
      | nil => exact Nat.lt_succ_self index
      | cons next rest =>
          have hlater := ih (index + 1) (elapsedMs - duration) (List.cons_ne_nil next rest)
          rw [rollOver]
          simp only [List.length_cons] at hlater ⊢
          split_ifs
          · dsimp only
            omega
          · omega
          · dsimp only
            omega

theorem HasPlace.advance {c : Clock α} (hc : c.HasPlace) (deltaMs : α) :
    (c.advance deltaMs).HasPlace := by
  by_cases hfinished : c.isFinished = true
  · rwa [advance_of_isFinished hfinished]
  · intro hne
    rw [advance_durations] at hne ⊢
    have hindex := hc hne
    have hleft : c.durations.drop c.index ≠ [] := by
      rw [Ne, List.drop_eq_nil_iff, not_le]
      exact hindex
    have hlt := rollOver_index_lt c.index (addTick c.elapsedMs deltaMs) hleft
    rw [List.length_drop] at hlt
    rw [advance_of_running (Bool.eq_false_iff.mpr hfinished)]
    dsimp only
    omega

theorem HasPlace.step {c : Clock α} (hc : c.HasPlace) (s : ClockStep α) : (c.step s).HasPlace := by
  cases s with
  | advance deltaMs => exact hc.advance deltaMs
  | restart => exact fun hne => List.length_pos_of_ne_nil hne
  | jump index =>
      by_cases hindex : index < c.durations.length
      · rw [step_jump_of_lt hindex]
        exact fun _ => hindex
      · rwa [step_jump_of_le (not_lt.mp hindex)]

theorem HasPlace.run {c : Clock α} (hc : c.HasPlace) (steps : List (ClockStep α)) :
    (c.run steps).HasPlace := by
  induction steps generalizing c with
  | nil => exact hc
  | cons s rest ih =>
      rw [run_cons]
      exact ih (hc.step s)

theorem start_hasPlace (play : CompiledPlay α) : (start play).HasPlace :=
  fun hne => List.length_pos_of_ne_nil hne

end Places

/-! ## Ticks -/

section Ends

variable {α : Type} [Scalar α] {durations : List α} {index last : ℕ}

theorem guardedEnd_of_ne (hindex : index ≠ last) (elapsedMs : α) :
    guardedEnd durations last (index, elapsedMs) = .ok (index, elapsedMs) :=
  if_neg hindex

theorem guardedEnd_of_eq {duration : α} (hindex : index = last)
    (hlasts : durations[index]? = some duration) (elapsedMs : α) :
    guardedEnd durations last (index, elapsedMs) = .ok (index, Scalar.lesser elapsedMs duration) := by
  subst hindex
  unfold guardedEnd
  rw [if_pos rfl, guardedEntry_eq hlasts]
  rfl

end Ends

/-- A time is rolled over without a fault from a transition that the play has.  It is cut off at the end
of the last transition also when that has no length, which changes nothing. -/
theorem guardedRollOver_eq {durations : List Float} (hdurations : ∀ duration ∈ durations, 0 ≤ duration)
    {index : ℕ} (hindex : index < durations.length) (elapsedMs : Float) :
    (guardedRollOver durations (durations.length - 1) index elapsedMs >>=
        guardedEnd durations (durations.length - 1)) =
      .ok (rollOver index elapsedMs (durations.drop index)) := by
  have hfirst := List.getElem?_eq_getElem hindex
  rw [List.drop_eq_getElem_cons hindex, guardedRollOver]
  by_cases hlater : index < durations.length - 1
  · have hnext : index + 1 < durations.length := by omega
    have hsecond := List.getElem?_eq_getElem hnext
    have ih := guardedRollOver_eq hdurations hnext (elapsedMs - durations[index])
    rw [List.drop_eq_getElem_cons hnext] at ih ⊢
    rw [if_pos hlater, guardedEntry_eq hfirst, guardedEntry_eq hsecond, rollOver]
    simp only [bind, Except.bind, pure, Except.pure] at ih ⊢
    split_ifs with hover hdwell
    · rcases eq_or_ne (index + 1) (durations.length - 1) with hend | hinner
      · have hzero := LawfulScalar.lesser_zero (hdurations _ (List.getElem_mem hnext))
        simp only [guardedEnd_of_eq hend hsecond, hzero]
      · exact guardedEnd_of_ne hinner 0
    · exact ih
    · exact guardedEnd_of_ne hlater.ne elapsedMs
  · have hend : index = durations.length - 1 := by omega
    have hnone : durations.drop (index + 1) = [] := List.drop_eq_nil_iff.mpr (by omega)
    rw [if_neg hlater, hnone, rollOver]
    exact guardedEnd_of_eq hend hfirst elapsedMs
  termination_by durations.length - index

/-- A clock that has a place is ticked without a fault. -/
theorem HasPlace.guardedTick_eq {c : Clock Float} (hc : c.HasPlace)
    (hdurations : ∀ duration ∈ c.durations, 0 ≤ duration) (deltaMs : Float) :
    c.guardedTick deltaMs = .ok (c.tick deltaMs) := by
  unfold guardedTick tick
  by_cases hfinished : c.isFinished = true
  · rw [if_pos hfinished, if_pos hfinished]
    rfl
  · have hne : c.durations ≠ [] := by
      intro hempty
      exact hfinished (by simp only [isFinished, hempty, List.getLast?_nil])
    have hlength := List.length_pos_of_ne_nil hne
    have hpred : guardedPred c.durations.length = .ok (c.durations.length - 1) := by
      obtain ⟨n, hn⟩ := Nat.exists_eq_succ_of_ne_zero hlength.ne'
      rw [hn]
      rfl
    have hroll := guardedRollOver_eq hdurations (hc hne) (addTick c.elapsedMs deltaMs)
    rw [if_neg hfinished, if_neg hfinished, hpred]
    simp only [bind, Except.bind, pure, Except.pure] at hroll ⊢
    cases hrolled : guardedRollOver c.durations (c.durations.length - 1) c.index
        (addTick c.elapsedMs deltaMs) with
    | error fault =>
        rw [hrolled] at hroll
        cases hroll
    | ok rolled =>
        rw [hrolled] at hroll
        simp only [hroll]

/-- However a clock is driven, its durations stay, so that it keeps having a place among them. -/
theorem HasPlace.guardedRun_eq {c : Clock Float} (hc : c.HasPlace)
    (hdurations : ∀ duration ∈ c.durations, 0 ≤ duration) (steps : List (ClockStep Float)) :
    c.guardedRun steps = .ok (c.run steps) := by
  induction steps generalizing c with
  | nil => rfl
  | cons s rest ih =>
      have hstep : c.guardedStep s = .ok (c.step s) := by
        cases s with
        | advance deltaMs =>
            rw [guardedStep, hc.guardedTick_eq hdurations]
            rfl
        | restart => rfl
        | jump index => rfl
      have hrest := ih (hc.step s) (by rwa [step_durations])
      unfold guardedRun at hrest ⊢
      rw [List.foldlM_cons, hstep]
      exact hrest

/-- A clock shows any play without a fault, also one that it does not belong to. -/
theorem guardedFrame?_eq (c : Clock Float) (d : Document Float) (tempo : Tempo Float) :
    c.guardedFrame? (d.compile tempo) = .ok (c.frame? (d.compile tempo)) := by
  unfold guardedFrame? frame?
  cases ht : (d.compile tempo).transitions[c.index]? with
  | none => rfl
  | some t =>
      have htotal := Document.totalMs_nonneg (List.mem_of_getElem? ht)
      simp only [Transition.guardedFrameAt_eq htotal]
      rfl

end Clock

/-- Nothing in playback meets a fault, whatever document is played, at any speed and with any configured
durations: not compiling it, nor showing any transition at any time, nor running a clock of it in any way,
nor showing this or any other play where the clock stands.  Transitions have lengths to clamp to, which
are numbers not below zero, and tracks hold indices of the schedule. -/
theorem Document.playback_has_no_faults (d : Document Float) (tempo : Tempo Float) :
    let play := d.compile tempo
    d.guardedCompile tempo = .ok play ∧
    (∀ t ∈ play.transitions,
      0 ≤ t.schedule.totalMs ∧ Scalar.isNaN t.schedule.totalMs = false ∧
      (∀ track ∈ t.tracks, ∀ k ∈ track.actions, k < t.schedule.actions.length) ∧
      ∀ elapsedMs, t.guardedFrameAt elapsedMs = .ok (t.frameAt elapsedMs)) ∧
    ∀ steps : List (ClockStep Float),
      let c := (Clock.start play).run steps
      (Clock.start play).guardedRun steps = .ok c ∧
      (play.transitions ≠ [] → c.index < play.transitions.length) ∧
      (∀ deltaMs, c.guardedTick deltaMs = .ok (c.tick deltaMs)) ∧
      ∀ (other : Document Float) (tempo' : Tempo Float),
        c.guardedFrame? (other.compile tempo') = .ok (c.frame? (other.compile tempo')) := by
  intro play
  have hdurations := Clock.start_durations_nonneg d tempo
  refine ⟨d.guardedCompile_eq tempo, fun t ht => ?_, fun steps => ?_⟩
  · have htotal := totalMs_nonneg ht
    exact ⟨htotal, (isNaN_of_float_le htotal).2, track_actions_lt ht,
      Transition.guardedFrameAt_eq htotal⟩
  · have hplace := (Clock.start_hasPlace play).run steps
    have hdurations' : ∀ duration ∈ ((Clock.start play).run steps).durations, 0 ≤ duration := by
      simpa using hdurations
    have hlength : ((Clock.start play).run steps).durations.length = play.transitions.length := by
      simp [Clock.start]
    refine ⟨(Clock.start_hasPlace play).guardedRun_eq hdurations steps, fun hmoves => ?_,
      hplace.guardedTick_eq hdurations', Clock.guardedFrame?_eq _⟩
    have hpos := List.length_pos_of_ne_nil hmoves
    rw [← hlength] at hpos ⊢
    exact hplace (List.ne_nil_of_length_pos hpos)

end PlayDiagram
