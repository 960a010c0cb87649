import PlayDiagram.Proofs.Playback.Dwells
import PlayDiagram.Proofs.Playback.GuardedClock

/-!
# Ticks that bring no time

A tick of no time, of less than that, or of what is not finite adds nothing to a clock.  It still rolls the
clock over.  Wherever a clock was driven nothing is left to roll over (`Clock.Rests`), unless it stands in
a transition without length: such a tick moves it on from there, and leaves it alone anywhere else
(`Clock.advance_ineffective`).
-/

namespace PlayDiagram

section Lesser

variable {α : Type} [Scalar α]

@[simp] theorem lesser_self (x : α) : Scalar.lesser x x = x := by
  unfold Scalar.lesser
  split_ifs <;> rfl

/-- What was cut off once is not cut off again. -/
@[simp] theorem lesser_lesser (x y : α) : Scalar.lesser (Scalar.lesser x y) y = Scalar.lesser x y := by
  have hcases : Scalar.lesser x y = y ∨ Scalar.lesser x y = x := by
    unfold Scalar.lesser
    split_ifs <;> simp
  rcases hcases with h | h
  · rw [h, lesser_self]
  · rw [h, h]

end Lesser

namespace Clock

/-- A clock is finished in the last transition only. -/
theorem index_of_isFinished {c : Clock Float} (hfinished : c.isFinished = true) :
    c.durations.length ≤ c.index + 1 := by
  unfold isFinished at hfinished
  cases hlast : c.durations.getLast? with
  | none =>
      rw [List.getLast?_eq_none_iff.mp hlast]
      exact Nat.zero_le _
  | some last =>
      simp only [hlast, Bool.and_eq_true, decide_eq_true_eq] at hfinished
      exact hfinished.1.ge

/-! ## Rest -/

/-- A time in the first of some transitions of which nothing is rolled over, unless the transition has no
length. -/
def RestsIn (elapsedMs : Float) : List Float → Prop
  | [] => True
  | [last] => Scalar.lesser elapsedMs last = elapsedMs
  | duration :: _ :: _ => if duration == 0 then elapsedMs = 0 else ¬duration ≤ elapsedMs

/-- Where the clock stands nothing is left to roll over, unless that is a transition without length. -/
def Rests (c : Clock Float) : Prop :=
  RestsIn c.elapsedMs (c.durations.drop c.index)

/-- Whether the first of some transitions has no length, and another one follows. -/
def startsWithDwell : List Float → Bool
  | duration :: _ :: _ => duration == 0
  | _ => false

theorem startsWithDwell_drop_iff {durations : List Float} {index : ℕ} :
    startsWithDwell (durations.drop index) = true ↔
      index + 1 < durations.length ∧ ∃ duration, durations[index]? = some duration ∧
        (duration == 0) = true := by
  have hlength : (durations.drop index).length = durations.length - index := List.length_drop
  rw [← List.head?_drop]
  generalize durations.drop index = left at hlength ⊢
  rcases left with _ | ⟨duration, _ | ⟨next, rest⟩⟩
  · simp [startsWithDwell]
  · have hlast : ¬index + 1 < durations.length := by
      rw [List.length_singleton] at hlength
      omega
    simp [startsWithDwell, hlast]
  · have hinner : index + 1 < durations.length := by
      simp only [List.length_cons] at hlength
      omega
    simp [startsWithDwell, hinner]

section RollOver

variable {durations : List Float} (hdurations : ∀ duration ∈ durations, 0 ≤ duration)

include hdurations

theorem restsIn_zero : RestsIn 0 durations := by
  rcases durations with _ | ⟨duration, _ | ⟨next, rest⟩⟩
  · trivial
  · exact LawfulScalar.lesser_zero (hdurations duration List.mem_cons_self)
  · have hfirst := hdurations duration List.mem_cons_self
    rw [RestsIn]
    split_ifs with hzero
    · rfl
    · rwa [LawfulScalar.le_zero_iff hfirst]

/-- What is rolled over rests where it ends, if it starts beyond a transition without length. -/
theorem exists_restsIn_rollOver {elapsedMs : Float}
    (hbeyond : startsWithDwell durations = true → 0 ≤ elapsedMs) (index : ℕ) :
    ∃ k, (rollOver index elapsedMs durations).1 = index + k ∧
      RestsIn (rollOver index elapsedMs durations).2 (durations.drop k) := by
  induction durations generalizing index elapsedMs with
  | nil => exact ⟨0, rfl, trivial⟩
  | cons duration rest ih =>
      obtain ⟨hfirst, hrest⟩ := List.forall_mem_cons.mp hdurations
      rcases rest with _ | ⟨next, rest⟩
      · exact ⟨0, rfl, lesser_lesser elapsedMs duration⟩
      · rw [rollOver]
        split_ifs with hover hdwell
        · exact ⟨1, rfl, restsIn_zero hrest⟩
        · have hbeyond' : startsWithDwell (next :: rest) = true → 0 ≤ elapsedMs - duration := by
            intro hnext
            cases rest with
            | nil => cases hnext
            | cons _ _ => exact absurd hnext hdwell
          obtain ⟨k, hindex, hrests⟩ := ih hrest hbeyond' (index + 1)
          exact ⟨k + 1, by rw [hindex, Nat.add_right_comm, Nat.add_assoc], hrests⟩
        · refine ⟨0, rfl, ?_⟩
          show if duration == 0 then elapsedMs = 0 else ¬duration ≤ elapsedMs
          split_ifs with hzero
          · have hle := (LawfulScalar.le_zero_iff hfirst).mpr hzero
            exact absurd (float_le_trans hle (hbeyond hzero)) hover
          · exact hover

/-- A time that rests is rolled over from a transition without length only, to the start of the next. -/
theorem RestsIn.rollOver_eq {elapsedMs : Float} (hrests : RestsIn elapsedMs durations) (index : ℕ) :
    rollOver index elapsedMs durations =
      if startsWithDwell durations then (index + 1, 0) else (index, elapsedMs) := by
  rcases durations with _ | ⟨duration, _ | ⟨next, rest⟩⟩
  · rfl
  · exact congrArg (Prod.mk index) hrests
  · obtain ⟨hfirst, hrest⟩ := List.forall_mem_cons.mp hdurations
    have hnext := (List.forall_mem_cons.mp hrest).1
    rw [RestsIn] at hrests
    rw [rollOver]
    by_cases hzero : (duration == 0) = true
    · rw [if_pos hzero] at hrests
      have hover := (LawfulScalar.le_zero_iff hfirst).mpr hzero
      rw [startsWithDwell, if_pos hzero, hrests, if_pos hover, float_zero_sub hzero]
      split_ifs with hdwell
      · rfl
      · -- The next transition has a length, of which no time has passed.
        rcases rest with _ | ⟨second, rest⟩
        · rw [rollOver, LawfulScalar.lesser_zero hnext]
        · rw [rollOver, if_neg (mt (LawfulScalar.le_zero_iff hnext).mp hdwell)]
    · rw [if_neg hzero] at hrests
      rw [startsWithDwell, if_neg hzero, if_neg hrests]

end RollOver

/-! ## Runs -/

section Runs

variable {c : Clock Float} (hdurations : ∀ duration ∈ c.durations, 0 ≤ duration)

include hdurations

theorem drop_nonneg (index : ℕ) : ∀ duration ∈ c.durations.drop index, 0 ≤ duration :=
  fun duration hduration => hdurations duration (List.mem_of_mem_drop hduration)

theorem rests_of_zero (index : ℕ) : Rests { c with index, elapsedMs := 0 } :=
  restsIn_zero (drop_nonneg hdurations index)

omit hdurations in
/-- The time of a clock that rests in a transition without length is none, and a tick adds to it. -/
theorem Rests.addTick_nonneg (hc : c.Rests)
    (hdwell : startsWithDwell (c.durations.drop c.index) = true) (deltaMs : Float) :
    0 ≤ addTick c.elapsedMs deltaMs := by
  have helapsed : c.elapsedMs = 0 := by
    unfold Rests at hc
    rcases hleft : c.durations.drop c.index with _ | ⟨duration, _ | ⟨next, rest⟩⟩ <;>
      rw [hleft] at hc hdwell
    · cases hdwell
    · cases hdwell
    · rw [startsWithDwell] at hdwell
      rwa [RestsIn, if_pos hdwell] at hc
  rw [helapsed]
  exact addTick_zero_nonneg deltaMs

theorem Rests.advance (hc : c.Rests) (deltaMs : Float) : (c.advance deltaMs).Rests := by
  by_cases hfinished : c.isFinished = true
  · rwa [advance_of_isFinished hfinished]
  · obtain ⟨k, hindex, hrests⟩ := exists_restsIn_rollOver (drop_nonneg hdurations c.index)
      (fun hdwell => hc.addTick_nonneg hdwell deltaMs) c.index
    rw [advance_of_running (Bool.eq_false_iff.mpr hfinished)]
    unfold Rests
    dsimp only
    rwa [hindex, ← List.drop_drop]

theorem Rests.step (hc : c.Rests) (s : ClockStep Float) : (c.step s).Rests := by
  cases s with
  | advance deltaMs => exact hc.advance hdurations deltaMs
  | restart => exact rests_of_zero hdurations 0
  | jump index =>
      by_cases hindex : index < c.durations.length
      · rw [step_jump_of_lt hindex]
        exact rests_of_zero hdurations index
      · rwa [step_jump_of_le (not_lt.mp hindex)]

theorem Rests.run (hc : c.Rests) (steps : List (ClockStep Float)) : (c.run steps).Rests := by
  induction steps generalizing c with
  | nil => exact hc
  | cons s rest ih =>
      rw [run_cons]
      exact ih (by rwa [step_durations]) (hc.step hdurations s)

/-- A tick that brings no time moves a clock on from a transition without length only. -/
theorem Rests.advance_eq (hc : c.Rests) {deltaMs : Float}
    (hdelta : ∀ elapsedMs, addTick elapsedMs deltaMs = elapsedMs) :
    c.advance deltaMs =
      if startsWithDwell (c.durations.drop c.index) then
        { c with index := c.index + 1, elapsedMs := 0 }
      else c := by
  by_cases hfinished : c.isFinished = true
  · have hend : ¬startsWithDwell (c.durations.drop c.index) = true := by
      rw [startsWithDwell_drop_iff]
      rintro ⟨hinner, -⟩
      exact (index_of_isFinished hfinished).not_gt hinner
    rw [advance_of_isFinished hfinished, if_neg hend]
  · rw [advance_of_running (Bool.eq_false_iff.mpr hfinished), hdelta,
      RestsIn.rollOver_eq (drop_nonneg hdurations c.index) hc]
    split_ifs <;> rfl

end Runs

/-- However the clock of a play was driven, a tick of no time, of less than that, or of what is not finite
moves it on to the start of the next transition if it stands in one without length, and leaves it where it
is everywhere else. -/
theorem advance_ineffective (d : Document Float) (tempo : Tempo Float)
    (steps : List (ClockStep Float)) {deltaMs : Float}
    (hdelta : deltaMs ≤ 0 ∨ Scalar.isFinite deltaMs = false) :
    let play := d.compile tempo
    let c := (start play).run steps
    let dwells := c.index + 1 < play.transitions.length ∧
      ∃ t, play.transitions[c.index]? = some t ∧ (t.schedule.totalMs == 0) = true
    (dwells → c.advance deltaMs = { c with index := c.index + 1, elapsedMs := 0 }) ∧
      (¬dwells → c.advance deltaMs = c) := by
  intro play c dwells
  have hstart := start_durations_nonneg d tempo
  have hdurations : c.durations = play.transitions.map (·.schedule.totalMs) := run_durations _ _
  have hrests : c.Rests := Rests.run hstart (rests_of_zero hstart 0) steps
  have hnothing : ∀ elapsedMs, addTick elapsedMs deltaMs = elapsedMs := by
    intro elapsedMs
    refine if_neg fun hcounts => ?_
    rcases hdelta with hle | hinfinite
    · exact (float_not_lt (isNaN_of_float_le hle).2 (isNaN_of_float_le hle).1).mpr hle hcounts.2
    · exact absurd hcounts.1 (Bool.eq_false_iff.mp hinfinite)
  have hdwells : startsWithDwell (c.durations.drop c.index) = true ↔ dwells := by
    rw [startsWithDwell_drop_iff, hdurations, List.length_map]
    simp [dwells]
  have hadvance := hrests.advance_eq (by rwa [run_durations]) hnothing
  rw [hadvance, ← hdwells]
  exact ⟨fun h => if_pos h, fun h => if_neg h⟩

/-- In the middle of a cut, which follows a phase without actions, a tick of less than no time is ignored. -/
theorem advance_ineffective_duringCut :
    let phase (name : String) (actions : List (Action Float)) : Phase Float :=
      { id := ⟨name⟩, name, objects := [], actions, ballOwner := .inherit }
    let cut : Action Float := .freehand ⟨"a1"⟩ .cut ⟨0, 0⟩ ⟨0, 0⟩
    let play : Document Float := .new .half [phase "p1" [], phase "p2" [cut], phase "p3" []]
    let tempo : Tempo Float := ⟨{}, SpeedPreset.normal.speed⟩
    let c := (start (play.compile tempo)).run [.advance 300]
    (-5 : Float) ≤ 0 ∧ c.index = 1 ∧ c.elapsedMs = 300 ∧ c.advance (-5) = c := by
  intro phase cut play tempo c
  have hdelta : (-5 : Float) ≤ 0 := by decide +kernel
  have hindex : c.index = 1 := by decide +kernel
  have helapsed : c.elapsedMs = 300 := by decide +kernel
  have hlast : ¬c.index + 1 < (play.compile tempo).transitions.length := by decide +kernel
  obtain ⟨-, hstays⟩ := advance_ineffective play tempo [.advance 300] (Or.inl hdelta)
  exact ⟨hdelta, hindex, helapsed, hstays fun hdwells => hlast hdwells.1⟩

/-- At the start of a play whose first phase has no actions, any tick moves the clock on: also one of less
than no time, of what is no number, or of infinite time. -/
theorem ineffective_ticks_leave_dwell :
    let phase (name : String) (actions : List (Action Float)) : Phase Float :=
      { id := ⟨name⟩, name, objects := [], actions, ballOwner := .inherit }
    let cut : Action Float := .freehand ⟨"a1"⟩ .cut ⟨0, 0⟩ ⟨0, 0⟩
    let play : Document Float := .new .half [phase "p1" [], phase "p2" [cut], phase "p3" []]
    let tempo : Tempo Float := ⟨{}, SpeedPreset.normal.speed⟩
    let c := start (play.compile tempo)
    c.index = 0 ∧ c.elapsedMs = 0 ∧
      ∀ deltaMs ∈ [(-5 : Float), 0 / 0, 1 / 0], (deltaMs < 0 ∨ Scalar.isFinite deltaMs = false) ∧
        (c.advance deltaMs).index = 1 ∧ (c.advance deltaMs).elapsedMs = 0 := by
  decide +kernel

end Clock

end PlayDiagram
