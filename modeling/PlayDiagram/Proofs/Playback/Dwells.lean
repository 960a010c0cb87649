import PlayDiagram.Proofs.Number.DoubleSum
import PlayDiagram.Proofs.Playback.ClockPosition

/-!
# Stops in transitions without length

A tick rolls over into later transitions, but no further than into the first of them without length, and
there it ends at the start (`StopsAtDwells`).  A run of ticks therefore has the clock stand in each of these
that it reaches (`run_stops_at_dwells`).  None of it depends on how times are added up, so that it holds in
doubles.
-/

namespace PlayDiagram.Clock

variable {α : Type} [Scalar α]

/-! ## A tick -/

/-- Rolling over into the transition at index `k`, and to a time there, stops at transitions without
length. -/
structure StopsAtDwells (durations : List α) (k : ℕ) (elapsedMs : α) : Prop where
  /-- None of them is passed over. -/
  passed : ∀ m duration, 0 < m → m < k → durations[m]? = some duration → (duration == 0) = false
  /-- If one is reached, none of its time is left. -/
  held : ∀ duration, 0 < k → durations[k]? = some duration → (duration == 0) = true → elapsedMs = 0

theorem stopsAtDwells_zero (durations : List α) (elapsedMs : α) :
    StopsAtDwells durations 0 elapsedMs :=
  ⟨fun m _ _ hm => absurd hm (Nat.not_lt_zero m), fun _ hpos => absurd hpos (Nat.lt_irrefl 0)⟩

/-- The first transition after the one that is left is reached, if it has no length, at its start. -/
theorem stopsAtDwells_one (durations : List α) : StopsAtDwells durations 1 0 :=
  ⟨fun _ _ hpos hm => absurd hpos (by omega), fun _ _ _ _ => rfl⟩

/-- A transition with a length can be rolled over. -/
theorem StopsAtDwells.cons {durations : List α} {k : ℕ} {elapsedMs second : α}
    (hstops : StopsAtDwells (second :: durations) k elapsedMs) (hsecond : (second == 0) = false)
    (first : α) : StopsAtDwells (first :: second :: durations) (k + 1) elapsedMs := by
  constructor
  · intro m duration hpos hm hduration
    obtain ⟨m, rfl⟩ := Nat.exists_eq_add_one_of_ne_zero hpos.ne'
    rw [List.getElem?_cons_succ] at hduration
    rcases Nat.eq_zero_or_pos m with rfl | hpos
    · cases hduration
      exact hsecond
    · exact hstops.passed m duration hpos (Nat.lt_of_succ_lt_succ hm) hduration
  · intro duration _ hduration hdwell
    rw [List.getElem?_cons_succ] at hduration
    rcases Nat.eq_zero_or_pos k with rfl | hpos
    · cases hduration
      cases hsecond.symm.trans hdwell
    · exact hstops.held duration hpos hduration hdwell

theorem exists_stopsAtDwells_rollOver (durations : List α) (index : ℕ) (elapsedMs : α) :
    ∃ k, (rollOver index elapsedMs durations).1 = index + k ∧
      StopsAtDwells durations k (rollOver index elapsedMs durations).2 := by
  induction durations generalizing index elapsedMs with
  | nil => exact ⟨0, rfl, stopsAtDwells_zero _ _⟩
  | cons duration rest ih =>
      rcases rest with _ | ⟨next, rest⟩
      · exact ⟨0, rfl, stopsAtDwells_zero _ _⟩
      · rw [rollOver]
        split_ifs with hover hdwell
        · exact ⟨1, rfl, stopsAtDwells_one _⟩
        · obtain ⟨k, hindex, hstops⟩ := ih (index + 1) (elapsedMs - duration)
          exact ⟨k + 1, by rw [hindex, Nat.add_right_comm, Nat.add_assoc],
            hstops.cons (Bool.eq_false_iff.mpr hdwell) duration⟩
        · exact ⟨0, rfl, stopsAtDwells_zero _ _⟩

theorem exists_stopsAtDwells_advance (c : Clock α) (deltaMs : α) :
    ∃ k, (c.advance deltaMs).index = c.index + k ∧
      StopsAtDwells (c.durations.drop c.index) k (c.advance deltaMs).elapsedMs := by
  by_cases hfinished : c.isFinished = true
  · rw [advance_of_isFinished hfinished]
    exact ⟨0, rfl, stopsAtDwells_zero _ _⟩
  · rw [advance_of_running (Bool.eq_false_iff.mpr hfinished)]
    exact exists_stopsAtDwells_rollOver _ _ _

section Tick

variable {c : Clock α} {deltaMs : α} {k : ℕ} {duration : α}

/-- A tick passes over no transition without length. -/
theorem advance_passes (hfrom : c.index < k) (hto : k < (c.advance deltaMs).index)
    (hlasts : c.durations[k]? = some duration) : (duration == 0) = false := by
  obtain ⟨n, hindex, hstops⟩ := exists_stopsAtDwells_advance c deltaMs
  refine hstops.passed (k - c.index) duration (by omega) (by omega) ?_
  rwa [List.getElem?_drop, Nat.add_sub_cancel' hfrom.le]

/-- A tick that ends in a later transition without length ends at its start. -/
theorem advance_held (hmoves : c.index < (c.advance deltaMs).index)
    (hlasts : c.durations[(c.advance deltaMs).index]? = some duration)
    (hdwell : (duration == 0) = true) : (c.advance deltaMs).elapsedMs = 0 := by
  obtain ⟨n, hindex, hstops⟩ := exists_stopsAtDwells_advance c deltaMs
  refine hstops.held duration (by omega) ?_ hdwell
  rwa [List.getElem?_drop, ← hindex]

end Tick

/-! ## Runs of ticks -/

/-- A run of ticks that takes the clock to a later transition without length, or beyond it, has it stand
there after a tick. -/
theorem exists_tick_at_dwell {c : Clock α} {k : ℕ} {duration : α}
    (hlasts : c.durations[k]? = some duration) (hdwell : (duration == 0) = true) (deltas : List α)
    (hfrom : c.index < k) (hto : k ≤ (c.run (deltas.map .advance)).index) :
    ∃ m ≤ deltas.length, 0 < m ∧ (c.run ((deltas.take m).map .advance)).index = k ∧
      (c.run ((deltas.take m).map .advance)).elapsedMs = 0 := by
  induction deltas generalizing c with
  | nil => exact absurd hto (not_le.mpr hfrom)
  | cons deltaMs rest ih =>
      rcases lt_trichotomy (c.advance deltaMs).index k with hlt | heq | hgt
      · obtain ⟨m, hm, -, hindex, helapsed⟩ := ih (by rwa [advance_durations]) hlt hto
        exact ⟨m + 1, Nat.succ_le_succ hm, Nat.succ_pos m, hindex, helapsed⟩
      · exact ⟨1, Nat.succ_le_succ (Nat.zero_le _), Nat.one_pos, heq,
          advance_held (heq ▸ hfrom) (heq ▸ hlasts) hdwell⟩
      · cases (advance_passes hfrom hgt hlasts).symm.trans hdwell

/-! ## Standing in a transition without length -/

/-- In a transition without length the clock stands at its start. -/
def HeldAtDwell (c : Clock α) : Prop :=
  ∀ duration, c.durations[c.index]? = some duration → (duration == 0) = true → c.elapsedMs = 0

theorem heldAtDwell_of_zero {c : Clock α} (helapsed : c.elapsedMs = 0) : c.HeldAtDwell :=
  fun _ _ _ => helapsed

section Lawful

variable [LawfulScalar α]

theorem addTick_zero_nonneg (deltaMs : α) : 0 ≤ addTick 0 deltaMs := by
  unfold addTick
  split_ifs with hcounts
  · exact LawfulScalar.le_add LawfulScalar.zero_le_zero (LawfulScalar.le_of_lt hcounts.2)
  · exact LawfulScalar.zero_le_zero

/-- A clock that runs does not stay in a transition without length: the last one is over at its start, and
from any other one a tick moves on. -/
theorem HeldAtDwell.index_lt_advance {c : Clock α} (hc : c.HeldAtDwell)
    (hrunning : c.isFinished = false) {duration : α} (hlasts : c.durations[c.index]? = some duration)
    (hdwell : (duration == 0) = true) (deltaMs : α) : c.index < (c.advance deltaMs).index := by
  have helapsed := hc duration hlasts hdwell
  have hover := LawfulScalar.le_zero_of_beq hdwell
  obtain ⟨hindex, rfl⟩ := List.getElem?_eq_some_iff.mp hlasts
  rw [advance_of_running hrunning, List.drop_eq_getElem_cons hindex, helapsed]
  cases hleft : c.durations.drop (c.index + 1) with
  | nil =>
      have hend : c.index + 1 = c.durations.length := by
        have hle := List.drop_eq_nil_iff.mp hleft
        omega
      have hlast : c.durations.getLast? = some c.durations[c.index] := by
        rw [List.getLast?_eq_getElem?, ← hend, Nat.add_sub_cancel]
        exact hlasts
      simp [isFinished, hlast, hend, helapsed, hover] at hrunning
  | cons next rest =>
      have hpast := LawfulScalar.le_trans hover (addTick_zero_nonneg deltaMs)
      rw [rollOver, if_pos hpast]
      split_ifs
      · exact Nat.lt_succ_self _
      · obtain ⟨k, hk, -⟩ := exists_stopsAtDwells_rollOver (next :: rest) (c.index + 1)
          (addTick 0 deltaMs - c.durations[c.index])
        show c.index < (rollOver (c.index + 1) _ _).1
        rw [hk]
        omega

theorem HeldAtDwell.advance {c : Clock α} (hc : c.HeldAtDwell) (deltaMs : α) :
    (c.advance deltaMs).HeldAtDwell := by
  cases hfinished : c.isFinished with
  | true => rwa [advance_of_isFinished hfinished]
  | false =>
      intro duration hlasts hdwell
      rw [advance_durations] at hlasts
      obtain ⟨k, hindex, hstops⟩ := exists_stopsAtDwells_advance c deltaMs
      rcases Nat.eq_zero_or_pos k with rfl | hpos
      · rw [hindex, Nat.add_zero] at hlasts
        have hmoves := hc.index_lt_advance hfinished hlasts hdwell deltaMs
        omega
      · exact advance_held (by omega) hlasts hdwell

theorem HeldAtDwell.step {c : Clock α} (hc : c.HeldAtDwell) (s : ClockStep α) :
    (c.step s).HeldAtDwell := by
  cases s with
  | advance deltaMs => exact hc.advance deltaMs
  | restart => exact heldAtDwell_of_zero rfl
  | jump index =>
      by_cases hindex : index < c.durations.length
      · rw [step_jump_of_lt hindex]
        exact heldAtDwell_of_zero rfl
      · rwa [step_jump_of_le (not_lt.mp hindex)]

theorem HeldAtDwell.run {c : Clock α} (hc : c.HeldAtDwell) (steps : List (ClockStep α)) :
    (c.run steps).HeldAtDwell := by
  induction steps generalizing c with
  | nil => exact hc
  | cons s rest ih =>
      rw [run_cons]
      exact ih (hc.step s)

end Lawful

/-! ## Plays -/

/-- A tick that takes the clock to a later transition passes over none without length, and if it ends
in one, it ends at its start.  A run of ticks has the clock stand in each of these that it reaches:
after a tick, or before the first one if the run starts there. -/
theorem run_stops_at_dwells (d : Document Float) (tempo : Tempo Float)
    (steps : List (ClockStep Float)) :
    let play := d.compile tempo
    let c := (start play).run steps
    (∀ deltaMs, c.index < (c.advance deltaMs).index →
      (∀ k t, c.index < k → k < (c.advance deltaMs).index → play.transitions[k]? = some t →
        (t.schedule.totalMs == 0) = false) ∧
      ∀ t, play.transitions[(c.advance deltaMs).index]? = some t →
        (t.schedule.totalMs == 0) = true → (c.advance deltaMs).elapsedMs = 0) ∧
    ∀ (deltas : List Float) k t, play.transitions[k]? = some t →
      (t.schedule.totalMs == 0) = true →
      c.index ≤ k → k ≤ (c.run (deltas.map .advance)).index →
      ∃ m ≤ deltas.length, (c.index < k → 0 < m) ∧
        (c.run ((deltas.take m).map .advance)).index = k ∧
        (c.run ((deltas.take m).map .advance)).elapsedMs = 0 := by
  intro play c
  have hlasts : ∀ {k : ℕ} {t : Transition Float}, play.transitions[k]? = some t →
      c.durations[k]? = some t.schedule.totalMs := by
    intro k t ht
    simp [c, start, ht]
  refine ⟨fun deltaMs hmoves => ⟨?_, ?_⟩, ?_⟩
  · intro k t hfrom hto ht
    exact advance_passes hfrom hto (hlasts ht)
  · intro t ht hdwell
    exact advance_held hmoves (hlasts ht) hdwell
  · intro deltas k t ht hdwell hfrom hto
    rcases Nat.eq_or_lt_of_le hfrom with hindex | hlt
    · have hheld : c.HeldAtDwell := (heldAtDwell_of_zero rfl).run steps
      exact ⟨0, Nat.zero_le _, fun hlt => absurd hlt hindex.not_lt, hindex,
        hheld t.schedule.totalMs (hindex ▸ hlasts ht) hdwell⟩
    · obtain ⟨m, hm, hpos, hindex, helapsed⟩ :=
        exists_tick_at_dwell (hlasts ht) hdwell deltas hlt hto
      exact ⟨m, hm, fun _ => hpos, hindex, helapsed⟩

/-- Two transitions without length in a row stop two long ticks, the first one at its start. -/
theorem run_stops_at_dwells_inRow :
    let phase (name : String) (actions : List (Action Float)) : Phase Float :=
      { id := ⟨name⟩, name, objects := [], actions, ballOwner := .inherit }
    let cut : Action Float := .freehand ⟨"a1"⟩ .cut ⟨0, 0⟩ ⟨0, 0⟩
    let play : Document Float :=
      .new .half [phase "p1" [cut], phase "p2" [], phase "p3" [], phase "p4" [cut], phase "p5" []]
    let tempo : Tempo Float := ⟨{}, SpeedPreset.double.speed⟩
    let c := start (play.compile tempo)
    let deltas : List Float := [5000, 5000, 5000]
    (c.advance 5000).index = 1 ∧ (c.advance 5000).elapsedMs = 0 ∧
      (c.run (deltas.map .advance)).isFinished = true ∧
      ∃ m ≤ 3, 0 < m ∧ (c.run ((deltas.take m).map .advance)).index = 2 ∧
        (c.run ((deltas.take m).map .advance)).elapsedMs = 0 := by
  intro phase cut play tempo c deltas
  have hfirst : (c.advance 5000).index = 1 := by decide +kernel
  obtain ⟨htick, hrun⟩ := run_stops_at_dwells play tempo []
  obtain ⟨t, ht, hzero⟩ : ∃ t, (play.compile tempo).transitions[1]? = some t ∧
      (t.schedule.totalMs == 0) = true := ⟨_, rfl, by decide +kernel⟩
  have helapsed : (c.advance 5000).elapsedMs = 0 :=
    (htick 5000 (by decide +kernel)).2 t (hfirst.symm ▸ ht) hzero
  obtain ⟨t', ht', hzero'⟩ : ∃ t, (play.compile tempo).transitions[2]? = some t ∧
      (t.schedule.totalMs == 0) = true := ⟨_, rfl, by decide +kernel⟩
  obtain ⟨m, hm, hpos, hindex, hstart⟩ :=
    hrun deltas 2 t' ht' hzero' (by decide +kernel) (by decide +kernel)
  exact ⟨hfirst, helapsed, by decide +kernel, m, hm, hpos (by decide +kernel), hindex, hstart⟩

end PlayDiagram.Clock
