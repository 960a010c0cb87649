import Mathlib.Algebra.Order.Field.Basic
import Mathlib.Algebra.Order.Field.Rat
import PlayDiagram.Proofs.Playback.Compilation
import PlayDiagram.Proofs.Playback.UnitChange
import PlayDiagram.Proofs.Playback.Windows

/-!
# Plays at another speed

Compiled at a speed that is `k` times as high, a play is the same but for its times, which are
divided by `k`; and at the times divided by `k` it shows the same frames (`compile_faster`).  Clocks
of the two plays that are driven by the same steps, but for the lengths of the ticks, run side by
side (`run_faster`).
-/

namespace PlayDiagram

open ExtendedRat (finite)

/-! ## Dividing by a positive number -/

namespace ExtendedRat

/-- The value over a positive number, the infinities staying what they are. -/
def per (k : ℚ) : ExtendedRat → ExtendedRat
  | finite x => finite (x / k)
  | nan => nan
  | negInf => negInf
  | posInf => posInf

variable {k : ℚ} (hk : 0 < k)

include hk

theorem div_finite : (· / finite k) = per k := by
  funext x
  cases x with
  | finite x => exact finite_div hk.ne'
  | nan => rfl
  | negInf => exact if_neg hk.not_gt
  | posInf => exact if_neg hk.not_gt

theorem div_neg_iff_of_pos (x : ℚ) : x / k < 0 ↔ x < 0 := by
  rw [div_lt_iff₀ hk, zero_mul]

theorem infinityOfSign_div (x : ℚ) : infinityOfSign (x / k) = infinityOfSign x := by
  simp only [infinityOfSign, div_neg_iff_of_pos hk, div_pos_iff_of_pos_right hk]

omit hk in
theorem per_add (k : ℚ) (x y : ExtendedRat) : per k (x + y) = per k x + per k y := by
  cases x with
  | finite x =>
      cases y with
      | finite y => exact congrArg finite (add_div x y k)
      | nan | negInf | posInf => rfl
  | nan | negInf | posInf => cases y <;> rfl

omit hk in
theorem per_sub (k : ℚ) (x y : ExtendedRat) : per k (x - y) = per k x - per k y := by
  have hneg : per k (neg y) = neg (per k y) := by
    cases y with
    | finite y => exact congrArg finite (neg_div k y)
    | nan | negInf | posInf => rfl
  show per k (x + neg y) = per k x + neg (per k y)
  rw [per_add, hneg]

theorem per_eq_iff (x y : ExtendedRat) : per k x = per k y ↔ x = y := by
  cases x with
  | finite x =>
      cases y with
      | finite y => simp only [per, finite.injEq, div_left_inj' hk.ne']
      | nan | negInf | posInf => simp [per]
  | nan | negInf | posInf => cases y <;> simp [per]

theorem below_per (x y : ExtendedRat) : below (per k x) (per k y) = below x y := by
  cases x with
  | finite x =>
      cases y with
      | finite y => simp only [per, below, div_lt_div_iff_of_pos_right hk]
      | nan | negInf | posInf => rfl
  | nan | negInf | posInf => cases y <;> rfl

theorem same_per (x y : ExtendedRat) : same (per k x) (per k y) = same x y := by
  have heq := per_eq_iff hk x y
  cases x with
  | nan => rfl
  | finite x | negInf | posInf => exact decide_eq_decide.mpr heq

theorem per_div_per (x y : ExtendedRat) : per k x / per k y = x / y := by
  cases x with
  | finite x =>
      cases y with
      | finite y =>
          show (if y / k = 0 then infinityOfSign (x / k) else finite (x / k / (y / k))) =
            if y = 0 then infinityOfSign x else finite (x / y)
          simp only [div_eq_zero_iff, hk.ne', or_false, infinityOfSign_div hk,
            div_div_div_cancel_right₀ hk.ne']
      | nan | negInf | posInf => rfl
  | negInf =>
      cases y with
      | finite y =>
          show (if y / k < 0 then posInf else negInf) = if y < 0 then posInf else negInf
          simp only [div_neg_iff_of_pos hk]
      | nan | negInf | posInf => rfl
  | posInf =>
      cases y with
      | finite y =>
          show (if y / k < 0 then negInf else posInf) = if y < 0 then negInf else posInf
          simp only [div_neg_iff_of_pos hk]
      | nan | negInf | posInf => rfl
  | nan => cases y <;> rfl

theorem isUnitChange_per : IsUnitChange (per k) where
  map_zero := congrArg finite (zero_div k)
  map_add := per_add k
  map_sub := per_sub k
  lt_iff x y := by
    show below _ _ = true ↔ below _ _ = true
    rw [below_per hk]
  le_iff x y := by
    show (below _ _ || same _ _) = true ↔ (below _ _ || same _ _) = true
    rw [below_per hk, same_per hk]
  beq_zero x := by
    have hzero : per k 0 = 0 := congrArg finite (zero_div k)
    show same (per k x) 0 = same x 0
    rw [← same_per hk x 0, hzero]
  isNaN_eq x := by cases x <;> rfl
  isFinite_eq x := by cases x <;> rfl
  div_map := per_div_per hk
  totalLE_map x y := by
    show totalBelow (per k x) (per k y) = totalBelow x y
    have hnan : per k y = nan ↔ y = nan := per_eq_iff hk y nan
    simp only [totalBelow, hnan, per_eq_iff hk, below_per hk]

theorem isUnitChange_div : IsUnitChange (· / finite k) := by
  rw [div_finite hk]
  exact isUnitChange_per hk

end ExtendedRat

/-! ## A higher speed -/

/-- The speed times a positive number. -/
def Speed.times {k : ℚ} (hk : 0 < k) (s : Speed ExtendedRat) : Speed ExtendedRat where
  value := .finite k * s.value
  finite := by
    obtain ⟨q, -, hvalue⟩ := s.exists_rat
    rw [hvalue]
    rfl
  positive := by
    obtain ⟨q, hq, hvalue⟩ := s.exists_rat
    rw [hvalue]
    exact ExtendedRat.finite_lt_finite.mpr (mul_pos hk hq)

/-- The tempo with its speed times a positive number. -/
def Tempo.faster {k : ℚ} (hk : 0 < k) (tempo : Tempo ExtendedRat) : Tempo ExtendedRat :=
  { tempo with speed := tempo.speed.times hk }

theorem Speed.scale_times {k : ℚ} (hk : 0 < k) (s : Speed ExtendedRat) (ms : UInt32) :
    (s.times hk).scale ms = s.scale ms / .finite k := by
  obtain ⟨q, hq, hvalue⟩ := s.exists_rat
  show (.finite ms.toNat / (.finite k * s.value) : ExtendedRat) =
    .finite ms.toNat / s.value / .finite k
  rw [hvalue]
  show (.finite ms.toNat / .finite (k * q) : ExtendedRat) = .finite ms.toNat / .finite q / .finite k
  rw [ExtendedRat.finite_div (mul_pos hk hq).ne', ExtendedRat.finite_div hq.ne',
    ExtendedRat.finite_div hk.ne', mul_comm, div_div]

theorem Tempo.lengthMs_faster {k : ℚ} (hk : 0 < k) (tempo : Tempo ExtendedRat) (timing : Timing) :
    (tempo.faster hk).lengthMs timing = tempo.lengthMs timing / finite k :=
  tempo.speed.scale_times hk _

/-- The windows of a schedule are as long as its actions last. -/
theorem Schedule.ofActions_durations (tempo : Tempo ExtendedRat)
    (actions : List (Action ExtendedRat)) :
    (ofActions tempo actions).actions.map (·.durationMs) =
      actions.map fun a => tempo.lengthMs a.timing := by
  obtain ⟨exact, -, -, hlength⟩ := tempo.exists_exact
  obtain ⟨totalMs, -, -, hentries⟩ := ofActions_windows isTimeMap_finite hlength actions
  apply List.ext_getElem?
  intro j
  rw [List.getElem?_map, List.getElem?_map]
  cases hs : (ofActions tempo actions).actions[j]? with
  | none =>
      rw [List.getElem?_eq_none_iff, ofActions_length, ← List.getElem?_eq_none_iff] at hs
      rw [hs]
      rfl
  | some s =>
      obtain ⟨a, startMs, ha, hwindow⟩ := hentries j s hs
      have hlasts : s.durationMs = finite (exact.lengthMs a.timing) := by
        unfold ScheduledAction.durationMs
        rw [hwindow.ends, hwindow.starts, ExtendedRat.finite_sub, add_sub_cancel_left]
      rw [ha, Option.map_some, Option.map_some, hlasts, hlength]

namespace Document

/-- Compiled at a speed `k` times as high, a play has the same transitions with all times divided by
`k`, and shows the same frames at the times divided by `k`.  It is the nominal duration, raised to
the floor, that is divided. -/
theorem compile_faster (d : Document ExtendedRat) (tempo : Tempo ExtendedRat) {k : ℚ}
    (hk : 0 < k) :
    (d.compile (tempo.faster hk)).speed = finite k * (d.compile tempo).speed ∧
    (d.compile (tempo.faster hk)).startOwners = (d.compile tempo).startOwners ∧
    (d.compile (tempo.faster hk)).transitions =
      (d.compile tempo).transitions.map (·.mapTimes (· / finite k)) ∧
    ∀ (i : ℕ) (slow fast : Transition ExtendedRat), (d.compile tempo).transitions[i]? = some slow →
      (d.compile (tempo.faster hk)).transitions[i]? = some fast →
      (∀ t, fast.frameAt (t / finite k) = slow.frameAt t) ∧
      ∀ p : Phase ExtendedRat, d.phases[i]? = some p →
        fast.schedule.actions.map (·.durationMs) = p.actions.map fun a =>
          Scalar.ofWord (max (a.timing.durationMs.getD tempo.config.defaultMs) tempo.config.floorMs) /
            (finite k * tempo.speed.value) := by
  have hφ := ExtendedRat.isUnitChange_div hk
  have hlength := tempo.lengthMs_faster hk
  have htransitions := hφ.compile_transitions hlength d
  refine ⟨rfl, hφ.compile_startOwners hlength d, htransitions, ?_⟩
  intro i slow fast hslow hfast
  constructor
  · intro t
    rw [htransitions, List.getElem?_map, hslow] at hfast
    cases hfast
    exact hφ.frameAt_mapTimes slow t
  · intro p hp
    obtain ⟨p', q, hp', hq⟩ := exists_phases_of_transition hfast
    obtain ⟨owner, -, htransition, -⟩ := compile_step (tempo.faster hk) hp' hq
    cases hp.symm.trans hp'
    cases hfast.symm.trans htransition
    exact Schedule.ofActions_durations (tempo.faster hk) p.actions

/-- Twice as fast, a cut of the least duration and a screen after it take half the time, and in the
middle of the screen the players stand where they stood. -/
theorem compile_faster_twice :
    let cut : Action ExtendedRat :=
      ((Action.freehand ⟨"a1"⟩ .cut ⟨0, 0⟩ ⟨finite 80, 0⟩).performedBy ⟨"o1"⟩).lasting 60
    let screen : Action ExtendedRat :=
      (Action.freehand ⟨"a2"⟩ .screen ⟨0, 0⟩ ⟨0, finite 40⟩).performedBy ⟨"o2"⟩
    let first : Phase ExtendedRat :=
      { id := ⟨"p1"⟩, name := "Screen", actions := [cut, screen], ballOwner := .inherit
        objects := [.new ⟨"o1"⟩ .offensePlayer ⟨0, 0⟩, .new ⟨"o2"⟩ .offensePlayer ⟨0, 0⟩] }
    let play : Document ExtendedRat := .new .half [first, { first with id := ⟨"p2"⟩, actions := [] }]
    let tempo : Tempo ExtendedRat := ⟨{}, 1, rfl, by decide⟩
    ∃ (hk : 0 < (2 : ℚ)) (slow fast : Transition ExtendedRat),
      (play.compile tempo).transitions[0]? = some slow ∧
      (play.compile (tempo.faster hk)).transitions[0]? = some fast ∧
      slow.schedule.totalMs = finite 920 ∧
      fast.schedule.actions.map (·.durationMs) = [finite 60, finite 400] ∧
      (slow.frameAt (finite 520)).position? ⟨"o2"⟩ = some ⟨0, finite 20⟩ ∧
      fast.frameAt (finite 260) = slow.frameAt (finite 520) := by
  intro cut screen first play tempo
  have hk : 0 < (2 : ℚ) := by decide
  obtain ⟨-, -, htransitions, hsame⟩ := compile_faster play tempo hk
  have hslow : ((play.compile tempo).transitions[0]?.map fun slow =>
      (slow.schedule.totalMs, (slow.frameAt (finite 520)).position? ⟨"o2"⟩)) =
      some (finite 920, some ⟨0, finite 20⟩) := by
    decide +kernel
  obtain ⟨slow, ht, hshown⟩ := Option.map_eq_some_iff.mp hslow
  have hfast := congrArg (·[0]?) htransitions
  simp only [List.getElem?_map, ht, Option.map_some] at hfast
  obtain ⟨hframes, hdurations⟩ := hsame 0 slow _ ht hfast
  have hhalf : finite 520 / finite 2 = finite 260 := by decide +kernel
  refine ⟨hk, slow, _, ht, hfast, congrArg Prod.fst hshown, (hdurations first rfl).trans ?_,
    congrArg Prod.snd hshown, ?_⟩
  · decide +kernel
  · rw [← hhalf]
    exact hframes (finite 520)

end Document

namespace Clock

/-- Clocks of a play and of the same play at a speed `k` times as high, driven by the same steps
with the lengths of the ticks divided by `k`, run side by side: after every run they stand in the
same transition, show the same frame and report the same, and the faster one has spent a `k`-th of
the time. -/
theorem run_faster (d : Document ExtendedRat) (tempo : Tempo ExtendedRat) {k : ℚ} (hk : 0 < k)
    (steps : List (ClockStep ExtendedRat)) :
    let slowPlay := d.compile tempo
    let fastPlay := d.compile (tempo.faster hk)
    let slow := (start slowPlay).run steps
    let fast := (start fastPlay).run (steps.map (·.mapTimes (· / finite k)))
    fast.index = slow.index ∧
    fast.isFinished = slow.isFinished ∧
    fast.elapsedMs = slow.elapsedMs / finite k ∧
    fast.frame? fastPlay = slow.frame? slowPlay ∧
    (∀ deltaMs, (fast.tick (deltaMs / finite k)).2 = (slow.tick deltaMs).2) ∧
    ∀ index, fast.jump index = (slow.jump index).map (·.mapTimes (· / finite k)) := by
  intro slowPlay fastPlay slow fast
  have hφ := ExtendedRat.isUnitChange_div hk
  have hlength := tempo.lengthMs_faster hk
  have hfast : fast = slow.mapTimes (· / finite k) := by
    show (start fastPlay).run _ = _
    rw [hφ.start_compile hlength d, hφ.run_mapTimes]
  rw [hfast]
  refine ⟨rfl, hφ.isFinished_mapTimes slow, rfl, ?_, hφ.tick_snd_mapTimes slow, fun index => ?_⟩
  · exact hφ.frame?_mapTimes (hφ.compile_transitions hlength d) slow
  · rw [hφ.jump_mapTimes, jump]
    by_cases hindex : index < slow.durations.length
    · rw [if_pos hindex, if_pos hindex]
      rfl
    · rw [if_neg hindex, if_neg hindex]
      rfl

/-- Half as fast again, past a phase without actions and a jump that is refused. -/
theorem run_faster_pastDwell :
    let cut : Action ExtendedRat :=
      ((Action.freehand ⟨"a1"⟩ .cut ⟨0, 0⟩ ⟨finite 80, 0⟩).performedBy ⟨"o1"⟩).lasting 60
    let first : Phase ExtendedRat :=
      { id := ⟨"p1"⟩, name := "Cut", objects := [.new ⟨"o1"⟩ .offensePlayer ⟨0, 0⟩], actions := [cut]
        ballOwner := .inherit }
    let play : Document ExtendedRat :=
      .new .half [first, { first with id := ⟨"p2"⟩, actions := [] }, { first with id := ⟨"p3"⟩ },
        { first with id := ⟨"p4"⟩ }]
    let tempo : Tempo ExtendedRat := ⟨{}, 1, rfl, by decide⟩
    let steps : List (ClockStep ExtendedRat) :=
      [.advance (finite 500), .advance (finite (-5)), .jump 9, .advance (finite 90)]
    ∃ hk : 0 < (3 / 2 : ℚ),
      let slow := (start (play.compile tempo)).run steps
      let fast := (start (play.compile (tempo.faster hk))).run
        (steps.map (·.mapTimes (· / finite (3 / 2))))
      fast.index = 2 ∧ fast.elapsedMs = finite 60 ∧
      fast.frame? (play.compile (tempo.faster hk)) = slow.frame? (play.compile tempo) ∧
      (slow.frame? (play.compile tempo)).bind (·.position? ⟨"o1"⟩) = some ⟨finite 60, 0⟩ := by
  intro cut first play tempo steps
  have hk : 0 < (3 / 2 : ℚ) := by decide +kernel
  refine ⟨hk, ?_⟩
  intro slow fast
  obtain ⟨hindex, -, helapsed, hframe, -⟩ := run_faster play tempo hk steps
  have hslow : slow.index = 2 ∧ slow.elapsedMs / finite (3 / 2) = finite 60 := by decide +kernel
  refine ⟨hindex.trans hslow.1, helapsed.trans hslow.2, hframe, ?_⟩
  decide +kernel

end Clock

end PlayDiagram
