import PlayDiagram.Proofs.Playback.ClockEmbedding

/-!
# Runs of the clock of a play

The clock of a compiled play can be ticked by any values, put back to the start and sent to any phase.
It never leaves the play and never shows a frame beyond the end of a transition
(`run_stays_in_play`).
-/

namespace PlayDiagram

open ExtendedRat (finite)

namespace Clock

variable (d : Document ExtendedRat) (tempo : Tempo ExtendedRat)

/-- A clock of the play runs like a clock in rational numbers. -/
theorem exists_embed_eq_run (steps : List (ClockStep ExtendedRat)) :
    ∃ x : Clock ℚ, (start (d.compile tempo)).run steps = x.embed ∧
      x.durations = (exactStart (d.compile tempo)).durations ∧
      ((d.compile tempo).transitions ≠ [] → x.InPlay) := by
  refine ⟨(exactStart (d.compile tempo)).run (steps.map ClockStep.finiteOrZero), ?_, ?_, ?_⟩
  · rw [← embed_exactStart, run_embed]
  · exact run_durations _ _
  · intro hmoves
    exact (exactStart_inPlay d tempo hmoves).run _

/-- However the clock of a play with transitions is driven, it stands within one of them, and shows
its frame at just that time.  Ticks never take it back, and it tells whether more is to come; when
nothing is, it stands still.  A jump to a phase without a transition is refused. -/
theorem run_stays_in_play (hmoves : (d.compile tempo).transitions ≠ [])
    (steps : List (ClockStep ExtendedRat)) :
    let play := d.compile tempo
    let c := (start play).run steps
    c.index < play.transitions.length ∧
    (∃ t, play.transitions[c.index]? = some t ∧
      0 ≤ c.elapsedMs ∧ c.elapsedMs ≤ t.schedule.totalMs ∧
      (c.index + 1 < play.transitions.length → 0 < t.schedule.totalMs →
        c.elapsedMs < t.schedule.totalMs) ∧
      c.frame? play = some (t.frameAt c.elapsedMs) ∧ t.instant c.elapsedMs = c.elapsedMs) ∧
    (∀ deltaMs, ((c.tick deltaMs).2 = true ↔ (c.tick deltaMs).1.isFinished = false) ∧
      c.AtOrBefore (c.advance deltaMs)) ∧
    (c.isFinished = true → ∀ deltas : List ExtendedRat, c.run (deltas.map .advance) = c) ∧
    ∀ index, play.transitions.length ≤ index →
      c.jump index = .error (.phaseOutOfRange index play.transitions.length) ∧
        c.step (.jump index) = c := by
  intro play c
  obtain ⟨x, hx, hdurations, hinPlay⟩ := exists_embed_eq_run d tempo steps
  replace hx : c = x.embed := hx
  have hlength : x.durations.length = play.transitions.length :=
    (congrArg List.length hdurations).trans (exactStart_durations_length play)
  obtain ⟨duration, hstands⟩ := (hinPlay hmoves).standsIn
  obtain ⟨t, ht, hlasts⟩ := (exactStart_durations_iff d tempo).mp (hdurations ▸ hstands.lasts)
  obtain ⟨hnonneg, hle, hlt⟩ := hstands.embed
  rw [hx, ← hlength]
  refine ⟨hstands.index_lt, ⟨t, ht, hnonneg, ?_, ?_, ?_, ?_⟩, ?_, run_advance_of_isFinished, ?_⟩
  · rwa [hlasts]
  · rwa [hlasts]
  · unfold frame?
    rw [show play.transitions[x.embed.index]? = some t from ht, Option.map_some]
  · exact Transition.instant_of_between hnonneg (hlasts ▸ hle)
  · intro deltaMs
    refine ⟨?_, ?_⟩
    · rw [tick_snd, Bool.not_eq_true']
      rfl
    · rw [advance_embed, atOrBefore_embed]
      exact (hinPlay hmoves).atOrBefore_advance _
  · intro index hindex
    rw [← x.embed_durations_length] at hindex ⊢
    exact ⟨jump_of_le hindex, step_jump_of_le hindex⟩

/-- A play whose first transition has no length: infinite ticks and refused jumps leave the clock within
the second one. -/
theorem run_stays_in_play_afterBadSteps :
    let phase (name : String) (actions : List (Action ExtendedRat)) : Phase ExtendedRat :=
      { id := ⟨name⟩, name, objects := [], actions, ballOwner := .inherit }
    let cut : Action ExtendedRat := .freehand ⟨"a1"⟩ .cut ⟨0, 0⟩ ⟨0, 0⟩
    let play : Document ExtendedRat := .new .half [phase "p1" [], phase "p2" [cut], phase "p3" []]
    let tempo : Tempo ExtendedRat := ⟨{}, finite 2, rfl, by decide⟩
    let steps : List (ClockStep ExtendedRat) :=
      [.advance .nan, .advance (finite 700), .jump 2, .restart, .jump 1, .advance .posInf,
        .advance (finite (-5)), .advance (finite 300)]
    let c := (start (play.compile tempo)).run steps
    (play.compile tempo).transitions ≠ [] ∧ c.index = 1 ∧ c.elapsedMs = finite 300 ∧
      c.isFinished = false ∧
      (∃ t, (play.compile tempo).transitions[1]? = some t ∧ t.schedule.totalMs = finite 400 ∧
        c.frame? (play.compile tempo) = some (t.frameAt (finite 300)) ∧
        t.instant (finite 300) = finite 300) ∧
      (c.tick (finite 100)).2 = false ∧ (c.tick (finite 100)).1.isFinished = true := by
  intro phase cut play tempo steps c
  have hmoves : (play.compile tempo).transitions ≠ [] := List.cons_ne_nil _ _
  have hindex : c.index = 1 := by decide +kernel
  have helapsed : c.elapsedMs = finite 300 := by decide +kernel
  have hlasts : (play.compile tempo).transitions[1]?.map (·.schedule.totalMs) =
      some (finite 400) := by decide +kernel
  have hend : (c.tick (finite 100)).1.isFinished = true := by decide +kernel
  obtain ⟨-, ⟨t, ht, -, -, -, hframe, hinstant⟩, hticks, -, -⟩ :=
    run_stays_in_play play tempo hmoves steps
  have hmore : (c.tick (finite 100)).2 = true ↔ (c.tick (finite 100)).1.isFinished = false :=
    (hticks (finite 100)).1
  replace ht : (play.compile tempo).transitions[c.index]? = some t := ht
  replace hframe : c.frame? (play.compile tempo) = some (t.frameAt c.elapsedMs) := hframe
  replace hinstant : t.instant c.elapsedMs = c.elapsedMs := hinstant
  rw [hindex] at ht
  rw [helapsed] at hframe hinstant
  rw [ht, Option.map_some, Option.some.injEq] at hlasts
  refine ⟨hmoves, hindex, helapsed, by decide +kernel, ⟨t, ht, hlasts, hframe, hinstant⟩, ?_, hend⟩
  rw [Bool.eq_false_iff, Ne, hmore, hend]
  exact Bool.true_eq_false_eq_False

end Clock

end PlayDiagram
