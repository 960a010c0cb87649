import PlayDiagram.Proofs.Playback.ClockEmbedding
import PlayDiagram.Proofs.Playback.TickSize

/-!
# How soon a play is over

A tick that ends in a transition without length drops what is left of it, so that the ticks of a run
need not add up to the time played.  What grows with every tick is the time played together with one
tick for each such transition that was reached (`InPlay.advance_gains`).  A play is therefore over
after as many ticks as this takes (`run_advance_finishes`).
-/

namespace PlayDiagram.Clock

/-! ## Transitions without length -/

/-- How many transitions without length follow the first one, up to the one at an index. -/
def dwellsUpTo (durations : List ℚ) (i : ℕ) : ℕ :=
  (durations.tail.take i).count 0

theorem dwellsUpTo_le (durations : List ℚ) (i : ℕ) :
    dwellsUpTo durations i ≤ durations.tail.count 0 :=
  (List.take_sublist i durations.tail).count_le 0

theorem dwellsUpTo_add (durations : List ℚ) (i k : ℕ) :
    dwellsUpTo durations (i + k) =
      dwellsUpTo durations i + ((durations.tail.drop i).take k).count 0 := by
  simp only [dwellsUpTo, List.take_add, List.count_append]

theorem dwellsUpTo_mono (durations : List ℚ) {i j : ℕ} (hij : i ≤ j) :
    dwellsUpTo durations i ≤ dwellsUpTo durations j := by
  obtain ⟨k, rfl⟩ := Nat.exists_eq_add_of_le hij
  rw [dwellsUpTo_add]
  exact Nat.le_add_right _ _

/-- A transition without length counts when it is reached. -/
theorem dwellsUpTo_lt {durations : List ℚ} {i j : ℕ} (hij : i < j) (hdwell : durations[j]? = some 0) :
    dwellsUpTo durations i < dwellsUpTo durations j := by
  obtain ⟨k, rfl⟩ := Nat.exists_eq_add_of_lt hij
  have hlast : ((durations.tail.drop i).take (k + 1))[k]? = some 0 := by
    rw [List.getElem?_take_of_lt (Nat.lt_succ_self k), List.getElem?_drop, List.getElem?_tail]
    exact hdwell
  rw [Nat.add_assoc, dwellsUpTo_add]
  exact Nat.lt_add_of_pos_right (List.count_pos_iff.mpr (List.mem_of_getElem? hlast))

/-! ## What a tick gains -/

section Stands

variable {c : Clock ℚ}

/-- A tick never takes time back. -/
theorem InPlay.playMs_le_advance (hc : c.InPlay) (deltaMs : ℚ) :
    c.playMs ≤ (c.advance deltaMs).playMs := by
  obtain ⟨duration, hstands⟩ := (hc.advance deltaMs).standsIn
  rcases hc.atOrBefore_advance deltaMs with hlater | ⟨hsame, hle⟩
  · calc c.playMs ≤ startMs c.durations (c.index + 1) := hc.playMs_le_startMs
      _ ≤ startMs c.durations (c.advance deltaMs).index := startMs_mono hc.durations_nonneg hlater
      _ ≤ (c.advance deltaMs).playMs := by
        rw [playMs, advance_durations]
        exact le_add_of_nonneg_right hstands.elapsed_nonneg
  · rw [playMs, playMs, advance_durations, hsame]
    exact add_le_add_right hle _

/-- A tick that does not end the play is either spent in full, or ends in a transition without
length that it has newly reached. -/
theorem InPlay.advance_cases (hc : c.InPlay) {deltaMs : ℚ} (hdelta : 0 ≤ deltaMs) :
    (c.advance deltaMs).isFinished = true ∨
      (c.advance deltaMs).playMs = c.playMs + deltaMs ∨
      (c.index < (c.advance deltaMs).index ∧
        c.durations[(c.advance deltaMs).index]? = some 0) := by
  by_cases hfinished : c.isFinished = true
  · rw [advance_of_isFinished hfinished]
    exact Or.inl hfinished
  · obtain ⟨k, rest, duration, hadvance, hlanding⟩ :=
      hc.advance_landing (Bool.eq_false_iff.mpr hfinished) deltaMs
    have hstands := hlanding.standsIn hc.durations_nonneg
    have hstart := startMs_add c.durations c.index k
    have hends := hlanding.ends
    rw [max_eq_right hdelta, List.length_drop] at hends
    rw [hadvance]
    have hspent : rest = c.elapsedMs + deltaMs - startMs (c.durations.drop c.index) k →
        playMs { c with index := c.index + k, elapsedMs := rest } = c.playMs + deltaMs := by
      intro hrest
      simp only [playMs, hstart, hrest]
      ring
    rcases hends with ⟨-, hrest, -⟩ | ⟨hpos, hzero, -⟩ | ⟨hlast, hrest⟩
    · exact Or.inr (Or.inl (hspent hrest))
    · exact Or.inr (Or.inr ⟨Nat.lt_add_of_pos_right hpos, hzero ▸ hstands.lasts⟩)
    · rcases min_choice (c.elapsedMs + deltaMs - startMs (c.durations.drop c.index) k) duration
        with hmin | hmin
      · exact Or.inr (Or.inl (hspent (hrest.trans hmin)))
      · have hbefore : c.index + k < c.durations.length := hstands.index_lt
        refine Or.inl (hstands.isFinished_iff.mpr ⟨?_, hrest.trans hmin⟩)
        show c.index + k + 1 = c.durations.length
        omega

/-- The time played, and a tick for each transition without length that was reached. -/
def progressMs (leastMs : ℚ) (c : Clock ℚ) : ℚ :=
  c.playMs + dwellsUpTo c.durations c.index * leastMs

variable {leastMs : ℚ}

/-- A tick brings the clock on by the least length of a tick, or to the end. -/
theorem InPlay.advance_gains (hc : c.InPlay) (hleast : 0 < leastMs) {deltaMs : ℚ}
    (hdelta : leastMs ≤ deltaMs) :
    (c.advance deltaMs).isFinished = true ∨
      c.progressMs leastMs + leastMs ≤ (c.advance deltaMs).progressMs leastMs := by
  rcases hc.advance_cases (hleast.le.trans hdelta) with hfinished | hspent | ⟨hlater, hdwell⟩
  · exact Or.inl hfinished
  · right
    have hindex : c.index ≤ (c.advance deltaMs).index := by
      rcases hc.atOrBefore_advance deltaMs with hlt | ⟨heq, -⟩
      · exact hlt.le
      · exact heq.le
    have hdwells : (dwellsUpTo c.durations c.index : ℚ) * leastMs ≤
        dwellsUpTo c.durations (c.advance deltaMs).index * leastMs := by
      gcongr
      exact dwellsUpTo_mono c.durations hindex
    rw [progressMs, progressMs, hspent, advance_durations]
    linarith
  · right
    have htime := hc.playMs_le_advance deltaMs
    have hdwells : ((dwellsUpTo c.durations c.index : ℚ) + 1) * leastMs ≤
        dwellsUpTo c.durations (c.advance deltaMs).index * leastMs := by
      gcongr
      exact_mod_cast dwellsUpTo_lt hlater hdwell
    rw [progressMs, progressMs, advance_durations]
    linarith

/-- As long as the play is not over, there is time left to play or a transition without length to
reach. -/
theorem InPlay.progressMs_lt (hc : c.InPlay) (hleast : 0 < leastMs)
    (hrunning : ¬c.isFinished = true) :
    c.progressMs leastMs < c.durations.sum + c.durations.tail.count 0 * leastMs := by
  obtain ⟨duration, hstands⟩ := hc.standsIn
  have hsum := hc.playMs_le_sum
  have hdwells : (dwellsUpTo c.durations c.index : ℚ) * leastMs ≤
      c.durations.tail.count 0 * leastMs := by
    gcongr
    exact dwellsUpTo_le c.durations c.index
  rw [progressMs]
  rcases (Nat.add_one_le_of_lt hstands.index_lt).eq_or_lt with hlast | hnext
  · -- In the last transition, time is left.
    have hbefore : c.elapsedMs < duration := by
      refine hstands.elapsed_le.lt_of_ne fun helapsed => hrunning ?_
      exact hstands.isFinished_iff.mpr ⟨hlast, helapsed⟩
    have hend := startMs_succ hstands.lasts
    rw [hlast, startMs_length] at hend
    rw [playMs]
    linarith
  · have hlasts : c.durations[c.index + 1]? = some c.durations[c.index + 1] :=
      List.getElem?_eq_getElem hnext
    have hnonneg := hc.durations_nonneg _ (List.mem_of_getElem? hlasts)
    rcases hnonneg.eq_or_lt with hzero | hpos
    · -- The next transition has no length and was not reached.
      rw [← hzero] at hlasts
      have hmore : ((dwellsUpTo c.durations c.index : ℚ) + 1) * leastMs ≤
          c.durations.tail.count 0 * leastMs := by
        gcongr
        have hreached := dwellsUpTo_lt (Nat.lt_succ_self c.index) hlasts
        exact_mod_cast hreached.trans_le (dwellsUpTo_le c.durations _)
      linarith
    · have hend := startMs_succ hlasts
      have hrest := hc.startMs_le_sum (Nat.succ_le_of_lt hnext)
      have htime := hc.playMs_le_startMs
      linarith

/-- Every tick of a run brings the clock on, until the play is over. -/
theorem InPlay.run_gains (hc : c.InPlay) (hleast : 0 < leastMs) {deltas : List ℚ}
    (hdeltas : ∀ deltaMs ∈ deltas, leastMs ≤ deltaMs) :
    (c.run (deltas.map .advance)).isFinished = true ∨
      c.progressMs leastMs + deltas.length * leastMs ≤
        (c.run (deltas.map .advance)).progressMs leastMs := by
  induction deltas generalizing c with
  | nil =>
      right
      rw [List.length_nil, Nat.cast_zero, zero_mul, add_zero]
      exact le_rfl
  | cons deltaMs rest ih =>
      rw [List.forall_mem_cons] at hdeltas
      rw [List.map_cons, run_cons]
      rcases hc.advance_gains hleast hdeltas.1 with hfinished | hgain
      · left
        have hstill := run_advance_of_isFinished hfinished rest
        exact (congrArg Clock.isFinished hstill).trans hfinished
      · rcases ih (hc.advance deltaMs) hdeltas.2 with hfinished | hgains
        · exact Or.inl hfinished
        · right
          calc c.progressMs leastMs + (rest.length + 1 : ℕ) * leastMs
              = c.progressMs leastMs + leastMs + rest.length * leastMs := by push_cast; ring
            _ ≤ (c.advance deltaMs).progressMs leastMs + rest.length * leastMs := by gcongr
            _ ≤ _ := hgains

end Stands

/-! ## The clock of a play -/

theorem exists_transition_of_duration {play : CompiledPlay ℚ} {i : ℕ} {duration : ℚ}
    (hduration : (start play).durations[i]? = some duration) :
    ∃ t, play.transitions[i]? = some t ∧ t.schedule.totalMs = duration := by
  rw [start, List.getElem?_map, Option.map_eq_some_iff] at hduration
  exact hduration

theorem start_compile_inPlay {d : Document ℚ} {tempo : Tempo ℚ}
    (hmoves : (d.compile tempo).transitions ≠ []) : (start (d.compile tempo)).InPlay :=
  start_inPlay_of_nonneg hmoves fun _ ht => Document.totalMs_nonneg ht

theorem start_progressMs (play : CompiledPlay ℚ) (leastMs : ℚ) :
    (start play).progressMs leastMs = 0 := by
  simp [progressMs, playMs, start, dwellsUpTo]

theorem start_dwells (play : CompiledPlay ℚ) :
    (start play).durations.tail.count 0 =
      play.transitions.tail.countP fun t => t.schedule.totalMs = 0 := by
  simp only [start, ← List.map_tail, List.count, List.countP_map]
  congr 1

/-- A play is over after as many ticks as would, each counted by the least of them, make up its length
and one tick more for each transition without length that follows the first.  Of no other tick is any
time lost before the end. -/
theorem run_advance_finishes (d : Document ℚ) (tempo : Tempo ℚ)
    (hmoves : (d.compile tempo).transitions ≠ []) {leastMs : ℚ} (hleast : 0 < leastMs)
    {deltas : List ℚ} (hdeltas : ∀ deltaMs ∈ deltas, leastMs ≤ deltaMs) :
    let play := d.compile tempo
    let c := (start play).run (deltas.map .advance)
    let dwells : ℕ := play.transitions.tail.countP fun t => t.schedule.totalMs = 0
    (play.totalMs + dwells * leastMs ≤ deltas.length * leastMs → c.isFinished = true) ∧
      ∀ deltaMs : ℚ, 0 ≤ deltaMs →
        (c.advance deltaMs).isFinished = true ∨
        (c.advance deltaMs).playMs = c.playMs + deltaMs ∨
        (c.index < (c.advance deltaMs).index ∧
          ∃ t, play.transitions[(c.advance deltaMs).index]? = some t ∧ t.schedule.totalMs = 0) := by
  intro play c dwells
  have hstart : (start play).InPlay := start_compile_inPlay hmoves
  have hc : c.InPlay := hstart.run _
  have hdurations : c.durations = (start play).durations := run_durations _ _
  constructor
  · intro henough
    by_contra hrunning
    have hleft := hc.progressMs_lt hleast hrunning
    rw [hdurations, start_durations_sum, start_dwells] at hleft
    rcases hstart.run_gains hleast hdeltas with hfinished | hgains
    · exact hrunning hfinished
    · rw [start_progressMs, zero_add] at hgains
      exact absurd (hgains.trans_lt hleft) henough.not_gt
  · intro deltaMs hdelta
    rcases hc.advance_cases hdelta with hfinished | hspent | ⟨hlater, hdwell⟩
    · exact Or.inl hfinished
    · exact Or.inr (Or.inl hspent)
    · rw [hdurations] at hdwell
      obtain ⟨t, ht, hzero⟩ := exists_transition_of_duration hdwell
      exact Or.inr (Or.inr ⟨hlater, t, ht, hzero⟩)

/-- A play of a second with two transitions without length takes six ticks of 250 ms, and no fewer. -/
theorem run_advance_finishes_sixTicks :
    let phase (name : String) (actions : List (Action ℚ)) : Phase ℚ :=
      { id := ⟨name⟩, name, objects := [], actions, ballOwner := .inherit }
    let cut : Action ℚ := .freehand ⟨"a1"⟩ .cut ⟨0, 0⟩ ⟨0, 0⟩
    let d : Document ℚ :=
      .new .half [phase "p1" [cut.lasting 600], phase "p2" [], phase "p3" [], phase "p4" [cut.lasting 400],
        phase "p5" []]
    let tempo : Tempo ℚ := ⟨{}, 1, rfl, by decide⟩
    let afterTicks (m : ℕ) : Clock ℚ :=
      (start (d.compile tempo)).run ((List.replicate m 250).map .advance)
    (d.compile tempo).transitions.map (·.schedule.totalMs) = [600, 0, 0, 400] ∧
      (0 : ℚ) < 250 ∧ (1000 + 2 * 250 : ℚ) ≤ 6 * 250 ∧
      (afterTicks 6).isFinished = true ∧ (afterTicks 5).isFinished = false := by
  intro phase cut d tempo afterTicks
  have hlasts : (d.compile tempo).transitions.map (·.schedule.totalMs) = [600, 0, 0, 400] := by
    decide +kernel
  have htotal : (d.compile tempo).totalMs = 1000 := by decide +kernel
  have hdwells : (d.compile tempo).transitions.tail.countP (fun t => t.schedule.totalMs = 0) = 2 := by
    decide +kernel
  have henough : (1000 + 2 * 250 : ℚ) ≤ 6 * 250 := by norm_num
  have hticks : ∀ deltaMs ∈ List.replicate 6 (250 : ℚ), 250 ≤ deltaMs := by decide +kernel
  obtain ⟨hfinishes, -⟩ :=
    run_advance_finishes d tempo (List.cons_ne_nil _ _) (by norm_num : (0 : ℚ) < 250) hticks
  rw [htotal, hdwells, List.length_replicate] at hfinishes
  exact ⟨hlasts, by norm_num, henough, hfinishes henough, by decide +kernel⟩

end PlayDiagram.Clock
