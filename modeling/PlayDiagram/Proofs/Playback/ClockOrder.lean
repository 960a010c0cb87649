import Mathlib.Data.Prod.Lex
import PlayDiagram.Proofs.Playback.ClockRuns

/-!
# Clocks that are ahead of others

Two clocks of one play are compared by their transitions, and within one by their times.  A tick that is
not shorter keeps a clock that is not behind from falling behind, although a transition without length
may stop either of the two and drop what is left of its tick (`Clock.InPlay.advance_mono`).  For the same
reason two ticks take a clock at least as far as one of both lengths (`Clock.InPlay.advance_add_le`).
-/

namespace PlayDiagram.Clock

open ExtendedRat (finite)

/-! ## Where times roll over to -/

theorem position_le_of_index_lt {i j : ℕ} (hij : i < j) (x y : ℚ) : toLex (i, x) ≤ toLex (j, y) :=
  Prod.Lex.toLex_le_toLex.mpr (Or.inl hij)

theorem position_le_of_elapsed_le (i : ℕ) {x y : ℚ} (hxy : x ≤ y) : toLex (i, x) ≤ toLex (i, y) :=
  Prod.Lex.toLex_le_toLex.mpr (Or.inr ⟨rfl, hxy⟩)

section RollOver

variable {durations : List ℚ} (hdurations : ∀ duration ∈ durations, 0 ≤ duration)

include hdurations

/-- A time that is rolled over comes out no earlier than the start of the transition it was in. -/
theorem start_le_rollOver (index : ℕ) {total : ℚ} (htotal : 0 ≤ total) :
    toLex (index, 0) ≤ toLex (rollOver index total durations) := by
  induction durations generalizing index total with
  | nil => exact position_le_of_elapsed_le index htotal
  | cons first rest ih =>
      obtain ⟨hfirst, hrest⟩ := List.forall_mem_cons.mp hdurations
      cases rest with
      | nil =>
          rw [rollOver, exact_lesser]
          exact position_le_of_elapsed_le index (le_min htotal hfirst)
      | cons second rest =>
          rw [rollOver]
          split_ifs with hover hdwell
          · exact position_le_of_index_lt (Nat.lt_succ_self index) 0 0
          · exact (position_le_of_index_lt (Nat.lt_succ_self index) 0 0).trans
              (ih hrest (index + 1) (sub_nonneg.mpr hover))
          · exact position_le_of_elapsed_le index htotal

/-- A later time is rolled over to no earlier a position. -/
theorem rollOver_mono (index : ℕ) {s t : ℚ} (hst : s ≤ t) :
    toLex (rollOver index s durations) ≤ toLex (rollOver index t durations) := by
  induction durations generalizing index s t with
  | nil => exact position_le_of_elapsed_le index hst
  | cons first rest ih =>
      obtain ⟨-, hrest⟩ := List.forall_mem_cons.mp hdurations
      cases rest with
      | nil =>
          rw [rollOver, rollOver, exact_lesser, exact_lesser]
          exact position_le_of_elapsed_le index (min_le_min_right first hst)
      | cons second rest =>
          rw [rollOver, rollOver]
          by_cases hs : first ≤ s
          · rw [if_pos hs, if_pos (hs.trans hst)]
            split_ifs with hdwell
            · exact le_rfl
            · exact ih hrest (index + 1) (sub_le_sub_right hst first)
          · rw [if_neg hs]
            split_ifs with ht hdwell
            · exact position_le_of_index_lt (Nat.lt_succ_self index) s 0
            · exact (position_le_of_index_lt (Nat.lt_succ_self index) s 0).trans
                (start_le_rollOver hrest (index + 1) (sub_nonneg.mpr ht))
            · exact position_le_of_elapsed_le index hst

/-- A time does not come out beyond one that is rolled over from the next transition on, if no more of it
is left there.  A transition without length that stops the first time lies before the second one. -/
theorem rollOver_le_rollOver_succ {i : ℕ} {duration : ℚ} (hlasts : durations[i]? = some duration)
    (hnext : i + 1 < durations.length) {total later : ℚ} (htotal : total ≤ duration + later)
    (hlater : 0 ≤ later) :
    toLex (rollOver i total (durations.drop i)) ≤
      toLex (rollOver (i + 1) later (durations.drop (i + 1))) := by
  have hrest : ∀ duration ∈ durations.drop (i + 1), 0 ≤ duration := fun duration hduration =>
    hdurations duration (List.mem_of_mem_drop hduration)
  have hstart := start_le_rollOver hrest (i + 1) hlater
  obtain ⟨hi, rfl⟩ := List.getElem?_eq_some_iff.mp hlasts
  rw [List.drop_eq_getElem_cons hi, List.drop_eq_getElem_cons hnext] at *
  rw [rollOver]
  split_ifs with hover hdwell
  · exact hstart
  · exact rollOver_mono hrest (i + 1) (sub_le_iff_le_add'.mpr htotal)
  · exact (position_le_of_index_lt (Nat.lt_succ_self i) total 0).trans hstart

theorem rollOver_le_rollOver_of_lt {i j : ℕ} (hij : i < j) (hj : j < durations.length) {duration : ℚ}
    (hlasts : durations[i]? = some duration) {total later : ℚ} (htotal : total ≤ duration + later)
    (hlater : 0 ≤ later) :
    toLex (rollOver i total (durations.drop i)) ≤
      toLex (rollOver j later (durations.drop j)) := by
  induction j, hij using Nat.le_induction with
  | base => exact rollOver_le_rollOver_succ hdurations hlasts hj htotal hlater
  | succ j hij ih =>
      have hj' : j < durations.length := Nat.lt_of_succ_lt hj
      have hlonger : later ≤ durations[j] + later :=
        le_add_of_nonneg_left (hdurations _ (List.getElem_mem hj'))
      exact (ih hj').trans
        (rollOver_le_rollOver_succ hdurations (List.getElem?_eq_getElem hj') hj hlonger hlater)

/-- A time that is rolled over in two parts comes out no earlier than in one. -/
theorem exists_rollOver_add_le (index : ℕ) (s : ℚ) {t : ℚ} (ht : 0 ≤ t) :
    ∃ k rest, rollOver index s durations = (index + k, rest) ∧
      toLex (rollOver index (s + t) durations) ≤
        toLex (rollOver (index + k) (rest + t) (durations.drop k)) := by
  induction durations generalizing index s with
  | nil => exact ⟨0, s, rfl, le_rfl⟩
  | cons first rest ih =>
      obtain ⟨-, hrest⟩ := List.forall_mem_cons.mp hdurations
      cases rest with
      | nil =>
          refine ⟨0, min s first, ?_, ?_⟩
          · rw [rollOver, exact_lesser, Nat.add_zero]
          · rw [rollOver, List.drop_zero, rollOver, exact_lesser, exact_lesser, ← min_add_add_right,
              min_assoc, min_eq_right (le_add_of_nonneg_right ht)]
            rfl
      | cons second rest =>
          by_cases hover : first ≤ s
          · have hover' : first ≤ s + t := le_add_of_le_of_nonneg hover ht
            by_cases hdwell : (second == 0) = true
            · refine ⟨1, 0, ?_, ?_⟩
              · rw [rollOver, if_pos hover, if_pos hdwell]
              · rw [rollOver, if_pos hover', if_pos hdwell, zero_add]
                exact start_le_rollOver hrest (index + 1) ht
            · obtain ⟨k, left, hroll, hle⟩ := ih hrest (index + 1) (s - first)
              refine ⟨k + 1, left, ?_, ?_⟩
              · rw [rollOver, if_pos hover, if_neg hdwell, hroll, Nat.add_right_comm, Nat.add_assoc]
              · rw [rollOver, if_pos hover', if_neg hdwell, ← sub_add_eq_add_sub, List.drop_succ_cons,
                  ← Nat.add_assoc, Nat.add_right_comm]
                exact hle
          · refine ⟨0, s, ?_, le_rfl⟩
            rw [rollOver, if_neg hover, Nat.add_zero]

end RollOver

/-! ## Clocks -/

theorem atOrBefore_iff {c c' : Clock ℚ} :
    c.AtOrBefore c' ↔ toLex (c.index, c.elapsedMs) ≤ toLex (c'.index, c'.elapsedMs) := by
  rw [Prod.Lex.toLex_le_toLex]
  exact Iff.rfl

/-- Where a tick ends; also that of a finished clock, which the end of the play holds. -/
theorem InPlay.position_advance {c : Clock ℚ} (hc : c.InPlay) (deltaMs : ℚ) :
    ((c.advance deltaMs).index, (c.advance deltaMs).elapsedMs) =
      rollOver c.index (c.elapsedMs + max 0 deltaMs) (c.durations.drop c.index) := by
  by_cases hfinished : c.isFinished = true
  · obtain ⟨duration, hstands⟩ := hc.standsIn
    obtain ⟨hlast, helapsed⟩ := hstands.isFinished_iff.mp hfinished
    obtain ⟨hindex, hduration⟩ := List.getElem?_eq_some_iff.mp hstands.lasts
    rw [advance_of_isFinished hfinished, List.drop_eq_getElem_cons hindex, hlast, List.drop_length,
      hduration, rollOver, exact_lesser, helapsed,
      min_eq_right (le_add_of_nonneg_right (le_max_left 0 deltaMs))]
  · rw [advance_of_running (Bool.eq_false_iff.mpr hfinished), addTick_eq]

/-- A clock that is not behind is not behind either after a tick that is not shorter. -/
theorem InPlay.advance_mono {c c' : Clock ℚ} (hc : c.InPlay) (hc' : c'.InPlay)
    (hplay : c.durations = c'.durations) (hle : c.AtOrBefore c') {a b : ℚ} (hab : a ≤ b) :
    (c.advance a).AtOrBefore (c'.advance b) := by
  obtain ⟨duration, hstands⟩ := hc.standsIn
  obtain ⟨duration', hstands'⟩ := hc'.standsIn
  have hdelta : max 0 a ≤ max 0 b := max_le_max_left 0 hab
  rw [atOrBefore_iff, hc.position_advance, hc'.position_advance, ← hplay]
  rcases hle with hlt | ⟨hindex, helapsed⟩
  · have hlater : max 0 a ≤ c'.elapsedMs + max 0 b :=
      le_add_of_nonneg_of_le hstands'.elapsed_nonneg hdelta
    refine rollOver_le_rollOver_of_lt hc.durations_nonneg hlt (hplay ▸ hstands'.index_lt)
      hstands.lasts (add_le_add hstands.elapsed_le hlater) ?_
    exact (le_max_left 0 a).trans hlater
  · rw [← hindex]
    refine rollOver_mono ?_ c.index (add_le_add helapsed hdelta)
    exact fun duration hduration => hc.durations_nonneg duration (List.mem_of_mem_drop hduration)

/-- A clock that is not behind never falls behind one whose ticks are not longer. -/
theorem InPlay.run_advance_mono {c c' : Clock ℚ} (hc : c.InPlay) (hc' : c'.InPlay)
    (hplay : c.durations = c'.durations) (hle : c.AtOrBefore c') {as bs : List ℚ}
    (hab : List.Forall₂ (· ≤ ·) as bs) :
    (c.run (as.map .advance)).AtOrBefore (c'.run (bs.map .advance)) := by
  induction hab generalizing c c' with
  | nil => exact hle
  | cons hhead _ ih =>
      refine ih (hc.advance _) (hc'.advance _) ?_ (hc.advance_mono hc' hplay hle hhead)
      exact (advance_durations c _).trans (hplay.trans (advance_durations c' _).symm)

/-- Two ticks take a clock at least as far as one of both lengths. -/
theorem InPlay.advance_add_le {c : Clock ℚ} (hc : c.InPlay) {a b : ℚ} (ha : 0 ≤ a) (hb : 0 ≤ b) :
    (c.advance (a + b)).AtOrBefore ((c.advance a).advance b) := by
  have hleft : ∀ duration ∈ c.durations.drop c.index, 0 ≤ duration := fun duration hduration =>
    hc.durations_nonneg duration (List.mem_of_mem_drop hduration)
  obtain ⟨k, rest, hroll, hle⟩ := exists_rollOver_add_le hleft c.index (c.elapsedMs + a) hb
  have hposition := hc.position_advance a
  rw [max_eq_right ha, hroll, Prod.mk.injEq] at hposition
  obtain ⟨hindex, helapsed⟩ := hposition
  rw [atOrBefore_iff, hc.position_advance, (hc.advance a).position_advance, hindex, helapsed,
    advance_durations, max_eq_right hb, max_eq_right (add_nonneg ha hb), ← add_assoc, ← List.drop_drop]
  exact hle

/-! ## The clock of a compiled play -/

/-- A play without transitions is over from the start. -/
theorem isFinished_of_durations_eq_nil {c : Clock ℚ} (hnil : c.durations = []) :
    c.isFinished = true := by
  unfold isFinished
  rw [hnil]
  rfl

theorem run_advance_finite_embed (c : Clock ℚ) (deltas : List ℚ) :
    c.embed.run (deltas.map fun deltaMs => .advance (finite deltaMs)) =
      (c.run (deltas.map .advance)).embed := by
  rw [run_embed, List.map_map]
  rfl

/-- A clock of a play that is not behind another one stays so after a tick that is not shorter, and
through any number of such ticks, however the two were driven before.  Two ticks never take a clock less
far than one of both lengths. -/
theorem run_never_behind (d : Document ExtendedRat) (tempo : Tempo ExtendedRat)
    (steps steps' : List (ClockStep ExtendedRat)) :
    let c := (start (d.compile tempo)).run steps
    let c' := (start (d.compile tempo)).run steps'
    (c.AtOrBefore c' →
      (∀ a b : ℚ, 0 ≤ a → a ≤ b →
        (c.advance (finite a)).AtOrBefore (c'.advance (finite b))) ∧
      ∀ as bs : List ℚ, List.Forall₂ (fun a b => 0 ≤ a ∧ a ≤ b) as bs → ∀ n,
        (c.run ((as.take n).map fun a => .advance (finite a))).AtOrBefore
          (c'.run ((bs.take n).map fun b => .advance (finite b)))) ∧
    ∀ a b : ℚ, 0 < a → 0 < b →
      (c.advance (finite (a + b))).AtOrBefore ((c.advance (finite a)).advance (finite b)) := by
  intro c c'
  obtain ⟨x, hx, hplay, hinPlay⟩ := exists_embed_eq_run d tempo steps
  obtain ⟨x', hx', hplay', hinPlay'⟩ := exists_embed_eq_run d tempo steps'
  replace hx : c = x.embed := hx
  replace hx' : c' = x'.embed := hx'
  obtain ⟨hmono, hadd⟩ :
      (x.AtOrBefore x' → ∀ as bs : List ℚ, List.Forall₂ (· ≤ ·) as bs →
        (x.run (as.map .advance)).AtOrBefore (x'.run (bs.map .advance))) ∧
      ∀ a b : ℚ, 0 < a → 0 < b → (x.advance (a + b)).AtOrBefore ((x.advance a).advance b) := by
    rcases eq_or_ne (d.compile tempo).transitions [] with hnone | hmoves
    · have hnil : (exactStart (d.compile tempo)).durations = [] := by
        rw [exactStart, hnone, List.map_nil]
      have hfinished := isFinished_of_durations_eq_nil (hplay.trans hnil)
      have hfinished' := isFinished_of_durations_eq_nil (hplay'.trans hnil)
      constructor
      · intro hle as bs _
        rwa [run_advance_of_isFinished hfinished, run_advance_of_isFinished hfinished']
      · intro a b _ _
        rw [advance_of_isFinished hfinished, advance_of_isFinished hfinished,
          advance_of_isFinished hfinished]
        exact Or.inr ⟨rfl, le_rfl⟩
    · have hc := hinPlay hmoves
      exact ⟨fun hle as bs hab => hc.run_advance_mono (hinPlay' hmoves) (hplay.trans hplay'.symm) hle hab,
        fun a b ha hb => hc.advance_add_le ha.le hb.le⟩
  rw [hx, hx', atOrBefore_embed]
  refine ⟨fun hle => ⟨?_, ?_⟩, ?_⟩
  · intro a b _ hab
    rw [advance_embed, advance_embed, atOrBefore_embed]
    exact hmono hle [a] [b] (.cons hab .nil)
  · intro as bs hab n
    rw [run_advance_finite_embed, run_advance_finite_embed, atOrBefore_embed]
    exact hmono hle _ _ (List.forall₂_take n (hab.imp fun a b h => h.2))
  · intro a b ha hb
    rw [advance_embed, advance_embed, advance_embed, atOrBefore_embed]
    exact hadd a b ha hb

/-- A phase without actions stops a tick of 700 ms at its start.  The clock that ticks 300 ms twice has not
got there after the first of them, and is held there by the second, when the other one has gone on. -/
theorem run_never_behind_heldByDwell :
    let phase (name : String) (actions : List (Action ExtendedRat)) : Phase ExtendedRat :=
      { id := ⟨name⟩, name, objects := [], actions, ballOwner := .inherit }
    let cut : Action ExtendedRat := .freehand ⟨"a1"⟩ .cut ⟨0, 0⟩ ⟨0, 0⟩
    let play : Document ExtendedRat :=
      .new .half [phase "p1" [cut], phase "p2" [], phase "p3" [cut], phase "p4" []]
    let tempo : Tempo ExtendedRat := ⟨{}, finite 2, rfl, by decide⟩
    let c := start (play.compile tempo)
    let c' := c.run [.advance (finite 100), .advance .nan]
    c.AtOrBefore c' ∧ (0 : ℚ) ≤ 300 ∧ (300 : ℚ) ≤ 700 ∧
      (c.advance (finite 300)).AtOrBefore (c'.advance (finite 700)) ∧
      (c'.advance (finite 700)).index = 1 ∧ (c'.advance (finite 700)).elapsedMs = 0 ∧
      (c.run ([300, 300].map fun a => .advance (finite a))).AtOrBefore
        (c'.run ([700, 300].map fun b => .advance (finite b))) ∧
      (c.advance (finite (500 + 200))).AtOrBefore
        ((c.advance (finite 500)).advance (finite 200)) := by
  intro phase cut play tempo c c'
  have hle : c.AtOrBefore c' := by
    refine Or.inr ⟨by decide +kernel, ?_⟩
    decide +kernel
  obtain ⟨hmono, hadd⟩ :=
    run_never_behind play tempo [] [.advance (finite 100), .advance .nan]
  obtain ⟨htick, hticks⟩ := hmono hle
  have hpointwise : List.Forall₂ (fun a b : ℚ => 0 ≤ a ∧ a ≤ b) [300, 300] [700, 300] :=
    .cons (by decide) (.cons (by decide) .nil)
  refine ⟨hle, by decide, by decide, htick 300 700 (by decide) (by decide), by decide +kernel,
    by decide +kernel, hticks _ _ hpointwise 2, ?_⟩
  exact hadd 500 200 (by decide) (by decide)

end PlayDiagram.Clock
