import Mathlib.Algebra.Order.BigOperators.Group.List
import Mathlib.Algebra.Order.Field.Rat
import Mathlib.Tactic.Linarith
import PlayDiagram.Number.Exact
import PlayDiagram.Playback.Clock

/-!
# Where a tick ends

A tick adds to the time in a transition and rolls what is too much over into the later ones.  In
exact time it ends in one of three ways, which `Landing` tells apart: within a transition, held by one
without length, or at the end of the play.  All that is proved of clocks goes back to
`rollOver_landing`.
-/

namespace PlayDiagram

@[simp] theorem exact_lesser (x y : ℚ) : Scalar.lesser x y = min x y := by
  have hnan : ∀ z : ℚ, ¬Scalar.isNaN z = true := fun _ => Bool.false_ne_true
  unfold Scalar.lesser
  rw [if_neg (hnan x), if_neg (hnan y)]
  by_cases hlt : y < x
  · rw [if_pos hlt, min_eq_right hlt.le]
  · rw [if_neg hlt, min_eq_left (not_lt.mp hlt)]

namespace Clock

/-! ## When transitions start -/

/-- When the transition at an index starts in the time of the whole play. -/
def startMs (durations : List ℚ) (i : ℕ) : ℚ :=
  (durations.take i).sum

@[simp] theorem startMs_zero (durations : List ℚ) : startMs durations 0 = 0 := by
  simp [startMs]

@[simp] theorem startMs_cons_succ (duration : ℚ) (rest : List ℚ) (i : ℕ) :
    startMs (duration :: rest) (i + 1) = duration + startMs rest i := by
  simp [startMs]

theorem startMs_succ {durations : List ℚ} {i : ℕ} {duration : ℚ}
    (hduration : durations[i]? = some duration) :
    startMs durations (i + 1) = startMs durations i + duration := by
  simp [startMs, List.take_add_one, hduration]

theorem startMs_add (durations : List ℚ) (i k : ℕ) :
    startMs durations (i + k) = startMs durations i + startMs (durations.drop i) k := by
  simp [startMs, List.take_add]

@[simp] theorem startMs_length (durations : List ℚ) :
    startMs durations durations.length = durations.sum := by
  simp [startMs]

theorem startMs_mono {durations : List ℚ} (hdurations : ∀ duration ∈ durations, 0 ≤ duration)
    {i j : ℕ} (hij : i ≤ j) : startMs durations i ≤ startMs durations j := by
  obtain ⟨k, rfl⟩ := Nat.exists_eq_add_of_le hij
  have hbetween : 0 ≤ startMs (durations.drop i) k := by
    apply List.sum_nonneg
    intro duration hmem
    exact hdurations duration (List.mem_of_mem_drop (List.mem_of_mem_take hmem))
  rw [startMs_add]
  linarith

/-! ## Landing -/

/-- Where a tick ends that brings the time in the first transition to `total`: at the time `rest` in
the transition at index `k`, which lasts `duration`. -/
structure Landing (durations : List ℚ) (total : ℚ) (k : ℕ) (rest duration : ℚ) : Prop where
  lasts : durations[k]? = some duration
  reached : startMs durations k ≤ total
  /-- It ends within a transition, or held by one without length, or at the end of the last one. -/
  ends :
    (k + 1 < durations.length ∧ rest = total - startMs durations k ∧ rest < duration) ∨
      (0 < k ∧ duration = 0 ∧ rest = 0) ∨
      (k + 1 = durations.length ∧ rest = min (total - startMs durations k) duration)

theorem Landing.cons {durations : List ℚ} {total rest duration first : ℚ} {k : ℕ}
    (hlanding : Landing durations (total - first) k rest duration) :
    Landing (first :: durations) total (k + 1) rest duration := by
  obtain ⟨hlasts, hreached, hends⟩ := hlanding
  have hstart := startMs_cons_succ first durations k
  refine ⟨hlasts, by linarith, ?_⟩
  rw [hstart, ← sub_sub]
  rcases hends with ⟨hinner, hrest, hlt⟩ | ⟨hpos, hzero, hrest⟩ | ⟨hlast, hrest⟩
  · exact Or.inl ⟨Nat.succ_lt_succ hinner, hrest, hlt⟩
  · exact Or.inr (Or.inl ⟨Nat.succ_pos k, hzero, hrest⟩)
  · exact Or.inr (Or.inr ⟨congrArg Nat.succ hlast, hrest⟩)

/-- Rolling over lands somewhere. -/
theorem rollOver_landing {durations : List ℚ} (hne : durations ≠ []) (index : ℕ) {total : ℚ}
    (htotal : 0 ≤ total) :
    ∃ k rest duration, rollOver index total durations = (index + k, rest) ∧
      Landing durations total k rest duration := by
  induction durations generalizing index total with
  | nil => exact absurd rfl hne
  | cons first durations ih =>
      cases durations with
      | nil =>
          refine ⟨0, min total first, first, ?_, ?_⟩
          · rw [rollOver, exact_lesser, Nat.add_zero]
          · refine ⟨rfl, ?_, ?_⟩
            · simpa using htotal
            · exact Or.inr (Or.inr ⟨rfl, by simp⟩)
      | cons second durations =>
          by_cases hover : first ≤ total
          · by_cases hsecond : second = 0
            · refine ⟨1, 0, second, ?_, ?_⟩
              · rw [rollOver, if_pos hover, if_pos (by simpa using hsecond)]
              · refine ⟨rfl, ?_, ?_⟩
                · simpa using hover
                · exact Or.inr (Or.inl ⟨Nat.one_pos, hsecond, rfl⟩)
            · obtain ⟨k, rest, duration, hroll, hlanding⟩ :=
                ih (List.cons_ne_nil _ _) (index + 1) (sub_nonneg.mpr hover)
              refine ⟨k + 1, rest, duration, ?_, hlanding.cons⟩
              rw [rollOver, if_pos hover, if_neg (by simpa using hsecond), hroll,
                Nat.add_right_comm, Nat.add_assoc]
          · refine ⟨0, total, first, ?_, ?_⟩
            · rw [rollOver, if_neg hover, Nat.add_zero]
            · refine ⟨rfl, ?_, ?_⟩
              · simpa using htotal
              · exact Or.inl ⟨by simp, by simp, not_le.mp hover⟩

end Clock

end PlayDiagram
