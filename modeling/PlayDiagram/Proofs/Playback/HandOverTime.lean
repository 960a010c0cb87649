import PlayDiagram.Proofs.Number.DoubleSum
import PlayDiagram.Proofs.Playback.FirstPass
import PlayDiagram.Proofs.Playback.LayOut
import PlayDiagram.Proofs.Playback.LookBack
import PlayDiagram.Proofs.Playback.Tracks
import PlayDiagram.Proofs.Playback.WindowBounds

/-!
# When the ball is handed over

In a transition the ball is handed over once at most: by the first action that passes it, when the window
of this action ends (`Document.handOver_within_transition`).  The times are those of the running program,
in doubles.
-/

namespace PlayDiagram

section Owner

variable {α : Type} [Scalar α] {transition : Transition α} (time : α)

/-- Without a flip the ball stays with its owner. -/
theorem Transition.ballOwner_of_none (hflip : transition.flip? = none) :
    (transition.frameAt time).ballOwner = transition.startOwner := by
  unfold frameAt ownerAt
  rw [hflip]
  rfl

/-- From the time of the flip on the receiver has the ball. -/
theorem Transition.ballOwner_of_some {flip : Flip α} (hflip : transition.flip? = some flip) :
    (transition.frameAt time).ballOwner =
      if flip.atMs ≤ transition.instant time then some flip.receiver else transition.startOwner := by
  unfold frameAt ownerAt
  rw [hflip]
  rfl

end Owner

namespace Transition

variable {transition : Transition Float} (htotal : 0 ≤ transition.schedule.totalMs)

include htotal

/-- As time goes on, the owner changes from the first to the last one, or not at all. -/
theorem ballOwner_mono {s t : Float} (hst : s ≤ t) :
    (transition.frameAt t).ballOwner = (transition.frameAt s).ballOwner ∨
      (transition.frameAt s).ballOwner = transition.startOwner ∧
        (transition.frameAt t).ballOwner = transition.endOwner := by
  cases hflip : transition.flip? with
  | none => exact Or.inl (by rw [ballOwner_of_none t hflip, ballOwner_of_none s hflip])
  | some flip =>
      have hend : transition.endOwner = some flip.receiver := by rw [endOwner, hflip, ownerAfter]
      rw [ballOwner_of_some t hflip, ballOwner_of_some s hflip, hend]
      by_cases hs : flip.atMs ≤ transition.instant s
      · -- What has come by the earlier time has come by the later one.
        have ht := float_le_trans hs (instant_mono htotal hst)
        exact Or.inl (by rw [if_pos hs, if_pos ht])
      · rw [if_neg hs]
        split_ifs with ht
        · exact Or.inr ⟨rfl, rfl⟩
        · exact Or.inl rfl

/-- At the end of the transition its last owner has the ball. -/
theorem ballOwner_totalMs
    (hflips : ∀ flip, transition.flip? = some flip → flip.atMs ≤ transition.schedule.totalMs) :
    (transition.frameAt transition.schedule.totalMs).ballOwner = transition.endOwner := by
  cases hflip : transition.flip? with
  | none => rw [ballOwner_of_none _ hflip, endOwner, hflip, ownerAfter]
  | some flip =>
      rw [ballOwner_of_some _ hflip, instant_totalMs htotal, if_pos (hflips flip hflip), endOwner, hflip,
        ownerAfter]

end Transition

namespace Schedule

/-- The flip is that of the first pass, whatever is listed after it. -/
theorem flip?_take_append {α : Type} [Scalar α] {tempo : Tempo α} {actions : List (Action α)}
    {flip : Flip α} {k : ℕ} {a : Action α} {s : ScheduledAction α}
    (hfirst : IsFirstPass actions k a flip.giver flip.receiver) (hid : flip.action = a.id)
    (hs : (ofActions tempo actions).actions[k]? = some s) (hend : flip.atMs = s.endMs)
    (later : List (Action α)) :
    (ofActions tempo (actions.take (k + 1) ++ later)).flip? = some flip := by
  have hk : k < (actions.take (k + 1)).length := by
    have := (List.getElem?_eq_some_iff.mp hfirst.listed).1
    rw [List.length_take]
    omega
  have hentry : ∀ rest, (ofActions tempo (actions.take (k + 1) ++ rest)).actions[k]? =
      (ofActions tempo (actions.take (k + 1))).actions[k]? := by
    intro rest
    rw [← ofActions_append_take tempo (actions.take (k + 1)) rest, List.getElem?_take_of_lt hk]
  have hsame := hentry (actions.drop (k + 1))
  rw [List.take_append_drop, hs] at hsame
  exact flip?_eq_some_iff.mpr
    ⟨k, a, s, hfirst.take_append later, hid, (hentry later).trans hsame.symm, hend⟩

/-- The flip of a schedule takes place between its start and its end. -/
theorem flip_rounded_window {tempo : Tempo Float} {actions : List (Action Float)}
    {flip : Flip Float} (hflip : (ofActions tempo actions).flip? = some flip) :
    0 ≤ flip.atMs ∧ flip.atMs ≤ (ofActions tempo actions).totalMs := by
  obtain ⟨k, a, s, -, -, hs, hend⟩ := flip?_eq_some_iff.mp hflip
  obtain ⟨hstart, hlasts, htotal⟩ := ofActions_window (List.mem_of_getElem? hs)
  rw [hend]
  exact ⟨float_le_trans hstart hlasts, htotal⟩

end Schedule

namespace Document

/-- Possession within a transition.  The ball is handed over exactly if an action of the departing phase
passes it.  It is the first such action that does it, between its objects, when its window ends, and this is
within the transition; what follows the action does not matter.  From then on the receiver has the ball, and
before whoever had it at the start.  So the owner changes once at most, and is the last one in the frame at
the end. -/
theorem handOver_within_transition {d : Document Float} {tempo : Tempo Float} {i : ℕ}
    {transition : Transition Float} (ht : (d.compile tempo).transitions[i]? = some transition) :
    ∃ departing, d.phases[i]? = some departing ∧
      (transition.flip?.isSome = true ↔
        ∃ a ∈ departing.actions, a.possessionChange?.isSome = true) ∧
      (∀ flip, transition.flip? = some flip →
        (∃ k a s, IsFirstPass departing.actions k a flip.giver flip.receiver ∧ flip.action = a.id ∧
          transition.schedule.actions[k]? = some s ∧ flip.atMs = s.endMs ∧
          ∀ later, (Schedule.ofActions tempo
            (departing.actions.take (k + 1) ++ later)).flip? = some flip) ∧
        0 ≤ flip.atMs ∧ flip.atMs ≤ transition.schedule.totalMs ∧
        ∀ time, (transition.frameAt time).ballOwner =
          if flip.atMs ≤ transition.instant time then some flip.receiver
          else transition.startOwner) ∧
      (transition.flip? = none → ∀ time,
        (transition.frameAt time).ballOwner = transition.startOwner) ∧
      (∀ s t, s ≤ t →
        (transition.frameAt t).ballOwner = (transition.frameAt s).ballOwner ∨
          (transition.frameAt s).ballOwner = transition.startOwner ∧
            (transition.frameAt t).ballOwner = transition.endOwner) ∧
      (transition.frameAt transition.schedule.totalMs).ballOwner = transition.endOwner := by
  obtain ⟨departing, arriving, hdeparting, -, htransition⟩ := exists_between_of_transition ht
  have hschedule := Transition.schedule_eq htransition
  have hfirst? := Transition.flip?_eq htransition
  have htotal : 0 ≤ transition.schedule.totalMs := by
    rw [htransition]
    exact Transition.between_totalMs_nonneg tempo _ _ _ _
  have hwithin : ∀ flip, transition.flip? = some flip →
      0 ≤ flip.atMs ∧ flip.atMs ≤ transition.schedule.totalMs := by
    intro flip hflip
    rw [hschedule]
    exact Schedule.flip_rounded_window (hfirst?.symm.trans hflip)
  refine ⟨departing, hdeparting, ?_, fun flip hflip => ?_,
    fun hflip time => Transition.ballOwner_of_none time hflip,
    fun s t hst => Transition.ballOwner_mono htotal hst,
    Transition.ballOwner_totalMs htotal fun flip hflip => (hwithin flip hflip).2⟩
  · rw [hfirst?]
    exact Schedule.flip?_isSome_iff
  · obtain ⟨hstart, hend⟩ := hwithin flip hflip
    refine ⟨?_, hstart, hend, fun time => Transition.ballOwner_of_some time hflip⟩
    obtain ⟨k, a, s, hfirst, hid, hs, hendMs⟩ :=
      Schedule.flip?_eq_some_iff.mp (hfirst?.symm.trans hflip)
    refine ⟨k, a, s, hfirst, hid, ?_, hendMs, fun later =>
      Schedule.flip?_take_append hfirst hid hs hendMs later⟩
    rw [hschedule]
    exact hs

/-- Two passes that start together: the one listed second ends first, but the ball goes with the other. -/
theorem handOver_within_transition_together :
    let player (name : String) : CourtObject Float := .new ⟨name⟩ .offensePlayer ⟨0, 0⟩
    let pass (name receiver : String) (ms : UInt32) : Action Float :=
      let drawn : Action Float := Action.freehand ⟨name⟩ .pass ⟨0, 0⟩ ⟨4, 0⟩
      (((drawn.performedBy ⟨"o1"⟩).receivedBy ⟨receiver⟩).triggered .withPrevious).lasting ms
    let phase (name : String) (actions : List (Action Float)) : Phase Float :=
      { id := ⟨name⟩, name, objects := [player "o1", player "o2", player "o3"], actions
        ballOwner := .inherit }
    let first := phase "p1" [pass "a1" "o2" 900, pass "a2" "o3" 300]
    let second := phase "p2" []
    let play : Document Float := .new .half [first, second]
    let tempo : Tempo Float := ⟨{}, SpeedPreset.normal.speed⟩
    let transition := Transition.between tempo 0 first second (some ⟨"o1"⟩)
    (play.compile tempo).transitions[0]? = some transition ∧
      transition.schedule.actions.map ScheduledAction.endMs = [900, 300] ∧
      transition.flip? = some ⟨⟨"a1"⟩, ⟨"o1"⟩, ⟨"o2"⟩, 900⟩ ∧
      (transition.frameAt 300).ballOwner = some ⟨"o1"⟩ ∧
      (transition.frameAt transition.schedule.totalMs).ballOwner = some ⟨"o2"⟩ := by
  intro player pass phase first second play tempo transition
  have ht : (play.compile tempo).transitions[0]? = some transition := rfl
  have hflip : transition.flip? = some ⟨⟨"a1"⟩, ⟨"o1"⟩, ⟨"o2"⟩, 900⟩ := by decide +kernel
  obtain ⟨_, -, -, hflips, -, -, hend⟩ := handOver_within_transition ht
  refine ⟨ht, by decide +kernel, hflip, ?_, ?_⟩
  · rw [(hflips _ hflip).2.2.2 300]
    decide +kernel
  · rw [hend, Transition.endOwner, hflip, ownerAfter]

end Document

end PlayDiagram
