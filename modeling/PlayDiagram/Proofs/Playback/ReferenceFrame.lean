import PlayDiagram.Proofs.Playback.Compilation
import PlayDiagram.Proofs.Playback.Placement

/-!
# Frames against the rule of placement

A frame of a sound play shows the objects of the two phases that the transition lies between, and
each of them where the rule of placement puts it (`frameAt_position?_iff`).
-/

namespace PlayDiagram

section Frames

theorem Transition.instant_eq (transition : Transition ℚ) (t : ℚ) :
    transition.instant t = min transition.schedule.totalMs (max 0 t) := by
  unfold Transition.instant
  exact (if_neg Bool.false_ne_true).trans (exact_clamp _ _ _)

variable {tempo : Tempo ℚ} {departing arriving : Phase ℚ} {index : ℕ} {owner : Option ObjectId}
  {transition : Transition ℚ} (hdeparting : departing.WellFormed) (harriving : arriving.WellFormed)
  (htransition : transition = Transition.between tempo index departing arriving owner) (t : ℚ)

include htransition

theorem Transition.totalMs_nonneg : 0 ≤ transition.schedule.totalMs := by
  rw [htransition]
  exact between_totalMs_nonneg tempo _ _ _ _

include hdeparting harriving

/-- An object of the departing phase is shown where the rule of placement puts it. -/
theorem Transition.position?_iff_of_departing {here : CourtObject ℚ}
    (hhere : departing.object? here.id = some here) {q : Point ℚ} :
    (transition.frameAt t).position? here.id = some q ↔
      StandsAt tempo departing arriving here.id (transition.instant t) q := by
  have hmem : here ∈ departing.objects := List.mem_of_find?_eq_some hhere
  have hschedule := Transition.schedule_eq htransition
  have hshown := Transition.frameAt_position?_departing hdeparting harriving htransition t hmem
  obtain ⟨hzero, htotal⟩ :=
    Transition.instant_between (Transition.totalMs_nonneg htransition) t
  rw [hschedule] at hshown htotal
  constructor
  · intro hq
    obtain ⟨q', hq'⟩ := exists_standsAt tempo arriving (transition.instant t) hhere
    rw [hq'.positionAt_eq hhere hzero htotal] at hshown
    cases hq.symm.trans hshown
    exact hq'
  · intro hq
    rw [hq.positionAt_eq hhere hzero htotal] at hshown
    exact hshown

/-- An object that only the arriving phase has is shown in its place there. -/
theorem Transition.position?_of_arriving {there : CourtObject ℚ}
    (hhere : departing.object? there.id = none) (hthere : there ∈ arriving.objects) :
    (transition.frameAt t).position? there.id = some there.position := by
  have hshown := Transition.frameAt_position?_arriving hdeparting harriving htransition t hthere
    (Phase.containsObject_eq_false_iff.mpr hhere)
  obtain ⟨hzero, htotal⟩ :=
    Transition.instant_between (Transition.totalMs_nonneg htransition) t
  rw [Track.positionAt_glides rfl hzero htotal, Point.partWay_self, ite_self] at hshown
  exact hshown

/-- An object that is not in the departing phase is shown where the rule of placement puts it. -/
theorem Transition.position?_iff_of_not_departing {id : ObjectId}
    (hhere : departing.object? id = none) {q : Point ℚ} :
    (transition.frameAt t).position? id = some q ↔
      StandsAt tempo departing arriving id (transition.instant t) q := by
  constructor
  · intro hq
    have hkey := (Transition.mem_keys_frameAt hdeparting htransition t id).mp
      (mem_keys_of_lookup hq)
    rw [Phase.containsObject_iff_object?, Phase.containsObject_iff_object?, hhere] at hkey
    rcases hkey with ⟨o, ho⟩ | ⟨there, hthere⟩
    · cases ho
    · obtain ⟨hmem, rfl⟩ := harriving.object?_eq_some_iff.mp hthere
      rw [Transition.position?_of_arriving hdeparting harriving htransition t hhere hmem] at hq
      cases hq
      exact .appears hhere hthere
  · intro hq
    obtain ⟨there, hthere, rfl⟩ := hq.of_not_departing hhere
    obtain ⟨hmem, rfl⟩ := harriving.object?_eq_some_iff.mp hthere
    exact Transition.position?_of_arriving hdeparting harriving htransition t hhere hmem

end Frames

namespace Document

/-- Every frame of a sound play shows the objects of the two phases around its transition, each name
once and in order, and each of them where the rule of placement puts it at the instant nearest to the
time. -/
theorem frameAt_position?_iff {d : Document ℚ} (hd : d.IsSound) (tempo : Tempo ℚ) {i : ℕ}
    {transition : Transition ℚ} (ht : (d.compile tempo).transitions[i]? = some transition) :
    ∃ departing arriving,
      d.phases[i]? = some departing ∧ d.phases[i + 1]? = some arriving ∧
      ∀ t : ℚ,
        ((transition.frameAt t).positions.map Prod.fst).Pairwise (· < ·) ∧
        (∀ id, id ∈ (transition.frameAt t).positions.map Prod.fst ↔
          departing.containsObject id = true ∨ arriving.containsObject id = true) ∧
        ∀ id q, (transition.frameAt t).position? id = some q ↔
          StandsAt tempo departing arriving id
            (min (Schedule.ofActions tempo departing.actions).totalMs (max 0 t)) q := by
  obtain ⟨departing, arriving, hp, hq⟩ := exists_phases_of_transition ht
  obtain ⟨owner, -, htransition, -⟩ := compile_step tempo hp hq
  rw [ht] at htransition
  replace htransition := Option.some.inj htransition
  have hdeparting := hd.wellFormed hp
  have harriving := hd.wellFormed hq
  refine ⟨departing, arriving, hp, hq, fun t => ⟨orderByObject_sorted _, ?_, ?_⟩⟩
  · exact Transition.mem_keys_frameAt hdeparting htransition t
  · intro id q
    have hinstant : transition.instant t =
        min (Schedule.ofActions tempo departing.actions).totalMs (max 0 t) := by
      rw [Transition.instant_eq, htransition]
      rfl
    rw [← hinstant]
    cases hhere : departing.object? id with
    | some here =>
        obtain ⟨-, rfl⟩ := hdeparting.object?_eq_some_iff.mp hhere
        exact Transition.position?_iff_of_departing hdeparting harriving htransition t hhere
    | none =>
        exact Transition.position?_iff_of_not_departing hdeparting harriving htransition t hhere

/-- Of two cuts made at the same time, the one listed last moves the player. -/
theorem frameAt_position?_iff_overlap :
    let cut (name : String) (target : Point ℚ) : Action ℚ :=
      ((Action.freehand ⟨name⟩ .cut ⟨0, 0⟩ target).performedBy ⟨"o1"⟩).triggered .withPrevious
    let first : Phase ℚ :=
      { id := ⟨"p1"⟩, name := "Cut", objects := [.new ⟨"o1"⟩ .offensePlayer ⟨0, 0⟩],
        actions := [cut "a1" ⟨80, 0⟩, cut "a2" ⟨0, 80⟩], ballOwner := .inherit }
    let second : Phase ℚ := { first with id := ⟨"p2"⟩, actions := [] }
    let play : Document ℚ := .new .half [first, second]
    let tempo : Tempo ℚ := ⟨{}, 2, rfl, by decide⟩
    play.IsSound ∧ ∃ transition, (play.compile tempo).transitions[0]? = some transition ∧
      (transition.frameAt 100).position? ⟨"o1"⟩ = some ⟨0, 20⟩ ∧
      StandsAt tempo first second ⟨"o1"⟩
        (min (Schedule.ofActions tempo first.actions).totalMs (max 0 100)) ⟨0, 20⟩ := by
  intro cut first second play tempo
  have hsound : play.IsSound := by decide
  have hframe : ((play.compile tempo).transitions[0]?.bind fun transition =>
      (transition.frameAt 100).position? ⟨"o1"⟩) = some ⟨0, 20⟩ := by
    decide +kernel
  obtain ⟨transition, ht, hshown⟩ := Option.bind_eq_some_iff.mp hframe
  obtain ⟨departing, arriving, hdeparting, harriving, hrule⟩ :=
    frameAt_position?_iff hsound tempo ht
  cases hdeparting
  cases harriving
  exact ⟨hsound, _, ht, hshown, ((hrule 100).2.2 ⟨"o1"⟩ ⟨0, 20⟩).mp hshown⟩

end Document

end PlayDiagram
