import PlayDiagram.Proofs.Playback.Compilation
import PlayDiagram.Proofs.Playback.Tracks
import PlayDiagram.Proofs.Playback.Windows

/-!
# Seams

With a floor under the durations, the windows of a schedule are no points (`Schedule.Spans`).  So at
the start of a transition no action has started and no pass has been completed, and at its end all
are over: the transition leads exactly from the one phase to the other, and neighbouring transitions
join without a seam (`frameAt_seam`).
-/

namespace PlayDiagram

open ExtendedRat (finite)

/-- The schedule lasts a rational time, and the windows of its entries lie in it and have a length. -/
structure Schedule.Spans (s : Schedule ExtendedRat) (totalMs : ℚ) : Prop where
  total : s.totalMs = finite totalMs
  nonneg : 0 ≤ totalMs
  window : ∀ a ∈ s.actions, ∃ startMs endMs : ℚ, a.startMs = finite startMs ∧
    a.endMs = finite endMs ∧ 0 ≤ startMs ∧ startMs < endMs ∧ endMs ≤ totalMs

theorem Schedule.ofActions_spans {tempo : Tempo ExtendedRat} (hfloor : 1 ≤ tempo.config.floorMs)
    (actions : List (Action ExtendedRat)) :
    ∃ totalMs, (ofActions tempo actions).Spans totalMs ∧ (actions ≠ [] → 0 < totalMs) := by
  obtain ⟨exact, hconfig, -, hlength⟩ := tempo.exists_exact
  rw [← hconfig] at hfloor
  obtain ⟨totalMs, hnonneg, htotal, hentries⟩ := ofActions_windows isTimeMap_finite hlength actions
  have hwindow : ∀ a ∈ (ofActions tempo actions).actions, ∃ startMs endMs : ℚ,
      a.startMs = finite startMs ∧ a.endMs = finite endMs ∧ 0 ≤ startMs ∧ startMs < endMs ∧
        endMs ≤ totalMs := by
    intro a ha
    obtain ⟨k, hk⟩ := List.mem_iff_getElem?.mp ha
    obtain ⟨action, startMs, -, hoccupies⟩ := hentries k a hk
    exact ⟨startMs, _, hoccupies.starts, hoccupies.ends, hoccupies.nonneg,
      lt_add_of_pos_right _ (Tempo.lengthMs_pos hfloor _), hoccupies.le_total⟩
  refine ⟨totalMs, ⟨htotal, hnonneg, hwindow⟩, fun hactions => ?_⟩
  have hentry : (ofActions tempo actions).actions ≠ [] := by
    rw [← List.length_pos_iff, ofActions_length, List.length_pos_iff]
    exact hactions
  obtain ⟨a, ha⟩ := List.exists_mem_of_ne_nil _ hentry
  obtain ⟨startMs, endMs, -, -, hstart, hlt, hle⟩ := hwindow a ha
  exact (hstart.trans_lt hlt).trans_le hle

/-! ## Both ends -/

@[simp] theorem Point.lerp_zero (p q : Point ExtendedRat) : p.lerp q (finite 0) = p :=
  if_pos (by decide)

@[simp] theorem Point.lerp_one (p q : Point ExtendedRat) : p.lerp q (finite 1) = q :=
  (if_neg (by decide)).trans (if_pos (by decide))

section Ends

variable {s : Schedule ExtendedRat} {totalMs : ℚ} (hs : s.Spans totalMs)

include hs

/-- At the start of a schedule no entry has started. -/
theorem Track.positionAt_zero (track : Track ExtendedRat) :
    track.positionAt s 0 = track.departing := by
  have hwaiting : (track.entries s).any (fun a => a.startMs < 0) = false := by
    rw [List.any_eq_false]
    intro a ha
    obtain ⟨startMs, endMs, hstart, -, hnonneg, -⟩ :=
      hs.window a (Track.mem_actions_of_mem_entries ha)
    rw [hstart, decide_eq_true_iff, ExtendedRat.zero_eq, ExtendedRat.finite_lt_finite]
    exact hnonneg.not_gt
  simp only [Track.positionAt, hwaiting, Bool.not_false, if_true, ite_eq_right_iff]
  -- An object without entries glides, and nothing of its way is covered.
  intro _
  by_cases hdwell : s.totalMs ≤ 0
  · exact if_pos hdwell
  · have hmoving : totalMs ≠ 0 := by
      rintro rfl
      exact hdwell (hs.total ▸ ExtendedRat.finite_le_finite.mpr le_rfl)
    rw [if_neg hdwell, hs.total, ExtendedRat.zero_eq, ExtendedRat.finite_div hmoving, zero_div]
    exact track.departing.lerp_zero track.arriving

/-- At its end every entry has started, and is over. -/
theorem Track.positionAt_total (hpos : 0 < totalMs) (track : Track ExtendedRat) :
    track.positionAt s (finite totalMs) = track.arriving := by
  have hentry : ∀ a ∈ track.entries s,
      a.startMs < finite totalMs ∧ ¬finite totalMs < a.endMs := by
    intro a ha
    obtain ⟨startMs, endMs, hstart, hend, -, hlt, hle⟩ :=
      hs.window a (Track.mem_actions_of_mem_entries ha)
    rw [hstart, hend, ExtendedRat.finite_lt_finite, ExtendedRat.finite_lt_finite]
    exact ⟨hlt.trans_le hle, hle.not_gt⟩
  have hmoving : ¬s.totalMs ≤ 0 := by
    rw [hs.total, ExtendedRat.zero_eq, ExtendedRat.finite_le_finite]
    exact hpos.not_ge
  simp only [Track.positionAt, if_neg hmoving]
  generalize track.entries s = entries at hentry ⊢
  -- Without entries the whole way is covered, and with some of them none is pending.
  cases entries with
  | nil =>
      rw [hs.total, ExtendedRat.finite_div hpos.ne', div_self hpos.ne']
      exact track.departing.lerp_one track.arriving
  | cons a rest =>
      have hstarted : (a :: rest).any (fun a => a.startMs < finite totalMs) = true :=
        List.any_eq_true.mpr ⟨a, List.mem_cons_self, decide_eq_true (hentry a List.mem_cons_self).1⟩
      have hover : (a :: rest).any (fun a => finite totalMs < a.endMs) = false := by
        rw [List.any_eq_false]
        intro b hb
        rw [decide_eq_true_iff]
        exact (hentry b hb).2
      simp only [hstarted, hover]
      rfl

theorem Schedule.Spans.flip_atMs {flip : Flip ExtendedRat} (hflip : s.flip? = some flip) :
    ¬flip.atMs ≤ 0 ∧ flip.atMs ≤ finite totalMs := by
  obtain ⟨a, ha, hpass⟩ := List.exists_of_findSome?_eq_some hflip
  obtain ⟨pass, -, rfl⟩ := Option.map_eq_some_iff.mp hpass
  obtain ⟨startMs, endMs, -, hend, hnonneg, hlt, hle⟩ := hs.window a ha
  rw [hend, ExtendedRat.zero_eq, ExtendedRat.finite_le_finite, ExtendedRat.finite_le_finite]
  exact ⟨(hnonneg.trans_lt hlt).not_ge, hle⟩

theorem Schedule.Spans.ownerAt_zero (owner : Option ObjectId) :
    ownerAt owner s.flip?.toList 0 = owner := by
  cases hflip : s.flip? with
  | none => rfl
  | some flip => exact if_neg (hs.flip_atMs hflip).1

theorem Schedule.Spans.ownerAt_total (owner : Option ObjectId) :
    ownerAt owner s.flip?.toList (finite totalMs) = ownerAfter owner s.flip? := by
  cases hflip : s.flip? with
  | none => rfl
  | some flip => exact if_pos (hs.flip_atMs hflip).2

end Ends

/-! ## Frames at both ends -/

theorem ExtendedRat.clamp_zero_finite (high x : ℚ) :
    Scalar.clamp 0 (finite high) (finite x) = finite (min high (max 0 x)) := by
  rw [← exact_clamp]
  exact isTimeMap_finite.clamp_map 0 high x

section Frames

variable {transition : Transition ExtendedRat} {totalMs : ℚ}
  (hs : transition.schedule.Spans totalMs) {t : ExtendedRat}

include hs

theorem Transition.instant_of_start (ht : Scalar.isNaN t = true ∨ t ≤ 0) :
    transition.instant t = 0 := by
  unfold Transition.instant
  rw [hs.total]
  cases t with
  | nan => rfl
  | posInf => exact absurd ht (by decide)
  | negInf =>
      have hnonneg : ¬finite totalMs < 0 := by
        rw [ExtendedRat.zero_eq, ExtendedRat.finite_lt_finite]
        exact hs.nonneg.not_gt
      exact if_neg hnonneg
  | finite x =>
      have hx : x ≤ 0 := ExtendedRat.finite_le_finite.mp (ht.resolve_left Bool.false_ne_true)
      refine (ExtendedRat.clamp_zero_finite totalMs x).trans ?_
      rw [max_eq_left hx, min_eq_right hs.nonneg, ExtendedRat.zero_eq]

theorem Transition.instant_of_end (ht : transition.schedule.totalMs ≤ t) :
    transition.instant t = finite totalMs := by
  unfold Transition.instant
  rw [hs.total] at ht ⊢
  cases t with
  | nan | negInf => exact absurd ht Bool.false_ne_true
  | posInf => rfl
  | finite x =>
      have hx : totalMs ≤ x := ExtendedRat.finite_le_finite.mp ht
      refine (ExtendedRat.clamp_zero_finite totalMs x).trans ?_
      rw [max_eq_right (hs.nonneg.trans hx), min_eq_left hx]

variable {tempo : Tempo ExtendedRat} {departing arriving : Phase ExtendedRat} {index : ℕ}
  {owner : Option ObjectId} (hdeparting : departing.WellFormed) (harriving : arriving.WellFormed)
  (htransition : transition = Transition.between tempo index departing arriving owner)

include hdeparting harriving htransition

/-- Up to its start, a transition shows the phase that it leaves. -/
theorem Transition.frameAt_of_start (ht : Scalar.isNaN t = true ∨ t ≤ 0) :
    (∀ o ∈ departing.objects, (transition.frameAt t).position? o.id = some o.position) ∧
      (transition.frameAt t).ballOwner = owner := by
  have hinstant := Transition.instant_of_start hs ht
  constructor
  · intro o ho
    rw [Transition.frameAt_position?_departing hdeparting harriving htransition t ho, hinstant,
      Track.positionAt_zero hs]
    rfl
  · have howner : ownerAt transition.startOwner transition.schedule.flip?.toList 0 =
        transition.startOwner := hs.ownerAt_zero _
    rw [← hinstant] at howner
    subst htransition
    exact howner

/-- From its end on, it shows the phase that it leads to. -/
theorem Transition.frameAt_of_end (hpos : 0 < totalMs) (ht : transition.schedule.totalMs ≤ t) :
    (∀ o ∈ arriving.objects, (transition.frameAt t).position? o.id = some o.position) ∧
      (transition.frameAt t).ballOwner = transition.endOwner := by
  have hinstant := Transition.instant_of_end hs ht
  constructor
  · intro o ho
    cases hhere : departing.containsObject o.id with
    | false =>
        rw [Transition.frameAt_position?_arriving hdeparting harriving htransition t ho hhere,
          hinstant, Track.positionAt_total hs hpos]
    | true =>
        obtain ⟨here, hmem, hid⟩ := List.mem_map.mp (Phase.containsObject_iff.mp hhere)
        have hthere : arriving.object? here.id = some o :=
          harriving.object?_eq_some_iff.mpr ⟨ho, hid.symm⟩
        rw [← hid, Transition.frameAt_position?_departing hdeparting harriving htransition t hmem,
          hinstant, Track.positionAt_total hs hpos, departingTrack_arriving_of_there _ hthere]
  · have howner : ownerAt transition.startOwner transition.schedule.flip?.toList (finite totalMs) =
        ownerAfter transition.startOwner transition.schedule.flip? := hs.ownerAt_total _
    rw [← hinstant] at howner
    subst htransition
    exact howner

end Frames

namespace Document

section Sound

variable {d : Document ExtendedRat} (hd : d.IsSound) {tempo : Tempo ExtendedRat}
  (hfloor : 1 ≤ tempo.config.floorMs) {i : ℕ} {transition : Transition ExtendedRat}
  (ht : (d.compile tempo).transitions[i]? = some transition) {departing arriving : Phase ExtendedRat}
  (hp : d.phases[i]? = some departing) {t : ExtendedRat}

include hd hfloor ht hp

theorem frameAt_of_start (hstart : Scalar.isNaN t = true ∨ t ≤ 0) :
    (∀ o ∈ departing.objects, (transition.frameAt t).position? o.id = some o.position) ∧
      (d.compile tempo).startOwners[i]? = some (transition.frameAt t).ballOwner := by
  obtain ⟨_, arriving, hp', hq⟩ := exists_phases_of_transition ht
  cases hp.symm.trans hp'
  obtain ⟨owner, howner, htransition, -⟩ := compile_step tempo hp hq
  obtain rfl := Option.some.inj (ht.symm.trans htransition)
  obtain ⟨totalMs, hs, -⟩ := Schedule.ofActions_spans hfloor departing.actions
  obtain ⟨hshown, hball⟩ :=
    Transition.frameAt_of_start hs (hd.wellFormed hp) (hd.wellFormed hq) rfl hstart
  exact ⟨hshown, howner.trans (congrArg some hball.symm)⟩

theorem frameAt_of_end (hq : d.phases[i + 1]? = some arriving) (hactions : departing.actions ≠ [])
    (hend : transition.schedule.totalMs ≤ t) :
    (∀ o ∈ arriving.objects, (transition.frameAt t).position? o.id = some o.position) ∧
      (transition.frameAt t).ballOwner = transition.endOwner := by
  obtain ⟨owner, -, htransition, -⟩ := compile_step tempo hp hq
  obtain rfl := Option.some.inj (ht.symm.trans htransition)
  obtain ⟨totalMs, hs, hpos⟩ := Schedule.ofActions_spans hfloor departing.actions
  exact Transition.frameAt_of_end hs (hd.wellFormed hp) (hd.wellFormed hq) rfl (hpos hactions) hend

end Sound

/-- Up to its start, the transition out of a phase shows the objects of that phase in their places
and the ball with its owner; and if the phase has an action, from its end on it shows those of the
next phase.  So the next transition goes on where it ends. -/
theorem frameAt_seam {d : Document ExtendedRat} (hd : d.IsSound) {tempo : Tempo ExtendedRat}
    (hfloor : 1 ≤ tempo.config.floorMs) {i : ℕ} {transition : Transition ExtendedRat}
    (ht : (d.compile tempo).transitions[i]? = some transition) :
    ∃ departing arriving : Phase ExtendedRat,
      d.phases[i]? = some departing ∧ d.phases[i + 1]? = some arriving ∧
      (∀ t : ExtendedRat, Scalar.isNaN t = true ∨ t ≤ 0 →
        (∀ o ∈ departing.objects, (transition.frameAt t).position? o.id = some o.position) ∧
        (d.compile tempo).startOwners[i]? = some (transition.frameAt t).ballOwner) ∧
      (departing.actions ≠ [] →
        (∀ t : ExtendedRat, transition.schedule.totalMs ≤ t →
          (∀ o ∈ arriving.objects, (transition.frameAt t).position? o.id = some o.position) ∧
          (transition.frameAt t).ballOwner = transition.endOwner) ∧
        ∀ next : Transition ExtendedRat, (d.compile tempo).transitions[i + 1]? = some next →
          ∀ t t' : ExtendedRat, transition.schedule.totalMs ≤ t →
            Scalar.isNaN t' = true ∨ t' ≤ 0 →
            (∀ o ∈ arriving.objects,
              (next.frameAt t').position? o.id = (transition.frameAt t).position? o.id) ∧
            (arriving.ballOwner = .inherit →
              (next.frameAt t').ballOwner = (transition.frameAt t).ballOwner)) := by
  obtain ⟨departing, arriving, hp, hq⟩ := exists_phases_of_transition ht
  refine ⟨departing, arriving, hp, hq, fun t => frameAt_of_start hd hfloor ht hp, ?_⟩
  intro hactions
  refine ⟨fun t => frameAt_of_end hd hfloor ht hp hq hactions, ?_⟩
  intro next hnext t t' hend hstart
  obtain ⟨hbefore, hballBefore⟩ := frameAt_of_end hd hfloor ht hp hq hactions hend
  obtain ⟨hafter, hballAfter⟩ := frameAt_of_start hd hfloor hnext hq hstart
  constructor
  · intro o ho
    rw [hafter o ho, hbefore o ho]
  · intro hinherit
    rw [startOwner_of_inherit ht hq hinherit] at hballAfter
    exact (Option.some.inj hballAfter).symm.trans hballBefore.symm

/-- A pass and a cut, seen long after the transition and at no time of the next one. -/
theorem frameAt_seam_pass :
    let player (name : String) (position : Point ExtendedRat) : CourtObject ExtendedRat :=
      .new ⟨name⟩ .offensePlayer position
    let pass : Action ExtendedRat :=
      ((Action.freehand ⟨"a1"⟩ .pass ⟨0, 0⟩ ⟨finite 80, 0⟩).performedBy ⟨"o1"⟩).receivedBy ⟨"o2"⟩
    let cut : Action ExtendedRat :=
      ((Action.freehand ⟨"a2"⟩ .cut ⟨finite 80, 0⟩ ⟨finite 90, 0⟩).performedBy ⟨"o2"⟩).triggered
        .withPrevious
    let first : Phase ExtendedRat :=
      { id := ⟨"p1"⟩, name := "Pass", actions := [pass, cut], ballOwner := .inherit
        objects := [player "o1" ⟨0, 0⟩, player "o2" ⟨finite 80, 0⟩] }
    let second : Phase ExtendedRat :=
      { id := ⟨"p2"⟩, name := "Cut", actions := [cut], ballOwner := .inherit
        objects := [player "o2" ⟨finite 80, finite 40⟩, player "o3" ⟨0, 0⟩] }
    let play : Document ExtendedRat := .new .half [first, second, { second with id := ⟨"p3"⟩ }]
    let tempo : Tempo ExtendedRat := ⟨{}, 1, rfl, by decide⟩
    play.IsSound ∧ 1 ≤ tempo.config.floorMs ∧ ∃ transition next : Transition ExtendedRat,
      (play.compile tempo).transitions[0]? = some transition ∧
      (play.compile tempo).transitions[1]? = some next ∧
      (transition.frameAt .negInf).position? ⟨"o2"⟩ = some ⟨finite 80, 0⟩ ∧
      (transition.frameAt .posInf).position? ⟨"o2"⟩ = some ⟨finite 80, finite 40⟩ ∧
      (next.frameAt .nan).position? ⟨"o2"⟩ = (transition.frameAt .posInf).position? ⟨"o2"⟩ ∧
      (next.frameAt .nan).ballOwner = (transition.frameAt .posInf).ballOwner := by
  intro player pass cut first second play tempo
  have hsound : play.IsSound := by decide
  have hfloor : 1 ≤ tempo.config.floorMs := by decide
  have hfirst : (play.compile tempo).transitions[0]?.map (·.schedule.totalMs) =
      some (finite 800) := by
    decide +kernel
  obtain ⟨transition, ht, htotal⟩ := Option.map_eq_some_iff.mp hfirst
  have hlong : transition.schedule.totalMs ≤ .posInf := by
    rw [htotal]
    decide
  obtain ⟨next, hnext⟩ : ∃ next, (play.compile tempo).transitions[1]? = some next := ⟨_, rfl⟩
  obtain ⟨departing, arriving, hp, hq, hstart, hend⟩ := frameAt_seam hsound hfloor ht
  cases hp
  cases hq
  obtain ⟨hend, hseam⟩ := hend (List.cons_ne_nil _ _)
  obtain ⟨hplaces, hball⟩ := hseam next hnext .posInf .nan hlong (Or.inl rfl)
  exact ⟨hsound, hfloor, transition, next, ht, hnext,
    (hstart .negInf (Or.inr rfl)).1 (player "o2" ⟨finite 80, 0⟩)
      (List.mem_cons_of_mem _ List.mem_cons_self),
    (hend .posInf hlong).1 (player "o2" ⟨finite 80, finite 40⟩) List.mem_cons_self,
    hplaces (player "o2" ⟨finite 80, finite 40⟩) List.mem_cons_self, hball rfl⟩

end Document

end PlayDiagram
