import Mathlib.Data.Set.Insert
import PlayDiagram.Proofs.Playback.LookBack
import PlayDiagram.Proofs.Playback.ShownPosition

/-!
# Redrawing some of the objects

Objects share the schedule of a transition, but not their paths.  If two sound documents differ only
in how the objects of a set look, where they are recorded, and what their actions and those of nobody
depict (`Document.RedrawnAs`), the actions of both take place at the same times, and every other
object is shown at the same place at every time (`frameAt_of_redrawnAs`).
-/

namespace PlayDiagram

variable {α : Type} (drawn : Set ObjectId)

/-! ## Documents that differ in a drawing -/

/-- The same object, which may look different and stand elsewhere if it is in the set. -/
structure CourtObject.RedrawnAs (o o' : CourtObject α) : Prop where
  id_eq : o'.id = o.id
  eq_of_notMem : o.id ∉ drawn → o' = o

/-- The same action of the same performer at the same time, which may depict something else if the
performer is in the set, or if there is none. -/
structure Action.RedrawnAs (a a' : Action α) : Prop where
  id_eq : a'.id = a.id
  performer_eq : a'.performer = a.performer
  timing_eq : a'.timing = a.timing
  eq_of_notMem : ∀ id, a.performer = some id → id ∉ drawn → a' = a

/-- The same phase but for the drawing of the objects in the set. -/
structure Phase.RedrawnAs (p p' : Phase α) : Prop where
  id_eq : p'.id = p.id
  name_eq : p'.name = p.name
  ballOwner_eq : p'.ballOwner = p.ballOwner
  objects : List.Forall₂ (CourtObject.RedrawnAs drawn) p.objects p'.objects
  actions : List.Forall₂ (Action.RedrawnAs drawn) p.actions p'.actions

/-- The same document but for the drawing of the objects in the set. -/
structure Document.RedrawnAs (d d' : Document α) : Prop where
  schemaVersion_eq : d'.schemaVersion = d.schemaVersion
  court_eq : d'.court = d.court
  phases : List.Forall₂ (Phase.RedrawnAs drawn) d.phases d'.phases

/-- Entries with the same performer and window, and the same altogether if the performer is not in the
set. -/
structure ScheduledAction.RedrawnAs (s s' : ScheduledAction α) : Prop where
  id_eq : s'.id = s.id
  performer_eq : s'.performer = s.performer
  startMs_eq : s'.startMs = s.startMs
  endMs_eq : s'.endMs = s.endMs
  eq_of_notMem : ∀ id, s.performer = some id → id ∉ drawn → s' = s

variable {drawn}

/-! ## What other objects have in common -/

theorem Phase.RedrawnAs.object?_eq {p p' : Phase α} (h : p.RedrawnAs drawn p') {id : ObjectId}
    (hid : id ∉ drawn) : p'.object? id = p.object? id := by
  have hsame : (p'.objects.filter fun o => decide (o.id = id)) =
      p.objects.filter fun o => decide (o.id = id) := by
    apply filter_eq_of_forall₂ h.objects
    intro o o' ho
    refine ⟨by rw [ho.id_eq], fun hfound => ho.eq_of_notMem ?_⟩
    rwa [of_decide_eq_true hfound]
  unfold object?
  rw [← List.head?_filter, ← List.head?_filter, hsame]

theorem Action.RedrawnAs.triggered {a a' : Action α} (h : a.RedrawnAs drawn a')
    (trigger : Trigger) : (a.triggered trigger).RedrawnAs drawn (a'.triggered trigger) where
  id_eq := h.id_eq
  performer_eq := h.performer_eq
  timing_eq := by simp only [Action.triggered, h.timing_eq]
  eq_of_notMem id hid hmem := by rw [h.eq_of_notMem id hid hmem]

namespace Schedule

theorem entriesOf_eq_of_redrawnAs {s s' : Schedule α}
    (h : List.Forall₂ (ScheduledAction.RedrawnAs drawn) s.actions s'.actions) {id : ObjectId}
    (hid : id ∉ drawn) : s'.entriesOf id = s.entriesOf id := by
  apply filter_eq_of_forall₂ h
  intro a a' ha
  exact ⟨by rw [ha.performer_eq], fun hfound => ha.eq_of_notMem id (of_decide_eq_true hfound) hid⟩

variable [Scalar α]

/-- The layout looks at triggers and durations only. -/
theorem layOut_redrawnAs (tempo : Tempo α) (c : Cursor α) {actions actions' : List (Action α)}
    (h : List.Forall₂ (Action.RedrawnAs drawn) actions actions') :
    List.Forall₂ (ScheduledAction.RedrawnAs drawn) (layOut tempo c actions).actions
        (layOut tempo c actions').actions ∧
      (layOut tempo c actions').totalMs = (layOut tempo c actions).totalMs := by
  induction h generalizing c with
  | nil => exact ⟨List.Forall₂.nil, rfl⟩
  | @cons a a' rest rest' ha _ ih =>
      obtain ⟨hentries, htotal⟩ := ih (c.place a.timing.trigger (tempo.lengthMs a.timing)).2
      simp only [layOut, ha.timing_eq]
      refine ⟨List.Forall₂.cons ⟨ha.id_eq, ha.performer_eq, rfl, rfl, ?_⟩ hentries, htotal⟩
      intro id hid hmem
      rw [ha.eq_of_notMem id hid hmem]

theorem ofActions_redrawnAs (tempo : Tempo α) {actions actions' : List (Action α)}
    (h : List.Forall₂ (Action.RedrawnAs drawn) actions actions') :
    List.Forall₂ (ScheduledAction.RedrawnAs drawn) (ofActions tempo actions).actions
        (ofActions tempo actions').actions ∧
      (ofActions tempo actions').totalMs = (ofActions tempo actions).totalMs := by
  cases h with
  | nil => exact ⟨List.Forall₂.nil, rfl⟩
  | cons ha hrest =>
      exact layOut_redrawnAs tempo ⟨0, 0⟩ (List.Forall₂.cons (ha.triggered .afterPrevious) hrest)

end Schedule

/-! ## Transitions and frames -/

/-- When each action starts and ends. -/
def Schedule.windows (s : Schedule α) : List (ActionId × α × α) :=
  s.actions.map fun a => (a.id, a.startMs, a.endMs)

theorem Schedule.windows_eq_of_redrawnAs {s s' : Schedule α}
    (h : List.Forall₂ (ScheduledAction.RedrawnAs drawn) s.actions s'.actions) :
    s'.windows = s.windows := by
  refine (map_eq_of_forall₂ h fun a a' ha => ?_).symm
  rw [ha.id_eq, ha.startMs_eq, ha.endMs_eq]

variable [Scalar α]

namespace Document

/-- If two sound documents differ only in the drawing of the objects in a set, then the actions of
both take place at the same times, and at every time the frames of both show every other object at the
same place.  If the set is empty, they differ in actions of nobody only, and no object moves
otherwise. -/
theorem frameAt_of_redrawnAs {d d' : Document α} (hd : d.IsSound) (hd' : d'.IsSound)
    (h : d.RedrawnAs drawn d') (tempo : Tempo α) :
    (d'.compile tempo).transitions.length = (d.compile tempo).transitions.length ∧
    ∀ (i : ℕ) (t t' : Transition α), (d.compile tempo).transitions[i]? = some t →
      (d'.compile tempo).transitions[i]? = some t' →
      t'.schedule.totalMs = t.schedule.totalMs ∧ t'.schedule.windows = t.schedule.windows ∧
      ∀ time, ∀ id ∉ drawn, (t'.frameAt time).position? id = (t.frameAt time).position? id := by
  constructor
  · simp [h.phases.length_eq]
  · intro i t t' ht ht'
    obtain ⟨p, q, hp, hq, htransition⟩ := exists_between_of_transition ht
    obtain ⟨p', q', hp', hq', htransition'⟩ := exists_between_of_transition ht'
    have hdeparting := getElem?_of_forall₂ h.phases hp hp'
    have harriving := getElem?_of_forall₂ h.phases hq hq'
    obtain ⟨hentries, htotal⟩ := Schedule.ofActions_redrawnAs tempo hdeparting.actions
    refine ⟨?_, ?_, ?_⟩
    · rw [htransition, htransition']
      exact htotal
    · rw [htransition, htransition']
      exact Schedule.windows_eq_of_redrawnAs hentries
    · intro time id hid
      apply Transition.frameAt_position?_congr (hd.wellFormed hp) (hd.wellFormed hq) htransition
        (hd'.wellFormed hp') (hd'.wellFormed hq') htransition'
      · exact hdeparting.object?_eq hid
      · exact harriving.object?_eq hid
      · rw [htransition, htransition']
        exact Schedule.entriesOf_eq_of_redrawnAs hentries hid
      · rw [htransition, htransition']
        exact htotal

/-- A player is recorded elsewhere and passes the ball instead of cutting, and what nobody does is drawn
elsewhere: the player who moves at the same time is not affected. -/
theorem frameAt_of_redrawnAs_companion :
    let player (name : String) (position : Point ℚ) : CourtObject ℚ :=
      .new ⟨name⟩ .offensePlayer position
    let drawing (name : String) (kind : ActionKind) (target : Point ℚ) : Action ℚ :=
      (Action.freehand ⟨name⟩ kind ⟨0, 0⟩ target).triggered .withPrevious
    let phase (name : String) (position : Point ℚ) (actions : List (Action ℚ)) : Phase ℚ :=
      { id := ⟨name⟩, name, objects := [player "o1" position, player "o2" ⟨0, 0⟩], actions
        ballOwner := .inherit }
    let companion : Action ℚ := (drawing "a3" .cut ⟨0, 80⟩).performedBy ⟨"o2"⟩
    let cut : Action ℚ := (drawing "a1" .cut ⟨80, 0⟩).performedBy ⟨"o1"⟩
    let pass : Action ℚ :=
      ((drawing "a1" .pass ⟨9, 9⟩).performedBy ⟨"o1"⟩).receivedBy ⟨"o2"⟩
    let play : Document ℚ :=
      .new .half [phase "p1" ⟨0, 0⟩ [cut, drawing "a2" .shot ⟨5, 5⟩, companion], phase "p2" ⟨0, 0⟩ []]
    let redrawn : Document ℚ :=
      .new .half [phase "p1" ⟨7, 7⟩ [pass, drawing "a2" .screen ⟨6, 6⟩, companion],
        phase "p2" ⟨3, 3⟩ []]
    let tempo : Tempo ℚ := ⟨{}, 2, rfl, by decide⟩
    play.IsSound ∧ redrawn.IsSound ∧ play.RedrawnAs {⟨"o1"⟩} redrawn ∧
      ∃ t t' : Transition ℚ, (play.compile tempo).transitions[0]? = some t ∧
        (redrawn.compile tempo).transitions[0]? = some t' ∧
        (t'.frameAt 100).position? ⟨"o1"⟩ ≠ (t.frameAt 100).position? ⟨"o1"⟩ ∧
        (t'.frameAt 100).position? ⟨"o2"⟩ = (t.frameAt 100).position? ⟨"o2"⟩ := by
  intro player drawing phase companion cut pass play redrawn tempo
  have hsound : play.IsSound := by decide
  have hsound' : redrawn.IsSound := by decide
  have hobjects : ∀ position position', List.Forall₂ (CourtObject.RedrawnAs {⟨"o1"⟩})
      [player "o1" position, player "o2" ⟨0, 0⟩] [player "o1" position', player "o2" ⟨0, 0⟩] :=
    fun _ _ => .cons ⟨rfl, fun hmem => absurd rfl hmem⟩ (.cons ⟨rfl, fun _ => rfl⟩ .nil)
  have hactions : List.Forall₂ (Action.RedrawnAs {⟨"o1"⟩}) [cut, drawing "a2" .shot ⟨5, 5⟩, companion]
      [pass, drawing "a2" .screen ⟨6, 6⟩, companion] := by
    refine .cons ⟨rfl, rfl, rfl, ?_⟩ (.cons ⟨rfl, rfl, rfl, ?_⟩ (.cons ⟨rfl, rfl, rfl, ?_⟩ .nil))
    · rintro _ ⟨⟩ hmem
      exact absurd rfl hmem
    · rintro _ ⟨⟩
    · exact fun _ _ _ => rfl
  have hredrawn : play.RedrawnAs {⟨"o1"⟩} redrawn :=
    ⟨rfl, rfl, .cons ⟨rfl, rfl, rfl, hobjects _ _, hactions⟩
      (.cons ⟨rfl, rfl, rfl, hobjects _ _, .nil⟩ .nil)⟩
  obtain ⟨-, hsame⟩ := frameAt_of_redrawnAs hsound hsound' hredrawn tempo
  obtain ⟨-, -, hshown⟩ := hsame 0 _ _ rfl rfl
  refine ⟨hsound, hsound', hredrawn, _, _, rfl, rfl, ?_, hshown 100 ⟨"o2"⟩ ?_⟩
  · decide +kernel
  · decide

end Document

end PlayDiagram
