import PlayDiagram.Proofs.Correspondence
import PlayDiagram.Proofs.Playback.LookBack
import PlayDiagram.Proofs.Playback.ShownPosition

/-!
# The order of the objects

The objects of a phase are listed in the order in which they were added.  Two documents that differ
only in that order (`Document.ReorderedAs`) are sound together, and play alike.  There is one exception:
if the first phase does not say who has the ball, its first player has it, so that order decides who
that is (`compile_of_reorderedAs`).
-/

namespace PlayDiagram

variable {α : Type}

/-- The same phase, with its objects listed in any order. -/
structure Phase.ReorderedAs (p p' : Phase α) : Prop where
  id_eq : p'.id = p.id
  name_eq : p'.name = p.name
  objects_perm : p'.objects.Perm p.objects
  actions_eq : p'.actions = p.actions
  ballOwner_eq : p'.ballOwner = p.ballOwner

/-- The same document, with the objects of each phase listed in any order. -/
structure Document.ReorderedAs (d d' : Document α) : Prop where
  schemaVersion_eq : d'.schemaVersion = d.schemaVersion
  court_eq : d'.court = d.court
  phases : List.Forall₂ Phase.ReorderedAs d.phases d'.phases

/-! ## Soundness -/

namespace Phase.ReorderedAs

variable {p p' : Phase α} (h : p.ReorderedAs p')

include h

theorem symm : p'.ReorderedAs p :=
  ⟨h.id_eq.symm, h.name_eq.symm, h.objects_perm.symm, h.actions_eq.symm, h.ballOwner_eq.symm⟩

theorem containsObject_eq (id : ObjectId) : p'.containsObject id = p.containsObject id := by
  rw [Bool.eq_iff_iff, containsObject_iff, containsObject_iff,
    (h.objects_perm.map CourtObject.id).mem_iff]

theorem wellFormed (hp : p.WellFormed) : p'.WellFormed where
  objects_nodup := (h.objects_perm.map CourtObject.id).nodup_iff.mpr hp.objects_nodup
  actions_nodup := h.actions_eq ▸ hp.actions_nodup
  performer_mem a ha id hid :=
    (h.containsObject_eq id).trans (hp.performer_mem a (h.actions_eq ▸ ha) id hid)
  receiver_mem a ha id hid :=
    (h.containsObject_eq id).trans (hp.receiver_mem a (h.actions_eq ▸ ha) id hid)
  owner_mem id hid := (h.containsObject_eq id).trans (hp.owner_mem id (h.ballOwner_eq ▸ hid))

/-- As names are unique in a phase, it does not matter where an object is listed. -/
theorem object?_eq (hp : p.WellFormed) (id : ObjectId) : p'.object? id = p.object? id := by
  apply Option.ext
  intro o
  rw [(h.wellFormed hp).object?_eq_some_iff, hp.object?_eq_some_iff, h.objects_perm.mem_iff]

theorem handOver?_eq : p'.handOver? = p.handOver? := by
  unfold handOver?
  rw [h.actions_eq]

/-- After the first phase an order of objects does not decide who has the ball. -/
theorem startOwner_eq {n : ℕ} (hn : n ≠ 0) (carried : Option ObjectId) :
    p'.startOwner n carried = p.startOwner n carried := by
  simp only [startOwner, h.ballOwner_eq, if_neg hn]

end Phase.ReorderedAs

namespace Document

variable {d d' : Document α}

theorem ReorderedAs.symm (h : d.ReorderedAs d') : d'.ReorderedAs d :=
  ⟨h.schemaVersion_eq.symm, h.court_eq.symm, (h.phases.imp fun _ _ hp => hp.symm).flip⟩

theorem ReorderedAs.isSound (h : d.ReorderedAs d') (hd : d.IsSound) : d'.IsSound := by
  obtain ⟨hphases, hnodup, hwell⟩ := (isSound_iff d).mp hd
  have hids : d'.phases.map (·.id) = d.phases.map (·.id) :=
    (map_eq_of_forall₂ h.phases fun _ _ hp => hp.id_eq.symm).symm
  refine (isSound_iff d').mpr ⟨?_, hids ▸ hnodup, ?_⟩
  · intro hnone
    rw [hnone, List.map_nil, eq_comm, List.map_eq_nil_iff] at hids
    exact hphases hids
  · intro p' hp'
    obtain ⟨i, hp'⟩ := List.mem_iff_getElem?.mp hp'
    have hi : i < d.phases.length := by
      rw [h.phases.length_eq]
      exact (List.getElem?_eq_some_iff.mp hp').1
    have hp : d.phases[i]? = some d.phases[i] := List.getElem?_eq_getElem hi
    exact (getElem?_of_forall₂ h.phases hp hp').wellFormed (hd.wellFormed hp)

/-! ## Possession -/

/-- The first phase says who has the ball, or has the same first player in both documents. -/
def OpensAlike (d d' : Document α) : Prop :=
  ∀ p p', d.phases[0]? = some p → d'.phases[0]? = some p' →
    p.ballOwner ≠ .inherit ∨ p'.firstPlayer?.map (·.id) = p.firstPlayer?.map (·.id)

theorem ReorderedAs.ownerByLookBack_eq (h : d.ReorderedAs d') (hopens : d.OpensAlike d') {i : ℕ}
    (hi : i < d.phases.length) : d'.ownerByLookBack i = d.ownerByLookBack i := by
  have hlength := h.phases.length_eq
  induction i with
  | zero =>
      have hp : d.phases[0]? = some d.phases[0] := List.getElem?_eq_getElem hi
      have hp' : d'.phases[0]? = some d'.phases[0] := List.getElem?_eq_getElem (by omega)
      have howner := (getElem?_of_forall₂ h.phases hp hp').ballOwner_eq
      rw [ownerByLookBack_zero hp, ownerByLookBack_zero hp']
      unfold Phase.startOwner
      rw [howner]
      rcases hopens _ _ hp hp' with hdeclares | hfirst
      · cases hball : d.phases[0].ballOwner with
        | inherit => exact absurd hball hdeclares
        | nobody => rfl
        | owner id => rfl
      · rw [hfirst]
  | succ i ih =>
      have hp : d.phases[i]? = some d.phases[i] := List.getElem?_eq_getElem (by omega)
      have hq : d.phases[i + 1]? = some d.phases[i + 1] := List.getElem?_eq_getElem hi
      have hp' : d'.phases[i]? = some d'.phases[i] := List.getElem?_eq_getElem (by omega)
      have hq' : d'.phases[i + 1]? = some d'.phases[i + 1] := List.getElem?_eq_getElem (by omega)
      rw [ownerByLookBack_succ hp hq, ownerByLookBack_succ hp' hq', ih (by omega),
        (getElem?_of_forall₂ h.phases hp hp').handOver?_eq,
        (getElem?_of_forall₂ h.phases hq hq').startOwner_eq (Nat.succ_ne_zero i)]

variable [Scalar α]

theorem ReorderedAs.compile_startOwners (h : d.ReorderedAs d') (hopens : d.OpensAlike d')
    (tempo : Tempo α) : (d'.compile tempo).startOwners = (d.compile tempo).startOwners := by
  apply List.ext_getElem
  · simp [h.phases.length_eq]
  · intro i hi' hi
    rw [compile_startOwners_length] at hi hi'
    apply Option.some.inj
    rw [← List.getElem?_eq_getElem, ← List.getElem?_eq_getElem, compile_startOwner d tempo hi,
      compile_startOwner d' tempo hi', h.ownerByLookBack_eq hopens hi]

/-! ## Frames -/

section Frames

variable (h : d.ReorderedAs d') {tempo : Tempo α} {i : ℕ} {t t' : Transition α}
  (ht : (d.compile tempo).transitions[i]? = some t)
  (ht' : (d'.compile tempo).transitions[i]? = some t')

include h ht ht'

theorem ReorderedAs.schedule_eq : t'.schedule = t.schedule ∧ t'.flip? = t.flip? := by
  obtain ⟨p, q, hp, -, rfl⟩ := exists_between_of_transition ht
  obtain ⟨p', q', hp', -, rfl⟩ := exists_between_of_transition ht'
  simp only [Transition.between, (getElem?_of_forall₂ h.phases hp hp').actions_eq, and_self]

/-- A frame lists the objects in the order of their names, whatever the order in the phases. -/
theorem ReorderedAs.frameAt_positions (hd : d.IsSound) (time : α) :
    (t'.frameAt time).positions = (t.frameAt time).positions := by
  have hd' := h.isSound hd
  have hschedule := (h.schedule_eq ht ht').1
  obtain ⟨p, q, hp, hq, htransition⟩ := exists_between_of_transition ht
  obtain ⟨p', q', hp', hq', htransition'⟩ := exists_between_of_transition ht'
  apply eq_of_lookup_eq (orderByObject_sorted _) (orderByObject_sorted _)
  intro id
  apply Transition.frameAt_position?_congr (hd.wellFormed hp) (hd.wellFormed hq) htransition
    (hd'.wellFormed hp') (hd'.wellFormed hq') htransition'
  · exact (getElem?_of_forall₂ h.phases hp hp').object?_eq (hd.wellFormed hp) id
  · exact (getElem?_of_forall₂ h.phases hq hq').object?_eq (hd.wellFormed hq) id
  · rw [hschedule]
  · rw [hschedule]

theorem ReorderedAs.frameAt_ballOwner (hopens : d.OpensAlike d') (time : α) :
    (t'.frameAt time).ballOwner = (t.frameAt time).ballOwner := by
  obtain ⟨hschedule, hflip⟩ := h.schedule_eq ht ht'
  have howner : t'.startOwner = t.startOwner := by
    obtain ⟨p, q, hp, -, rfl⟩ := exists_between_of_transition ht
    obtain ⟨p', q', -, -, rfl⟩ := exists_between_of_transition ht'
    exact h.ownerByLookBack_eq hopens (List.getElem?_eq_some_iff.mp hp).1
  simp only [Transition.frameAt, Transition.instant, hschedule, hflip, howner]

end Frames

/-- Documents that differ only in the order of the objects are sound together.  If they are, their
transitions have the same schedules and flips, and their frames show the objects at the same places;
and if they open alike, the same object has the ball at the start of every phase and in every
frame. -/
theorem compile_of_reorderedAs (h : d.ReorderedAs d') :
    (d'.IsSound ↔ d.IsSound) ∧
    (d.IsSound → ∀ tempo : Tempo α,
      (d'.compile tempo).transitions.length = (d.compile tempo).transitions.length ∧
      (∀ (i : ℕ) (t t' : Transition α), (d.compile tempo).transitions[i]? = some t →
        (d'.compile tempo).transitions[i]? = some t' →
        t'.schedule = t.schedule ∧ t'.flip? = t.flip? ∧
        ∀ time, (t'.frameAt time).positions = (t.frameAt time).positions) ∧
      (d.OpensAlike d' →
        (d'.compile tempo).startOwners = (d.compile tempo).startOwners ∧
        ∀ (i : ℕ) (t t' : Transition α), (d.compile tempo).transitions[i]? = some t →
          (d'.compile tempo).transitions[i]? = some t' →
          ∀ time, (t'.frameAt time).ballOwner = (t.frameAt time).ballOwner)) := by
  refine ⟨⟨h.symm.isSound, h.isSound⟩, fun hd tempo => ⟨?_, ?_, fun hopens => ⟨?_, ?_⟩⟩⟩
  · simp [h.phases.length_eq]
  · intro i t t' ht ht'
    obtain ⟨hschedule, hflip⟩ := h.schedule_eq ht ht'
    exact ⟨hschedule, hflip, h.frameAt_positions ht ht' hd⟩
  · exact h.compile_startOwners hopens tempo
  · exact fun i t t' ht ht' => h.frameAt_ballOwner ht ht' hopens

/-- The first player is listed before the ball or after it, and of two players who then change places
the one who cuts is listed first or last. -/
theorem compile_of_reorderedAs_swapped :
    let player (name : String) (position : Point ℚ) : CourtObject ℚ :=
      .new ⟨name⟩ .offensePlayer position
    let ball : CourtObject ℚ := .new ⟨"b"⟩ .ball ⟨1, 1⟩
    let cut : Action ℚ := (Action.freehand ⟨"a1"⟩ .cut ⟨0, 0⟩ ⟨80, 0⟩).performedBy ⟨"o1"⟩
    let phase (name : String) (objects : List (CourtObject ℚ)) (actions : List (Action ℚ)) :
        Phase ℚ :=
      { id := ⟨name⟩, name, objects, actions, ballOwner := .inherit }
    let play : Document ℚ :=
      .new .half [phase "p1" [player "o1" ⟨0, 0⟩, ball, player "o2" ⟨40, 0⟩] [cut],
        phase "p2" [player "o1" ⟨40, 0⟩, player "o2" ⟨0, 0⟩] []]
    let reordered : Document ℚ :=
      .new .half [phase "p1" [ball, player "o1" ⟨0, 0⟩, player "o2" ⟨40, 0⟩] [cut],
        phase "p2" [player "o2" ⟨0, 0⟩, player "o1" ⟨40, 0⟩] []]
    let tempo : Tempo ℚ := ⟨{}, 2, rfl, by decide⟩
    play.ReorderedAs reordered ∧ play.IsSound ∧ play.OpensAlike reordered ∧ reordered.IsSound ∧
      ∃ t t' : Transition ℚ, (play.compile tempo).transitions[0]? = some t ∧
        (reordered.compile tempo).transitions[0]? = some t' ∧ t'.tracks ≠ t.tracks ∧
        (t'.frameAt 100).positions = (t.frameAt 100).positions ∧
        (t'.frameAt 100).ballOwner = (t.frameAt 100).ballOwner ∧
        (t.frameAt 100).ballOwner = some ⟨"o1"⟩ := by
  intro player ball cut phase play reordered tempo
  have hreordered : play.ReorderedAs reordered :=
    ⟨rfl, rfl, .cons ⟨rfl, rfl, .swap _ _ _, rfl, rfl⟩ (.cons ⟨rfl, rfl, .swap _ _ _, rfl, rfl⟩ .nil)⟩
  have hsound : play.IsSound := by decide
  have hopens : play.OpensAlike reordered := by
    rintro _ _ ⟨⟩ ⟨⟩
    exact Or.inr rfl
  obtain ⟨hsame, hplays⟩ := compile_of_reorderedAs hreordered
  obtain ⟨-, hframes, howners⟩ := hplays hsound tempo
  refine ⟨hreordered, hsound, hopens, hsame.mpr hsound, _, _, rfl, rfl, ?_,
    (hframes 0 _ _ rfl rfl).2.2 100, (howners hopens).2 0 _ _ rfl rfl 100, ?_⟩
  · decide +kernel
  · decide +kernel

end Document

end PlayDiagram
