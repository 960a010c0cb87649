import PlayDiagram.Proofs.Play.PhaseEdits

/-!
# Removing objects

Removing an object takes with it what names the object, and nothing else.  `Phase.without` says what is
left of a phase when several objects are removed, whatever the order; no part of it names any of them
(`Phase.not_mentions_without`).  Removing them one after another leads there (`Phase.foldlM_removeObject`).
-/

namespace PlayDiagram

namespace Phase

variable {α : Type}

/-- A phase names an object. -/
inductive Mentions (p : Phase α) (id : ObjectId) : Prop
  /-- It has the object, -/
  | object {o : CourtObject α} (ho : o ∈ p.objects) (hid : o.id = id) : Mentions p id
  /-- one of its actions is performed by it, -/
  | performer {a : Action α} (ha : a ∈ p.actions) (hid : a.performer = some id) : Mentions p id
  /-- or received by it, -/
  | receiver {a : Action α} (ha : a ∈ p.actions) (hid : a.receiver = some id) : Mentions p id
  /-- or it has the ball. -/
  | owner (hid : p.ballOwner = .owner id) : Mentions p id

/-- A well-formed phase names only objects that it has. -/
theorem WellFormed.containsObject_of_mentions {p : Phase α} (hp : p.WellFormed) {id : ObjectId}
    (hid : p.Mentions id) : p.containsObject id = true := by
  cases hid with
  | object ho hid => exact containsObject_iff.mpr (hid ▸ List.mem_map_of_mem ho)
  | performer ha hid => exact hp.performer_mem _ ha id hid
  | receiver ha hid => exact hp.receiver_mem _ ha id hid
  | owner hid => exact hp.owner_mem id hid

/-- What is left of a phase without some objects: the other objects, and the actions none of whose ends
is one of those removed.  If one of them had the ball, nobody has it. -/
def without (p : Phase α) (ids : List ObjectId) : Phase α :=
  { p with
    objects := p.objects.filter fun o => o.id ∉ ids
    actions := p.actions.filter fun a => ∀ id ∈ ids, a.performer ≠ some id ∧ a.receiver ≠ some id
    ballOwner := if p.ballOwner ∈ ids.map BallOwner.owner then .nobody else p.ballOwner }

variable (p : Phase α) (ids : List ObjectId)

@[simp] theorem mem_without_objects {o : CourtObject α} :
    o ∈ (p.without ids).objects ↔ o ∈ p.objects ∧ o.id ∉ ids := by
  simp [without]

@[simp] theorem mem_without_actions {a : Action α} :
    a ∈ (p.without ids).actions ↔
      a ∈ p.actions ∧ ∀ id ∈ ids, a.performer ≠ some id ∧ a.receiver ≠ some id := by
  simp [without]

theorem not_mentions_without {id : ObjectId} (hid : id ∈ ids) : ¬(p.without ids).Mentions id := by
  rintro (⟨ho, rfl⟩ | ⟨ha, hperformer⟩ | ⟨ha, hreceiver⟩ | howner)
  · exact ((p.mem_without_objects ids).mp ho).2 hid
  · exact (((p.mem_without_actions ids).mp ha).2 id hid).1 hperformer
  · exact (((p.mem_without_actions ids).mp ha).2 id hid).2 hreceiver
  · unfold without at howner
    split at howner
    · cases howner
    · next hkept => exact hkept (howner ▸ List.mem_map_of_mem hid)

/-- Removing what a phase does not name changes nothing. -/
theorem without_of_not_mentions (hids : ∀ id ∈ ids, ¬p.Mentions id) : p.without ids = p := by
  have hobjects : p.objects.filter (fun o => o.id ∉ ids) = p.objects := by
    refine List.filter_eq_self.mpr fun o ho => decide_eq_true fun hid => ?_
    exact hids o.id hid (.object ho rfl)
  have hactions : (p.actions.filter fun a =>
      ∀ id ∈ ids, a.performer ≠ some id ∧ a.receiver ≠ some id) = p.actions := by
    refine List.filter_eq_self.mpr fun a ha => decide_eq_true fun id hid => ?_
    exact ⟨fun h => hids id hid (.performer ha h), fun h => hids id hid (.receiver ha h)⟩
  have howner : p.ballOwner ∉ ids.map BallOwner.owner := by
    intro hmem
    obtain ⟨id, hid, heq⟩ := List.mem_map.mp hmem
    exact hids id hid (.owner heq.symm)
  unfold without
  rw [hobjects, hactions, if_neg howner]

/-- Only what is removed matters, not the order or how often. -/
theorem without_congr {ids ids' : List ObjectId} (hsame : ∀ id, id ∈ ids ↔ id ∈ ids') :
    p.without ids = p.without ids' := by
  have howner : p.ballOwner ∈ ids.map BallOwner.owner ↔ p.ballOwner ∈ ids'.map BallOwner.owner := by
    simp only [List.mem_map, hsame]
  unfold without
  simp only [hsame, howner]

/-- Removing in two turns is removing all at once. -/
@[simp] theorem without_without (others : List ObjectId) :
    (p.without ids).without others = p.without (ids ++ others) := by
  unfold without
  congr 1
  · rw [List.filter_filter]
    refine List.filter_congr fun o _ => ?_
    rw [← Bool.decide_and, decide_eq_decide, List.mem_append, not_or, and_comm]
  · rw [List.filter_filter]
    refine List.filter_congr fun a _ => ?_
    rw [← Bool.decide_and, decide_eq_decide, List.forall_mem_append, and_comm]
  · rw [List.map_append]
    by_cases howner : p.ballOwner ∈ ids.map BallOwner.owner
    · rw [if_pos howner, if_pos (List.mem_append_left _ howner), ite_self]
    · simp only [howner, if_false, List.mem_append, false_or]

theorem without_containsObject {id : ObjectId} (hid : id ∉ ids) :
    (p.without ids).containsObject id = p.containsObject id := by
  rw [Bool.eq_iff_iff, containsObject_iff, containsObject_iff, List.mem_map, List.mem_map]
  simp only [mem_without_objects]
  constructor
  · rintro ⟨o, ⟨ho, -⟩, rfl⟩
    exact ⟨o, ho, rfl⟩
  · rintro ⟨o, ho, rfl⟩
    exact ⟨o, ⟨ho, hid⟩, rfl⟩

/-- One object is removed with everything that names it. -/
theorem removeObject_eq {id : ObjectId} (hid : p.containsObject id = true) :
    p.removeObject id = .ok (p.without [id]) := by
  refine removeObject_eq_ok_iff.mpr ⟨hid, ?_⟩
  unfold without
  simp [Action.references]

variable {p ids}

/-- Different objects of a phase are removed one after another. -/
theorem foldlM_removeObject (hnodup : ids.Nodup) (hids : ∀ id ∈ ids, p.containsObject id = true) :
    ids.foldlM removeObject p = .ok (p.without ids) := by
  induction ids generalizing p with
  | nil =>
      have hnothing : p.without [] = p := p.without_of_not_mentions [] (by simp)
      rw [hnothing]
      rfl
  | cons id rest ih =>
      obtain ⟨hfresh, hrest⟩ := List.nodup_cons.mp hnodup
      rw [List.forall_mem_cons] at hids
      have hkept : ∀ other ∈ rest, (p.without [id]).containsObject other = true := by
        intro other hother
        have hne : other ∉ [id] := by
          rw [List.mem_singleton]
          rintro rfl
          exact hfresh hother
        rw [p.without_containsObject [id] hne]
        exact hids.2 other hother
      calc
        (id :: rest).foldlM removeObject p = rest.foldlM removeObject (p.without [id]) := by
          rw [List.foldlM_cons, p.removeObject_eq hids.1]
          rfl
        _ = .ok ((p.without [id]).without rest) := ih hrest hkept
        _ = .ok (p.without (id :: rest)) := by rw [without_without, List.singleton_append]

/-- An object is removed with the actions at one of whose ends it is, and with nothing else: what is left
is unchanged and in order, the ball owner changes only if it was the object, and no part of the phase names
the object any more.  Different objects can be removed one after another in any order, and what is left is
the same. -/
theorem removeObject_cascades (p : Phase α) :
    (∀ id, p.containsObject id = true → ∃ q, p.removeObject id = .ok q ∧
      q.id = p.id ∧ q.name = p.name ∧
      q.objects = p.objects.filter (fun o => o.id ≠ id) ∧
      q.actions = p.actions.filter (fun a => a.performer ≠ some id ∧ a.receiver ≠ some id) ∧
      (p.ballOwner = .owner id → q.ballOwner = .nobody) ∧
      (p.ballOwner ≠ .owner id → q.ballOwner = p.ballOwner) ∧
      ¬q.Mentions id) ∧
    ∀ ids : List ObjectId, ids.Nodup → (∀ id ∈ ids, p.containsObject id = true) →
      (∀ order : List ObjectId, order.Perm ids → order.foldlM removeObject p = .ok (p.without ids)) ∧
      ∀ id ∈ ids, ¬(p.without ids).Mentions id := by
  constructor
  · intro id hid
    refine ⟨p.without [id], p.removeObject_eq hid, rfl, rfl, ?_, ?_, ?_, ?_,
      p.not_mentions_without [id] List.mem_cons_self⟩
    · simp [without]
    · simp [without]
    · intro howner
      simp [without, howner]
    · intro howner
      simp [without, howner]
  · intro ids hnodup hids
    refine ⟨fun order horder => ?_, fun id => p.not_mentions_without ids⟩
    have hall : ∀ id ∈ order, p.containsObject id = true := fun id hid =>
      hids id (horder.mem_iff.mp hid)
    rw [foldlM_removeObject (horder.nodup_iff.mpr hnodup) hall,
      p.without_congr fun _ => horder.mem_iff]

/-- The receiver of a pass is removed before its performer, who has the ball; a cut of another player and an
action of nobody are left. -/
theorem removeObject_cascades_twoPlayers :
    let player (name : String) : CourtObject Float := .new ⟨name⟩ .offensePlayer ⟨500, 700⟩
    let move (id : String) : Action Float := .freehand ⟨id⟩ .cut ⟨500, 700⟩ ⟨250, 500⟩
    let p : Phase Float :=
      { id := ⟨"p1"⟩
        name := "Entry"
        objects := [player "P1", player "P2", player "P3"]
        actions :=
          [((move "a1").performedBy ⟨"P1"⟩).receivedBy ⟨"P2"⟩, (move "a2").performedBy ⟨"P3"⟩,
            (move "a3").performedBy ⟨"P2"⟩, move "a4"]
        ballOwner := .owner ⟨"P1"⟩ }
    p.containsObject ⟨"P2"⟩ = true ∧
      (∃ q, p.removeObject ⟨"P2"⟩ = .ok q ∧ q.ballOwner = .owner ⟨"P1"⟩ ∧ ¬q.Mentions ⟨"P2"⟩) ∧
      [⟨"P2"⟩, ⟨"P1"⟩].foldlM removeObject p =
        .ok { p with
          objects := [player "P3"]
          actions := [(move "a2").performedBy ⟨"P3"⟩, move "a4"]
          ballOwner := .nobody } := by
  intro player move p
  have hid : p.containsObject ⟨"P2"⟩ = true := by decide
  obtain ⟨hone, hall⟩ := p.removeObject_cascades
  obtain ⟨q, hq, -, -, -, -, -, howner, hmentions⟩ := hone ⟨"P2"⟩ hid
  obtain ⟨horders, -⟩ := hall [⟨"P1"⟩, ⟨"P2"⟩] (by decide) (by decide)
  exact ⟨hid, ⟨q, hq, howner (by decide), hmentions⟩, horders _ (List.Perm.swap _ _ _)⟩

end Phase

end PlayDiagram
