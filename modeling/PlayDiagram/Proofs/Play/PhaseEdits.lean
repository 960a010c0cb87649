import PlayDiagram.Play.Edit
import PlayDiagram.Proofs.Play.Soundness

/-!
# Edits of one phase

For each edit this module says when it succeeds and what it then returns (`addObject_eq_ok_iff` and
the lemmas after it), and from that, that it keeps a phase well formed.  For all edits together,
`PhaseEdit.mem_objects_of_apply` and `PhaseEdit.mem_actions_of_apply` say where the contents of an edited
phase come from, and `PhaseEdit.apply_wellFormed` that it is well formed.
-/

namespace PlayDiagram

/-! ## Replacing the first match -/

theorem map_replaceFirst {β γ : Type} {test : β → Bool} {f : β → β} {g : β → γ}
    (hkeeps : ∀ x, test x = true → g (f x) = g x) (l : List β) :
    (replaceFirst test f l).map g = l.map g := by
  induction l with
  | nil => rfl
  | cons x rest ih =>
      by_cases hx : test x = true
      · simp [replaceFirst, hx, hkeeps x hx]
      · simp [replaceFirst, hx, ih]

theorem mem_of_mem_replaceFirst {β : Type} {test : β → Bool} {f : β → β} {l : List β} {y : β}
    (hy : y ∈ replaceFirst test f l) : y ∈ l ∨ ∃ x ∈ l, y = f x := by
  induction l with
  | nil => simp [replaceFirst] at hy
  | cons x rest ih =>
      by_cases hx : test x = true
      · rw [replaceFirst, if_pos hx, List.mem_cons] at hy
        rcases hy with rfl | hy
        · exact Or.inr ⟨x, List.mem_cons_self, rfl⟩
        · exact Or.inl (List.mem_cons_of_mem x hy)
      · rw [replaceFirst, if_neg hx, List.mem_cons] at hy
        rcases hy with rfl | hy
        · exact Or.inl List.mem_cons_self
        · rcases ih hy with hmem | ⟨z, hz, rfl⟩
          · exact Or.inl (List.mem_cons_of_mem x hmem)
          · exact Or.inr ⟨z, List.mem_cons_of_mem x hz, rfl⟩

/-- Checks that are made one after another are refused for the defect that a search finds first. -/
theorem forM_eq_findSome? {β δ ε : Type} {check : β → Except ε Unit} {defect? : β → Option δ}
    {refusal : δ → ε}
    (hcheck : ∀ b, check b = (defect? b).elim (.ok ()) fun defect => .error (refusal defect))
    (l : List β) :
    l.forM check = (l.findSome? defect?).elim (.ok ()) fun defect => .error (refusal defect) := by
  induction l with
  | nil => rfl
  | cons b rest ih =>
      show (check b >>= fun _ => rest.forM check) = _
      rw [hcheck, List.findSome?_cons]
      cases defect? b with
      | none => exact ih
      | some defect => rfl

variable {α : Type}

namespace Phase

/-! ## What a successful edit returns -/

section Objects

variable [Scalar α]

theorem addObject_eq_ok_iff {p q : Phase α} {o : CourtObject α} :
    p.addObject o = .ok q ↔
      p.containsObject o.id = false ∧
        q = { p with
          objects := p.objects ++ [{ o with position := o.position.clamped }]
          ballOwner := p.ownerAfterAdding o } := by
  unfold addObject
  cases p.containsObject o.id <;> simp [eq_comm]

theorem moveObject_eq_ok_iff {p q : Phase α} {id : ObjectId} {position : Point α} :
    p.moveObject id position = .ok q ↔
      p.containsObject id = true ∧
        q = { p with
          objects := replaceFirst (fun o => decide (o.id = id))
            (fun o => { o with position := position.clamped }) p.objects } := by
  unfold moveObject
  cases p.containsObject id <;> simp [eq_comm]

end Objects

theorem removeObject_eq_ok_iff {p q : Phase α} {id : ObjectId} :
    p.removeObject id = .ok q ↔
      p.containsObject id = true ∧
        q = { p with
          objects := p.objects.filter fun o => decide (o.id ≠ id)
          actions := p.actions.filter fun a => !a.references id
          ballOwner := if p.ballOwner = .owner id then .nobody else p.ballOwner } := by
  unfold removeObject
  cases p.containsObject id <;> simp [eq_comm]

theorem setOwner_eq_ok_iff {p q : Phase α} {owner : BallOwner} :
    p.setOwner owner = .ok q ↔
      (∀ id, owner = .owner id → p.containsObject id = true) ∧
        q = { p with ballOwner := owner } := by
  cases owner with
  | inherit => simpa [setOwner] using eq_comm
  | nobody => simpa [setOwner] using eq_comm
  | owner id =>
      cases hid : p.containsObject id with
      | false => simp [setOwner, hid]
      | true => simpa [setOwner, hid] using eq_comm

/-- The references that an edit checks are those that validation looks up, in the same order. -/
theorem checkReferences_eq (p : Phase α) (a : Action α) :
    p.checkReferences a =
      (p.danglingReference? a).elim (.ok ()) fun defect => .error (.unsound defect) := by
  have hsearch : p.danglingReference? a =
      [(Role.performer, a.performer), (Role.receiver, a.receiver)].findSome?
        fun named => named.2.bind fun object =>
          if p.containsObject object then none
          else some (.danglingReference p.id a.id named.1 object) := by
    unfold danglingReference? Action.namedObjects
    cases a.performer <;> cases a.receiver <;> rfl
  rw [hsearch]
  refine forM_eq_findSome? ?_ _
  rintro ⟨role, _ | object⟩
  · rfl
  · dsimp only [Option.bind_some]
    split_ifs <;> rfl

theorem addAction_eq_ok_iff {p q : Phase α} {a : Action α} :
    p.addAction a = .ok q ↔
      p.containsAction a.id = false ∧ p.danglingReference? a = none ∧
        q = { p with actions := p.actions ++ [a] } := by
  unfold addAction
  rw [checkReferences_eq]
  cases p.containsAction a.id <;> cases p.danglingReference? a <;>
    simp [bind, Except.bind, pure, Except.pure, eq_comm]

theorem replaceAction_eq_ok_iff {p q : Phase α} {a : Action α} :
    p.replaceAction a = .ok q ↔
      p.containsAction a.id = true ∧ p.danglingReference? a = none ∧
        q = { p with
          actions := replaceFirst (fun b => decide (b.id = a.id)) (fun _ => a) p.actions } := by
  unfold replaceAction
  rw [checkReferences_eq]
  cases p.containsAction a.id <;> cases p.danglingReference? a <;>
    simp [bind, Except.bind, pure, Except.pure, eq_comm]

theorem removeAction_eq_ok_iff {p q : Phase α} {id : ActionId} :
    p.removeAction id = .ok q ↔
      p.containsAction id = true ∧
        q = { p with actions := p.actions.filter fun a => decide (a.id ≠ id) } := by
  unfold removeAction
  cases p.containsAction id <;> simp [eq_comm]

/-! ## Edits keep a phase well formed -/

/-- Other objects in a phase: the old names have to be among the new ones. -/
theorem WellFormed.with_objects {p : Phase α} (hp : p.WellFormed)
    {objects : List (CourtObject α)} {owner : BallOwner}
    (hnodup : (objects.map (·.id)).Nodup)
    (hkept : ∀ id ∈ p.objects.map (·.id), id ∈ objects.map (·.id))
    (howner : ∀ id, owner = .owner id → id ∈ objects.map (·.id)) :
    ({ p with objects, ballOwner := owner } : Phase α).WellFormed where
  objects_nodup := hnodup
  actions_nodup := hp.actions_nodup
  performer_mem a ha id hid :=
    containsObject_iff.mpr (hkept id (containsObject_iff.mp (hp.performer_mem a ha id hid)))
  receiver_mem a ha id hid :=
    containsObject_iff.mpr (hkept id (containsObject_iff.mp (hp.receiver_mem a ha id hid)))
  owner_mem id hid := containsObject_iff.mpr (howner id hid)

/-- Other actions in a phase: they may name only objects of the phase. -/
theorem WellFormed.with_actions {p : Phase α} (hp : p.WellFormed) {actions : List (Action α)}
    (hnodup : (actions.map (·.id)).Nodup)
    (hnamed : ∀ a ∈ actions, p.danglingReference? a = none) :
    ({ p with actions } : Phase α).WellFormed where
  objects_nodup := hp.objects_nodup
  actions_nodup := hnodup
  performer_mem a ha := ((danglingReference?_eq_none_iff p a).mp (hnamed a ha)).1
  receiver_mem a ha := ((danglingReference?_eq_none_iff p a).mp (hnamed a ha)).2
  owner_mem := hp.owner_mem

theorem WellFormed.danglingReference?_eq_none {p : Phase α} (hp : p.WellFormed) {a : Action α}
    (ha : a ∈ p.actions) : p.danglingReference? a = none :=
  (danglingReference?_eq_none_iff p a).mpr ⟨hp.performer_mem a ha, hp.receiver_mem a ha⟩

/-- The owner after an addition is the new object, or it is what it was. -/
theorem ownerAfterAdding_cases (p : Phase α) (o : CourtObject α) :
    p.ownerAfterAdding o = .owner o.id ∨ p.ownerAfterAdding o = p.ballOwner := by
  unfold ownerAfterAdding
  exact ite_eq_or_eq _ _ _

section Objects

variable [Scalar α]

theorem WellFormed.addObject {p q : Phase α} {o : CourtObject α}
    (hp : p.WellFormed) (h : p.addObject o = .ok q) : q.WellFormed := by
  obtain ⟨hfresh, rfl⟩ := addObject_eq_ok_iff.mp h
  have hnew : o.id ∉ p.objects.map (·.id) := notMem_of_containsObject hfresh
  apply hp.with_objects
  · exact nodup_map_concat hp.objects_nodup hnew
  · intro id hid
    rw [List.map_append, List.mem_append]
    exact Or.inl hid
  · intro id hid
    rw [List.map_append, List.mem_append]
    rcases p.ownerAfterAdding_cases o with hgets | hkept
    · cases hgets.symm.trans hid
      exact Or.inr (by simp)
    · exact Or.inl (containsObject_iff.mp (hp.owner_mem id (hkept.symm.trans hid)))

theorem WellFormed.moveObject {p q : Phase α} {id : ObjectId} {position : Point α}
    (hp : p.WellFormed) (h : p.moveObject id position = .ok q) : q.WellFormed := by
  obtain ⟨-, rfl⟩ := moveObject_eq_ok_iff.mp h
  have hids : (replaceFirst (fun o => decide (o.id = id))
      (fun o => { o with position := position.clamped }) p.objects).map (·.id) =
      p.objects.map (·.id) := by
    apply map_replaceFirst
    intro o _
    rfl
  apply hp.with_objects
  · rw [hids]
    exact hp.objects_nodup
  · intro other hother
    rw [hids]
    exact hother
  · intro other hother
    rw [hids]
    exact containsObject_iff.mp (hp.owner_mem other hother)

end Objects

/-- Removing an object also removes what names it, so that no name is left over. -/
theorem WellFormed.removeObject {p q : Phase α} {id : ObjectId}
    (hp : p.WellFormed) (h : p.removeObject id = .ok q) : q.WellFormed := by
  obtain ⟨-, rfl⟩ := removeObject_eq_ok_iff.mp h
  have hkept : ∀ other, other ≠ id → p.containsObject other = true →
      other ∈ (p.objects.filter fun o => decide (o.id ≠ id)).map (·.id) := by
    intro other hne hother
    obtain ⟨o, ho, rfl⟩ := List.mem_map.mp (containsObject_iff.mp hother)
    exact List.mem_map.mpr ⟨o, List.mem_filter.mpr ⟨ho, by simpa using hne⟩, rfl⟩
  refine ⟨hp.objects_nodup.sublist (List.filter_sublist.map _),
    hp.actions_nodup.sublist (List.filter_sublist.map _), ?_, ?_, ?_⟩
  · intro a ha other hother
    obtain ⟨hmem, hunnamed⟩ := List.mem_filter.mp ha
    apply containsObject_iff.mpr
    apply hkept other _ (hp.performer_mem a hmem other hother)
    rintro rfl
    simp [Action.references, hother] at hunnamed
  · intro a ha other hother
    obtain ⟨hmem, hunnamed⟩ := List.mem_filter.mp ha
    apply containsObject_iff.mpr
    apply hkept other _ (hp.receiver_mem a hmem other hother)
    rintro rfl
    simp [Action.references, hother] at hunnamed
  · intro other hother
    by_cases howned : p.ballOwner = .owner id
    · simp [howned] at hother
    · simp only [howned, if_false] at hother
      apply containsObject_iff.mpr
      apply hkept other _ (hp.owner_mem other hother)
      rintro rfl
      exact howned hother

theorem WellFormed.setOwner {p q : Phase α} {owner : BallOwner}
    (hp : p.WellFormed) (h : p.setOwner owner = .ok q) : q.WellFormed := by
  obtain ⟨howner, rfl⟩ := setOwner_eq_ok_iff.mp h
  exact hp.with_objects hp.objects_nodup (fun _ hid => hid)
    fun id hid => containsObject_iff.mp (howner id hid)

theorem WellFormed.addAction {p q : Phase α} {a : Action α}
    (hp : p.WellFormed) (h : p.addAction a = .ok q) : q.WellFormed := by
  obtain ⟨hfresh, hnamed, rfl⟩ := addAction_eq_ok_iff.mp h
  have hnew : a.id ∉ p.actions.map (·.id) := notMem_of_containsAction hfresh
  apply hp.with_actions
  · exact nodup_map_concat hp.actions_nodup hnew
  · intro b hb
    rcases List.mem_append.mp hb with hold | hlast
    · exact hp.danglingReference?_eq_none hold
    · rw [List.mem_singleton.mp hlast]
      exact hnamed

theorem WellFormed.replaceAction {p q : Phase α} {a : Action α}
    (hp : p.WellFormed) (h : p.replaceAction a = .ok q) : q.WellFormed := by
  obtain ⟨-, hnamed, rfl⟩ := replaceAction_eq_ok_iff.mp h
  apply hp.with_actions
  · rw [map_replaceFirst]
    · exact hp.actions_nodup
    · intro b hb
      exact (of_decide_eq_true hb).symm
  · intro b hb
    rcases mem_of_mem_replaceFirst hb with hold | ⟨-, -, rfl⟩
    · exact hp.danglingReference?_eq_none hold
    · exact hnamed

theorem WellFormed.removeAction {p q : Phase α} {id : ActionId}
    (hp : p.WellFormed) (h : p.removeAction id = .ok q) : q.WellFormed := by
  obtain ⟨-, rfl⟩ := removeAction_eq_ok_iff.mp h
  apply hp.with_actions
  · exact hp.actions_nodup.sublist (List.filter_sublist.map _)
  · exact fun a ha => hp.danglingReference?_eq_none (List.mem_filter.mp ha).1

end Phase

namespace PhaseEdit

variable [Scalar α]

/-- No edit changes the name of a phase. -/
theorem apply_id {e : PhaseEdit α} {p q : Phase α} (h : e.apply p = .ok q) : q.id = p.id := by
  cases e with
  | addObject o => rw [(Phase.addObject_eq_ok_iff.mp h).2]
  | removeObject id => rw [(Phase.removeObject_eq_ok_iff.mp h).2]
  | moveObject id position => rw [(Phase.moveObject_eq_ok_iff.mp h).2]
  | setOwner owner => rw [(Phase.setOwner_eq_ok_iff.mp h).2]
  | addAction a => rw [(Phase.addAction_eq_ok_iff.mp h).2.2]
  | replaceAction a => rw [(Phase.replaceAction_eq_ok_iff.mp h).2.2]
  | removeAction id => rw [(Phase.removeAction_eq_ok_iff.mp h).2]

/-- Every object after an edit was there before, or was added, or was moved. -/
theorem mem_objects_of_apply {e : PhaseEdit α} {p q : Phase α} (h : e.apply p = .ok q)
    {o : CourtObject α} (ho : o ∈ q.objects) :
    o ∈ p.objects ∨
      (∃ added, e = addObject added ∧ o = { added with position := added.position.clamped }) ∨
      ∃ before ∈ p.objects, ∃ id point, e = moveObject id point ∧
        o = { before with position := point.clamped } := by
  cases e with
  | addObject added =>
      obtain ⟨-, rfl⟩ := Phase.addObject_eq_ok_iff.mp h
      rcases List.mem_append.mp ho with hold | hnew
      · exact Or.inl hold
      · exact Or.inr (Or.inl ⟨added, rfl, List.mem_singleton.mp hnew⟩)
  | removeObject id =>
      obtain ⟨-, rfl⟩ := Phase.removeObject_eq_ok_iff.mp h
      exact Or.inl (List.mem_filter.mp ho).1
  | moveObject id point =>
      obtain ⟨-, rfl⟩ := Phase.moveObject_eq_ok_iff.mp h
      rcases mem_of_mem_replaceFirst ho with hold | ⟨before, hbefore, rfl⟩
      · exact Or.inl hold
      · exact Or.inr (Or.inr ⟨before, hbefore, id, point, rfl, rfl⟩)
  | setOwner owner =>
      obtain ⟨-, rfl⟩ := Phase.setOwner_eq_ok_iff.mp h
      exact Or.inl ho
  | addAction a =>
      obtain ⟨-, -, rfl⟩ := Phase.addAction_eq_ok_iff.mp h
      exact Or.inl ho
  | replaceAction a =>
      obtain ⟨-, -, rfl⟩ := Phase.replaceAction_eq_ok_iff.mp h
      exact Or.inl ho
  | removeAction id =>
      obtain ⟨-, rfl⟩ := Phase.removeAction_eq_ok_iff.mp h
      exact Or.inl ho

/-- Every action after an edit was there before, or is the one that the edit brings. -/
theorem mem_actions_of_apply {e : PhaseEdit α} {p q : Phase α} (h : e.apply p = .ok q)
    {a : Action α} (ha : a ∈ q.actions) :
    a ∈ p.actions ∨ e = addAction a ∨ e = replaceAction a := by
  cases e with
  | addObject o =>
      obtain ⟨-, rfl⟩ := Phase.addObject_eq_ok_iff.mp h
      exact Or.inl ha
  | removeObject id =>
      obtain ⟨-, rfl⟩ := Phase.removeObject_eq_ok_iff.mp h
      exact Or.inl (List.mem_filter.mp ha).1
  | moveObject id point =>
      obtain ⟨-, rfl⟩ := Phase.moveObject_eq_ok_iff.mp h
      exact Or.inl ha
  | setOwner owner =>
      obtain ⟨-, rfl⟩ := Phase.setOwner_eq_ok_iff.mp h
      exact Or.inl ha
  | addAction added =>
      obtain ⟨-, -, rfl⟩ := Phase.addAction_eq_ok_iff.mp h
      rcases List.mem_append.mp ha with hold | hnew
      · exact Or.inl hold
      · rw [List.mem_singleton.mp hnew]
        exact Or.inr (Or.inl rfl)
  | replaceAction added =>
      obtain ⟨-, -, rfl⟩ := Phase.replaceAction_eq_ok_iff.mp h
      rcases mem_of_mem_replaceFirst ha with hold | ⟨-, -, rfl⟩
      · exact Or.inl hold
      · exact Or.inr (Or.inr rfl)
  | removeAction id =>
      obtain ⟨-, rfl⟩ := Phase.removeAction_eq_ok_iff.mp h
      exact Or.inl (List.mem_filter.mp ha).1

/-- Every edit keeps a phase well formed. -/
theorem apply_wellFormed {e : PhaseEdit α} {p q : Phase α}
    (hp : p.WellFormed) (h : e.apply p = .ok q) : q.WellFormed := by
  cases e with
  | addObject o => exact hp.addObject h
  | removeObject id => exact hp.removeObject h
  | moveObject id position => exact hp.moveObject h
  | setOwner owner => exact hp.setOwner h
  | addAction a => exact hp.addAction h
  | replaceAction a => exact hp.replaceAction h
  | removeAction id => exact hp.removeAction h

end PhaseEdit

end PlayDiagram
