import PlayDiagram.Playback.Possession
import PlayDiagram.Proofs.Correspondence

/-!
# The entries of a schedule

A schedule has one entry for each action of its phase, in the same order, and but for the trigger
an entry says of its action what the phase says (`ofActions_depicts`).  Which object an entry moves,
and whether it passes the ball, can therefore be read off the phase.
-/

namespace PlayDiagram

variable {α : Type}

/-- A scheduled action that depicts an action of a phase. -/
structure ScheduledAction.Depicts (s : ScheduledAction α) (a : Action α) : Prop where
  id : s.id = a.id
  kind : s.kind = a.kind
  performer : s.performer = a.performer
  receiver : s.receiver = a.receiver
  origin : s.origin = a.origin
  target : s.target = a.target

theorem ScheduledAction.Depicts.possessionChange? {s : ScheduledAction α} {a : Action α}
    (h : s.Depicts a) : s.possessionChange? = a.possessionChange? := by
  obtain ⟨_, kind, _, performer, receiver, _, _, _, _⟩ := s
  obtain ⟨-, rfl, rfl, rfl, -, -⟩ := h
  rfl

namespace Schedule

variable [Scalar α]

theorem layOut_depicts (tempo : Tempo α) (c : Cursor α) (actions : List (Action α)) :
    List.Forall₂ ScheduledAction.Depicts (layOut tempo c actions).actions actions := by
  induction actions generalizing c with
  | nil => exact List.Forall₂.nil
  | cons a rest ih => exact List.Forall₂.cons ⟨rfl, rfl, rfl, rfl, rfl, rfl⟩ (ih _)

/-- The entries of a schedule depict the actions of the phase one by one. -/
theorem ofActions_depicts (tempo : Tempo α) (actions : List (Action α)) :
    List.Forall₂ ScheduledAction.Depicts (ofActions tempo actions).actions actions := by
  cases actions with
  | nil => exact List.Forall₂.nil
  | cons a rest =>
      cases layOut_depicts tempo ⟨0, 0⟩ (a.triggered .afterPrevious :: rest) with
      | cons hfirst hrest =>
          refine List.Forall₂.cons ?_ hrest
          exact ⟨hfirst.id, hfirst.kind, hfirst.performer, hfirst.receiver, hfirst.origin,
            hfirst.target⟩

@[simp] theorem ofActions_length (tempo : Tempo α) (actions : List (Action α)) :
    (ofActions tempo actions).actions.length = actions.length :=
  (ofActions_depicts tempo actions).length_eq

/-- Each entry depicts the action at its own index. -/
theorem exists_action_of_entry {tempo : Tempo α} {actions : List (Action α)} {k : ℕ}
    {s : ScheduledAction α} (hs : (ofActions tempo actions).actions[k]? = some s) :
    ∃ a, actions[k]? = some a ∧ s.Depicts a := by
  obtain ⟨hk, rfl⟩ := List.getElem?_eq_some_iff.mp hs
  have hk' : k < actions.length := ofActions_length tempo actions ▸ hk
  refine ⟨actions[k], List.getElem?_eq_getElem hk', ?_⟩
  exact (ofActions_depicts tempo actions).get hk hk'

/-- The entry of each action stands at its own index. -/
theorem exists_entry_of_action (tempo : Tempo α) {actions : List (Action α)} {k : ℕ} {a : Action α}
    (ha : actions[k]? = some a) :
    ∃ s, (ofActions tempo actions).actions[k]? = some s ∧ s.Depicts a := by
  have hk : k < (ofActions tempo actions).actions.length := by
    simpa using (List.getElem?_eq_some_iff.mp ha).1
  have hs := List.getElem?_eq_getElem hk
  obtain ⟨a', ha', hdepicts⟩ := exists_action_of_entry hs
  obtain rfl := Option.some.inj (ha.symm.trans ha')
  exact ⟨_, hs, hdepicts⟩

end Schedule

theorem Action.possessionChange?_eq_some_iff {a : Action α} {giver receiver : ObjectId} :
    a.possessionChange? = some (giver, receiver) ↔
      a.kind.transfersPossession = true ∧ a.performer = some giver ∧
        a.receiver = some receiver := by
  unfold possessionChange?
  cases a.performer <;> cases a.receiver <;> simp

/-- Who gets the ball in a phase: the receiver of its first action that passes it on. -/
def Phase.handOver? (p : Phase α) : Option ObjectId :=
  (p.actions.findSome? Action.possessionChange?).map Prod.snd

/-- At the end of a transition the receiver has the ball, or whoever had it at the start. -/
theorem ownerAfter_flip? [Scalar α] (tempo : Tempo α) (p : Phase α) (start : Option ObjectId) :
    ownerAfter start (Schedule.ofActions tempo p.actions).flip? = p.handOver?.or start := by
  have hreceiver : (Schedule.ofActions tempo p.actions).flip?.map Flip.receiver = p.handOver? := by
    unfold Schedule.flip? Phase.handOver?
    rw [List.map_findSome?, List.map_findSome?]
    apply findSome?_eq_of_forall₂ (Schedule.ofActions_depicts tempo p.actions)
    intro s a hdepicts
    simp only [Function.comp_apply, ScheduledAction.flip?, hdepicts.possessionChange?,
      Option.map_map]
    rfl
  rw [← hreceiver]
  cases (Schedule.ofActions tempo p.actions).flip? <;> rfl

end PlayDiagram
