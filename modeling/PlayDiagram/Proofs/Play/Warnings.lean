import Mathlib.Data.List.Nodup
import Mathlib.Data.Prod.Basic
import PlayDiagram.Play.Warning
import PlayDiagram.Proofs.Play.Soundness

/-!
# What is warned about

A document warns about those of its actions that lack a receiver, in the order in which they are placed
(`Document.warnings_eq`).  The actions of a sound document are told apart by their names and those of
their phases, so each of them is warned about once (`Document.IsSound.filter_warnings`), and a warning
leads back to the one action that it is about.
-/

namespace PlayDiagram

/-- Among values of different names one has a given name. -/
theorem filter_eq_singleton {β ι : Type} [DecidableEq ι] {name : β → ι} {l : List β}
    (hnodup : (l.map name).Nodup) {x : β} (hx : x ∈ l) :
    (l.filter fun y => name y = name x) = [x] := by
  induction l with
  | nil => cases hx
  | cons y rest ih =>
      obtain ⟨hfresh, hrest⟩ := List.nodup_cons.mp hnodup
      rcases List.mem_cons.mp hx with rfl | hx
      · have hnone : (rest.filter fun y => name y = name x) = [] := by
          rw [List.filter_eq_nil_iff]
          intro z hz hname
          exact hfresh (of_decide_eq_true hname ▸ List.mem_map_of_mem hz)
        rw [List.filter_cons_of_pos (by simp), hnone]
      · have hname : name y ≠ name x := fun hname => hfresh (hname ▸ List.mem_map_of_mem hx)
        rw [List.filter_cons_of_neg (by simpa using hname), ih hrest hx]

variable {α : Type}

theorem Action.lacksReceiver_iff {a : Action α} :
    a.lacksReceiver = true ↔
      (a.kind = .pass ∨ a.kind = .handoff) ∧ a.performer ≠ none ∧ a.receiver = none := by
  have hkind : a.kind.transfersPossession = true ↔ a.kind = .pass ∨ a.kind = .handoff := by
    cases a.kind <;> decide
  unfold lacksReceiver
  rw [Bool.and_eq_true, Bool.and_eq_true, hkind, Option.isSome_iff_ne_none, Option.isNone_iff_eq_none,
    and_assoc]

/-- An action that lacks a receiver does not move the ball. -/
theorem Action.possessionChange?_of_lacksReceiver {a : Action α} (ha : a.lacksReceiver = true) :
    a.possessionChange? = none := by
  obtain ⟨-, -, hreceiver⟩ := lacksReceiver_iff.mp ha
  unfold possessionChange?
  rw [hreceiver]
  cases a.performer <;> exact ite_self none

/-- In a well-formed phase, what is warned about lacks a receiver. -/
theorem Phase.WellFormed.lacksReceiver {p : Phase α} (hp : p.WellFormed) {a : Action α}
    (ha : a ∈ p.actions) {w : Warning} (hw : w ∈ p.warnings) (hid : w.action = a.id) :
    a.lacksReceiver = true := by
  obtain ⟨b, hb, rfl⟩ := List.mem_map.mp hw
  obtain ⟨hmem, hlacks⟩ := List.mem_filter.mp hb
  obtain rfl := List.inj_on_of_nodup_map hp.actions_nodup hmem ha hid
  exact hlacks

namespace Document

/-- The actions of a document, each beside its phase. -/
def placedActions (d : Document α) : List (Phase α × Action α) :=
  d.phases.flatMap fun p => p.actions.map fun a => (p, a)

@[simp] theorem mem_placedActions {d : Document α} {p : Phase α} {a : Action α} :
    (p, a) ∈ d.placedActions ↔ p ∈ d.phases ∧ a ∈ p.actions := by
  simp [placedActions]

@[simp] theorem mem_warnings {d : Document α} {p : Phase α} {w : Warning} :
    (p, w) ∈ d.warnings ↔ p ∈ d.phases ∧ w ∈ p.warnings := by
  simp [warnings]

/-- The warnings are about the actions that lack a receiver, in their order. -/
theorem warnings_eq (d : Document α) :
    d.warnings = (d.placedActions.filter fun entry => entry.2.lacksReceiver).map fun entry =>
      (entry.1, ⟨entry.2.id, entry.2.kind⟩) := by
  unfold warnings placedActions Phase.warnings
  rw [List.filter_flatMap, List.map_flatMap]
  simp only [List.filter_map, List.map_map]
  rfl

/-- Warnings come in the order of the actions. -/
theorem warnings_sublist (d : Document α) :
    (d.warnings.map fun entry => (entry.1.id, entry.2.action)).Sublist
      (d.placedActions.map fun entry => (entry.1.id, entry.2.id)) := by
  rw [warnings_eq, List.map_map]
  exact List.filter_sublist.map _

variable {d : Document α} (hd : d.IsSound)

include hd

/-- Phases and actions are told apart by their names. -/
theorem IsSound.placedActions_nodup :
    (d.placedActions.map fun entry => (entry.1.id, entry.2.id)).Nodup := by
  obtain ⟨-, hphases, hwell⟩ := (isSound_iff d).mp hd
  unfold placedActions
  rw [List.map_flatMap, List.nodup_flatMap]
  constructor
  · intro p hp
    rw [List.map_map]
    have hnames := (hwell p hp).actions_nodup.map (Prod.mk_right_injective p.id)
    rw [List.map_map] at hnames
    exact hnames
  · refine (List.pairwise_map.mp hphases).imp fun hne => ?_
    intro name hname hname'
    simp only [List.map_map, List.mem_map, Function.comp_apply] at hname hname'
    obtain ⟨a, -, rfl⟩ := hname
    obtain ⟨b, -, heq⟩ := hname'
    exact hne (Prod.ext_iff.mp heq).1.symm

/-- Every action that lacks a receiver is warned about once, and no other one is. -/
theorem IsSound.filter_warnings {p : Phase α} (hp : p ∈ d.phases) {a : Action α}
    (ha : a ∈ p.actions) :
    (d.warnings.filter fun entry => entry.1.id = p.id ∧ entry.2.action = a.id) =
      if a.lacksReceiver then [(p, ⟨a.id, a.kind⟩)] else [] := by
  have hone := filter_eq_singleton hd.placedActions_nodup (mem_placedActions.mpr ⟨hp, ha⟩)
  simp only [Prod.mk.injEq] at hone
  rw [warnings_eq, List.filter_map]
  show ((d.placedActions.filter fun entry => entry.2.lacksReceiver).filter fun entry =>
    decide (entry.1.id = p.id ∧ entry.2.id = a.id)).map _ = _
  rw [List.filter_comm, hone]
  cases hlacks : a.lacksReceiver <;> simp [hlacks]

end Document

end PlayDiagram
