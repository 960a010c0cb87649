import PlayDiagram.Play.Defect
import Mathlib.Data.List.Nodup

/-!
# What a sound document is

`Document.defect?` looks for faults in a fixed order.  This module says without any order what it
is that has none: `Phase.WellFormed` is the condition on a single phase, and a document is sound if
it has phases, their names differ, and each of them is well formed.
-/

namespace PlayDiagram

/-- No repetition is found exactly when the list has none and shares nothing with what was seen. -/
theorem firstRepeat?_eq_none_iff
    {ι : Type} [DecidableEq ι] (seen l : List ι) :
    firstRepeat? seen l = none ↔ l.Nodup ∧ ∀ x ∈ l, x ∉ seen := by
  induction l generalizing seen with
  | nil => simp [firstRepeat?]
  | cons x rest ih =>
      by_cases hx : x ∈ seen
      · simp [firstRepeat?, hx]
      · simp only [firstRepeat?, hx, if_false, ih, List.nodup_cons, List.mem_cons, not_or]
        constructor
        · rintro ⟨hnodup, hfresh⟩
          refine ⟨⟨fun hmem => (hfresh x hmem).1 rfl, hnodup⟩, ?_⟩
          rintro y (rfl | hy)
          · exact hx
          · exact (hfresh y hy).2
        · rintro ⟨⟨hxrest, hnodup⟩, hfresh⟩
          refine ⟨hnodup, fun y hy => ⟨?_, hfresh y (Or.inr hy)⟩⟩
          rintro rfl
          exact hxrest hy

/-- A fresh name at the end of a list of different names. -/
theorem nodup_map_concat {β ι : Type} {name : β → ι} {l : List β} {x : β}
    (hnodup : (l.map name).Nodup) (hfresh : name x ∉ l.map name) :
    ((l ++ [x]).map name).Nodup := by
  rw [List.map_append]
  refine List.nodup_append.mpr ⟨hnodup, List.nodup_singleton _, ?_⟩
  intro y hy z hz
  rw [List.map_singleton, List.mem_singleton] at hz
  rintro rfl
  exact hfresh (hz ▸ hy)

variable {α : Type}

namespace Phase

theorem containsObject_iff {p : Phase α} {id : ObjectId} :
    p.containsObject id = true ↔ id ∈ p.objects.map (·.id) := by
  simp [containsObject]

theorem containsAction_iff {p : Phase α} {id : ActionId} :
    p.containsAction id = true ↔ id ∈ p.actions.map (·.id) := by
  simp [containsAction]

theorem notMem_of_containsObject {p : Phase α} {id : ObjectId} (h : p.containsObject id = false) :
    id ∉ p.objects.map (·.id) := by
  rw [← containsObject_iff, h]
  exact Bool.false_ne_true

theorem notMem_of_containsAction {p : Phase α} {id : ActionId} (h : p.containsAction id = false) :
    id ∉ p.actions.map (·.id) := by
  rw [← containsAction_iff, h]
  exact Bool.false_ne_true

/-- What a sound document asks of each of its phases. -/
structure WellFormed (p : Phase α) : Prop where
  objects_nodup : (p.objects.map (·.id)).Nodup
  actions_nodup : (p.actions.map (·.id)).Nodup
  performer_mem : ∀ a ∈ p.actions, ∀ id, a.performer = some id → p.containsObject id = true
  receiver_mem : ∀ a ∈ p.actions, ∀ id, a.receiver = some id → p.containsObject id = true
  owner_mem : ∀ id, p.ballOwner = .owner id → p.containsObject id = true

/-- The references of an action are accepted exactly when the phase has the objects it names. -/
theorem danglingReference?_eq_none_iff (p : Phase α) (a : Action α) :
    p.danglingReference? a = none ↔
      (∀ id, a.performer = some id → p.containsObject id = true) ∧
        ∀ id, a.receiver = some id → p.containsObject id = true := by
  simp only [danglingReference?, Action.namedObjects, List.findSome?_eq_none_iff,
    List.mem_append, List.mem_map, Option.mem_toList]
  constructor
  · intro h
    constructor
    · intro id hid
      have := h (Role.performer, id) (Or.inl ⟨id, hid, rfl⟩)
      simpa using this
    · intro id hid
      have := h (Role.receiver, id) (Or.inr ⟨id, hid, rfl⟩)
      simpa using this
  · rintro ⟨hperformer, hreceiver⟩ ⟨role, id⟩ (⟨other, hother, heq⟩ | ⟨other, hother, heq⟩)
    · cases heq
      simp [hperformer id hother]
    · cases heq
      simp [hreceiver id hother]

theorem danglingOwner?_eq_none_iff (p : Phase α) :
    p.danglingOwner? = none ↔
      ∀ id, p.ballOwner = .owner id → p.containsObject id = true := by
  cases howner : p.ballOwner with
  | inherit => simp [danglingOwner?, howner]
  | nobody => simp [danglingOwner?, howner]
  | owner object => simp [danglingOwner?, howner]

/-- A phase has no defect exactly when it is well formed. -/
theorem defect?_eq_none_iff (p : Phase α) : p.defect? = none ↔ p.WellFormed := by
  simp only [defect?, Option.or_eq_none_iff, Option.map_eq_none_iff, firstRepeat?_eq_none_iff,
    List.findSome?_eq_none_iff, danglingReference?_eq_none_iff, danglingOwner?_eq_none_iff]
  constructor
  · rintro ⟨⟨hobjects, -⟩, ⟨hactions, -⟩, hnamed, howner⟩
    exact ⟨hobjects, hactions, fun a ha => (hnamed a ha).1, fun a ha => (hnamed a ha).2, howner⟩
  · intro h
    exact ⟨⟨h.objects_nodup, by simp⟩, ⟨h.actions_nodup, by simp⟩,
      fun a ha => ⟨h.performer_mem a ha, h.receiver_mem a ha⟩, h.owner_mem⟩

/-- In a well-formed phase, looking an object up by its own name finds that object. -/
theorem WellFormed.object?_eq_some_iff {p : Phase α} (hp : p.WellFormed)
    {id : ObjectId} {o : CourtObject α} :
    p.object? id = some o ↔ o ∈ p.objects ∧ o.id = id := by
  constructor
  · intro h
    exact ⟨List.mem_of_find?_eq_some h, by simpa using List.find?_some h⟩
  · rintro ⟨hmem, rfl⟩
    obtain ⟨found, hfound⟩ : ∃ found, p.object? o.id = some found := by
      apply Option.isSome_iff_exists.mp
      rw [object?, List.find?_isSome]
      exact ⟨o, hmem, by simp⟩
    have hsame : found.id = o.id := by simpa using List.find?_some hfound
    have hfoundMem : found ∈ p.objects := List.mem_of_find?_eq_some hfound
    rw [hfound, List.inj_on_of_nodup_map hp.objects_nodup hfoundMem hmem hsame]

theorem containsObject_iff_object? {p : Phase α} {id : ObjectId} :
    p.containsObject id = true ↔ ∃ o, p.object? id = some o := by
  rw [← Option.isSome_iff_exists, object?, List.find?_isSome, containsObject, List.any_eq_true]

theorem containsObject_eq_false_iff {p : Phase α} {id : ObjectId} :
    p.containsObject id = false ↔ p.object? id = none := by
  rw [← Bool.not_eq_true, containsObject_iff_object?, ← Option.isSome_iff_exists,
    Option.not_isSome_iff_eq_none]

end Phase

namespace Document

/-- Soundness without an order of checks: there are phases, their names differ, and each of them is
well formed. -/
theorem isSound_iff (d : Document α) :
    d.IsSound ↔
      d.phases ≠ [] ∧ (d.phases.map (·.id)).Nodup ∧ ∀ p ∈ d.phases, p.WellFormed := by
  unfold IsSound defect?
  by_cases hempty : d.phases = []
  · simp [hempty]
  · simp [hempty, firstRepeat?_eq_none_iff, Phase.defect?_eq_none_iff]

theorem IsSound.wellFormed {d : Document α} (hd : d.IsSound) {i : ℕ} {p : Phase α}
    (hp : d.phases[i]? = some p) : p.WellFormed :=
  ((isSound_iff d).mp hd).2.2 p (List.mem_of_getElem? hp)

end Document

end PlayDiagram
