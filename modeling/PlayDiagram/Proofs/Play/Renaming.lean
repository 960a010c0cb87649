import Mathlib.Logic.Equiv.Basic
import PlayDiagram.Play.Warning
import PlayDiagram.Proofs.Play.FirstDefect

/-!
# Renaming

Names have no structure that a play depends on: only which of them are equal matters.  A renaming gives
new names to objects, actions and phases and keeps different names different.  Validation finds the
same first defect in a renamed document, under its new names (`Document.validate_rename`), and the
warnings are the same (`Document.warnings_rename`).
-/

namespace PlayDiagram

/-- New names for objects, actions and phases; different names stay different. -/
structure Renaming where
  object : ObjectId → ObjectId
  action : ActionId → ActionId
  phase : PhaseId → PhaseId
  object_injective : Function.Injective object
  action_injective : Function.Injective action
  phase_injective : Function.Injective phase

/-- Two objects exchange their names. -/
def Renaming.swap (x y : ObjectId) : Renaming where
  object := Equiv.swap x y
  action := id
  phase := id
  object_injective := Equiv.injective _
  action_injective := Function.injective_id
  phase_injective := Function.injective_id

variable {α : Type} (ρ : Renaming)

def CourtObject.rename (o : CourtObject α) : CourtObject α :=
  { o with id := ρ.object o.id }

def Action.rename (a : Action α) : Action α :=
  { a with
    id := ρ.action a.id
    performer := a.performer.map ρ.object
    receiver := a.receiver.map ρ.object }

def BallOwner.rename : BallOwner → BallOwner
  | inherit => inherit
  | nobody => nobody
  | owner id => owner (ρ.object id)

def Phase.rename (p : Phase α) : Phase α :=
  { p with
    id := ρ.phase p.id
    objects := p.objects.map (·.rename ρ)
    actions := p.actions.map (·.rename ρ)
    ballOwner := p.ballOwner.rename ρ }

/-- The document with every name in it replaced by the new one. -/
def Document.rename (d : Document α) : Document α :=
  { d with phases := d.phases.map (·.rename ρ) }

def Defect.rename : Defect → Defect
  | noPhases => noPhases
  | duplicatePhase phase => duplicatePhase (ρ.phase phase)
  | duplicateObject phase object => duplicateObject (ρ.phase phase) (ρ.object object)
  | duplicateAction phase action => duplicateAction (ρ.phase phase) (ρ.action action)
  | danglingReference phase action role object =>
    danglingReference (ρ.phase phase) (ρ.action action) role (ρ.object object)
  | danglingOwner phase object => danglingOwner (ρ.phase phase) (ρ.object object)

def Warning.rename (w : Warning) : Warning :=
  { w with action := ρ.action w.action }

/-! ## Looking objects up -/

namespace Phase

variable (p : Phase α)

@[simp] theorem object?_rename (id : ObjectId) :
    (p.rename ρ).object? (ρ.object id) = (p.object? id).map (·.rename ρ) := by
  unfold object? rename
  rw [List.find?_map]
  simp only [Function.comp_def, CourtObject.rename, ρ.object_injective.eq_iff]

@[simp] theorem containsObject_rename (id : ObjectId) :
    (p.rename ρ).containsObject (ρ.object id) = p.containsObject id := by
  unfold containsObject rename
  rw [List.any_map]
  simp only [Function.comp_def, CourtObject.rename, ρ.object_injective.eq_iff]

@[simp] theorem firstPlayer?_rename : (p.rename ρ).firstPlayer? = p.firstPlayer?.map (·.rename ρ) := by
  unfold firstPlayer? rename
  rw [List.find?_map]
  rfl

end Phase

/-! ## Defects -/

/-- The first repetition in a list, under new names. -/
theorem firstRepeat?_map {ι κ : Type} [DecidableEq ι] [DecidableEq κ] {f : ι → κ}
    (hf : Function.Injective f) (seen l : List ι) :
    firstRepeat? (seen.map f) (l.map f) = (firstRepeat? seen l).map f := by
  induction l generalizing seen with
  | nil => rfl
  | cons x rest ih =>
      have hseen := List.mem_map_of_injective hf (a := x) (l := seen)
      rw [List.map_cons, firstRepeat?, firstRepeat?, ← List.map_cons, ih]
      by_cases hx : x ∈ seen
      · rw [if_pos (hseen.mpr hx), if_pos hx, Option.map_some]
      · rw [if_neg (mt hseen.mp hx), if_neg hx]

/-- The first name that several values repeat, under the new names of the values. -/
theorem firstRepeat?_names {β ι : Type} [DecidableEq ι] {f : ι → ι} (hf : Function.Injective f)
    {name : β → ι} {g : β → β} (hg : ∀ b, name (g b) = f (name b)) (l : List β) :
    firstRepeat? [] ((l.map g).map name) = (firstRepeat? [] (l.map name)).map f := by
  have hnames : (l.map g).map name = (l.map name).map f := by
    rw [List.map_map, List.map_map]
    exact List.map_congr_left fun b _ => hg b
  rw [hnames]
  exact firstRepeat?_map hf [] (l.map name)

namespace Phase

variable (p : Phase α)

theorem danglingReference?_rename (a : Action α) :
    (p.rename ρ).danglingReference? (a.rename ρ) = (p.danglingReference? a).map (·.rename ρ) := by
  have hobjects : (a.rename ρ).namedObjects =
      a.namedObjects.map fun named => (named.1, ρ.object named.2) := by
    unfold Action.namedObjects Action.rename
    cases a.performer <;> cases a.receiver <;> rfl
  unfold danglingReference?
  rw [hobjects, List.findSome?_map, List.map_findSome?]
  congr 1
  funext named
  simp only [Function.comp_apply, containsObject_rename, apply_ite (Option.map _)]
  rfl

theorem danglingOwner?_rename :
    (p.rename ρ).danglingOwner? = p.danglingOwner?.map (·.rename ρ) := by
  have howner : (p.rename ρ).ballOwner = p.ballOwner.rename ρ := rfl
  unfold danglingOwner?
  rw [howner]
  cases p.ballOwner with
  | inherit => rfl
  | nobody => rfl
  | owner id =>
      simp only [BallOwner.rename, containsObject_rename, apply_ite (Option.map _)]
      rfl

theorem defect?_rename : (p.rename ρ).defect? = p.defect?.map (·.rename ρ) := by
  have hobjects : firstRepeat? [] ((p.rename ρ).objects.map (·.id)) =
      (firstRepeat? [] (p.objects.map (·.id))).map ρ.object :=
    firstRepeat?_names (g := (·.rename ρ)) ρ.object_injective (fun _ => rfl) p.objects
  have hactions : firstRepeat? [] ((p.rename ρ).actions.map (·.id)) =
      (firstRepeat? [] (p.actions.map (·.id))).map ρ.action :=
    firstRepeat?_names (g := (·.rename ρ)) ρ.action_injective (fun _ => rfl) p.actions
  have hreferences : (p.rename ρ).actions.findSome? (p.rename ρ).danglingReference? =
      (p.actions.findSome? p.danglingReference?).map (·.rename ρ) := by
    show (p.actions.map (·.rename ρ)).findSome? _ = _
    rw [List.findSome?_map, List.map_findSome?]
    exact congrArg (List.findSome? · _) (funext (p.danglingReference?_rename ρ))
  unfold defect?
  rw [hobjects, hactions, hreferences, danglingOwner?_rename]
  simp only [Option.map_or, Option.map_map]
  rfl

theorem warnings_rename : (p.rename ρ).warnings = p.warnings.map (·.rename ρ) := by
  have hlacks : ∀ a : Action α, (a.rename ρ).lacksReceiver = a.lacksReceiver := by
    intro a
    unfold Action.lacksReceiver Action.rename
    rw [Option.isSome_map, Option.isNone_map]
  unfold warnings rename
  rw [List.filter_map, List.map_map, List.map_map]
  simp only [Function.comp_def, hlacks]
  rfl

end Phase

namespace Document

variable (d : Document α)

theorem defect?_rename : (d.rename ρ).defect? = d.defect?.map (·.rename ρ) := by
  have hphases : firstRepeat? [] ((d.rename ρ).phases.map (·.id)) =
      (firstRepeat? [] (d.phases.map (·.id))).map ρ.phase :=
    firstRepeat?_names (g := (·.rename ρ)) ρ.phase_injective (fun _ => rfl) d.phases
  have hdefects : (d.rename ρ).phases.findSome? Phase.defect? =
      (d.phases.findSome? Phase.defect?).map (·.rename ρ) := by
    show (d.phases.map (·.rename ρ)).findSome? _ = _
    rw [List.findSome?_map, List.map_findSome?]
    exact congrArg (List.findSome? · _) (funext (Phase.defect?_rename ρ))
  have hempty : (d.rename ρ).phases.isEmpty = d.phases.isEmpty := List.isEmpty_map
  unfold defect?
  rw [hphases, hdefects, hempty, apply_ite (Option.map _)]
  simp only [Option.map_or, Option.map_map]
  rfl

/-- A renamed document is accepted, or refused with the same defect under its new names. -/
theorem validate_rename :
    (d.rename ρ).validate = (d.validate.map (·.rename ρ)).mapError (·.rename ρ) := by
  unfold validate
  rw [defect?_rename]
  cases d.defect? <;> rfl

theorem warnings_rename :
    (d.rename ρ).warnings = d.warnings.map fun (p, w) => (p.rename ρ, w.rename ρ) := by
  unfold warnings rename
  rw [List.flatMap_map, List.map_flatMap]
  simp only [Phase.warnings_rename, List.map_map]
  rfl

end Document

end PlayDiagram
