import PlayDiagram.Play.Document

/-!
# Defects of a document

A document is sound when it has a phase, when no name is given twice where it must be unique, and
when every object that an action or a ball owner names is in the same phase.  `defect?` finds the
first fault in a fixed order, so that each unsound document has one.
-/

namespace PlayDiagram

/-- The two places where an action names an object. -/
inductive Role where
  | performer
  | receiver
  deriving DecidableEq, Repr

/-- The field of a written action that holds the object in this role. -/
def Role.field : Role → String
  | performer => "fromObjectId"
  | receiver => "toObjectId"

/-- Why a document is not sound. -/
inductive Defect where
  /-- The document has no phase. -/
  | noPhases
  /-- A phase has the name of an earlier one. -/
  | duplicatePhase (phase : PhaseId)
  /-- An object has the name of an earlier one in its phase. -/
  | duplicateObject (phase : PhaseId) (object : ObjectId)
  /-- An action has the name of an earlier one in its phase. -/
  | duplicateAction (phase : PhaseId) (action : ActionId)
  /-- An action names an object that is not in its phase. -/
  | danglingReference (phase : PhaseId) (action : ActionId) (role : Role) (object : ObjectId)
  /-- The ball owner is not in its phase. -/
  | danglingOwner (phase : PhaseId) (object : ObjectId)
  deriving DecidableEq, Repr

/-- The text of a defect. -/
def Defect.message : Defect → String
  | noPhases => "document must contain at least one phase"
  | duplicatePhase phase => s!"duplicate phase id \"{phase.text}\""
  | duplicateObject phase object =>
    s!"phase \"{phase.text}\": duplicate object id \"{object.text}\""
  | duplicateAction phase action =>
    s!"phase \"{phase.text}\": duplicate action id \"{action.text}\""
  | danglingReference phase action role object =>
    s!"phase \"{phase.text}\": action \"{action.text}\" {role.field} references unknown object " ++
      s!"\"{object.text}\""
  | danglingOwner phase object =>
    s!"phase \"{phase.text}\": ballOwnerObjectId references unknown object \"{object.text}\""

/-- The first element of a list that is among the `seen` ones or stands earlier in the list. -/
def firstRepeat? {ι : Type} [DecidableEq ι] (seen : List ι) : List ι → Option ι
  | [] => none
  | x :: rest => if x ∈ seen then some x else firstRepeat? (x :: seen) rest

variable {α : Type}

namespace Action

/-- The objects that the action names, each with its role. -/
def namedObjects (a : Action α) : List (Role × ObjectId) :=
  (a.performer.toList.map (Role.performer, ·)) ++ (a.receiver.toList.map (Role.receiver, ·))

end Action

namespace Phase

/-- The first reference of an action to an object that is not in the phase. -/
def danglingReference? (p : Phase α) (a : Action α) : Option Defect :=
  a.namedObjects.findSome? fun (role, object) =>
    if p.containsObject object then none
    else some (.danglingReference p.id a.id role object)

/-- The ball owner, if it is not in the phase. -/
def danglingOwner? (p : Phase α) : Option Defect :=
  match p.ballOwner with
  | .owner object => if p.containsObject object then none else some (.danglingOwner p.id object)
  | .inherit | .nobody => none

/-- The first defect of a phase: repeated objects come first, then repeated actions, dangling
references in the order of the actions, and the ball owner. -/
def defect? (p : Phase α) : Option Defect :=
  ((firstRepeat? [] (p.objects.map (·.id))).map (Defect.duplicateObject p.id ·)).or <|
  ((firstRepeat? [] (p.actions.map (·.id))).map (Defect.duplicateAction p.id ·)).or <|
  (p.actions.findSome? p.danglingReference?).or
  p.danglingOwner?

end Phase

namespace Document

/-- The first defect of a document: missing and repeated phases come first, then the defects of the
phases in order. -/
def defect? (d : Document α) : Option Defect :=
  if d.phases.isEmpty then some .noPhases
  else
    ((firstRepeat? [] (d.phases.map (·.id))).map Defect.duplicatePhase).or
    (d.phases.findSome? Phase.defect?)

/-- A sound document has no defect. -/
def IsSound (d : Document α) : Prop :=
  d.defect? = none

instance (d : Document α) : Decidable d.IsSound :=
  inferInstanceAs (Decidable (_ = _))

/-- Returns a sound document as it is, and refuses any other with its first defect. -/
def validate (d : Document α) : Except Defect (Document α) :=
  match d.defect? with
  | none => .ok d
  | some defect => .error defect

end Document

end PlayDiagram
