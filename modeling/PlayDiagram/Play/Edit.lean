import PlayDiagram.Play.Defect

/-!
# Editing

Every edit returns a new phase or document and leaves the old one as it is.  An edit of a phase
checks what a sound phase needs; a phase put back into its document is checked together with it.

`PhaseEdit` and `DocumentEdit` name the edits, so that a history of edits is a list.
-/

namespace PlayDiagram

/-- Why an edit is refused. -/
inductive EditError where
  /-- The result would not be sound. -/
  | unsound (defect : Defect)
  /-- There is no phase at the index. -/
  | phaseOutOfRange (index count : Nat)
  /-- The phase has no such object. -/
  | objectNotFound (id : ObjectId)
  /-- The phase has no such action. -/
  | actionNotFound (id : ActionId)
  /-- The only phase cannot be removed. -/
  | lastPhase
  deriving DecidableEq, Repr

/-- The text of a refusal. -/
def EditError.message : EditError → String
  | unsound defect => defect.message
  | phaseOutOfRange index count =>
    s!"phase index {index} out of range (document has {count} phases)"
  | objectNotFound id => s!"object not found: \"{id.text}\""
  | actionNotFound id => s!"action not found: \"{id.text}\""
  | lastPhase => "cannot remove the last remaining phase"

/-- Replaces the first element that satisfies a test. -/
def replaceFirst {β : Type} (test : β → Bool) (f : β → β) : List β → List β
  | [] => []
  | x :: rest => if test x then f x :: rest else x :: replaceFirst test f rest

variable {α : Type}

namespace Phase

/-- Refuses an action that names an object which is not in the phase; the performer is looked up
first. -/
def checkReferences (p : Phase α) (a : Action α) : Except EditError Unit :=
  [(Role.performer, a.performer), (Role.receiver, a.receiver)].forM fun (role, object?) =>
    match object? with
    | some object =>
      if p.containsObject object then .ok ()
      else .error (.unsound (.danglingReference p.id a.id role object))
    | none => .ok ()

section Objects

variable [Scalar α]

/-- The ball owner after an object is added: the first player of a phase that inherits its owner
becomes the owner. -/
def ownerAfterAdding (p : Phase α) (o : CourtObject α) : BallOwner :=
  if o.kind.isPlayer ∧ p.ballOwner = .inherit ∧ p.firstPlayer?.isNone then .owner o.id
  else p.ballOwner

/-- Adds an object as the last one, clamped onto the court. -/
def addObject (p : Phase α) (o : CourtObject α) : Except EditError (Phase α) :=
  if p.containsObject o.id then .error (.unsound (.duplicateObject p.id o.id))
  else
    .ok { p with
      objects := p.objects ++ [{ o with position := o.position.clamped }]
      ballOwner := p.ownerAfterAdding o }

/-- Moves an object to a point, clamped onto the court. -/
def moveObject (p : Phase α) (id : ObjectId) (position : Point α) : Except EditError (Phase α) :=
  if p.containsObject id then
    .ok { p with
      objects := replaceFirst (fun o => decide (o.id = id))
        (fun o => { o with position := position.clamped }) p.objects }
  else .error (.objectNotFound id)

end Objects

/-- Removes an object and every action that names it.  If it had the ball, nobody has it then. -/
def removeObject (p : Phase α) (id : ObjectId) : Except EditError (Phase α) :=
  if p.containsObject id then
    .ok { p with
      objects := p.objects.filter fun o => decide (o.id ≠ id)
      actions := p.actions.filter fun a => !a.references id
      ballOwner := if p.ballOwner = .owner id then .nobody else p.ballOwner }
  else .error (.objectNotFound id)

/-- Sets the ball owner, which has to be in the phase if it is an object. -/
def setOwner (p : Phase α) (owner : BallOwner) : Except EditError (Phase α) :=
  match owner with
  | .owner id =>
    if p.containsObject id then .ok { p with ballOwner := owner } else .error (.objectNotFound id)
  | .inherit | .nobody => .ok { p with ballOwner := owner }

/-- Adds an action as the last one. -/
def addAction (p : Phase α) (a : Action α) : Except EditError (Phase α) :=
  if p.containsAction a.id then .error (.unsound (.duplicateAction p.id a.id))
  else do
    p.checkReferences a
    return { p with actions := p.actions ++ [a] }

/-- Puts an action in the place of the one with its name. -/
def replaceAction (p : Phase α) (a : Action α) : Except EditError (Phase α) :=
  if p.containsAction a.id then do
    p.checkReferences a
    return { p with
      actions := replaceFirst (fun b => decide (b.id = a.id)) (fun _ => a) p.actions }
  else .error (.actionNotFound a.id)

/-- Removes an action. -/
def removeAction (p : Phase α) (id : ActionId) : Except EditError (Phase α) :=
  if p.containsAction id then
    .ok { p with actions := p.actions.filter fun a => decide (a.id ≠ id) }
  else .error (.actionNotFound id)

/-- The last listed action that the object performs. -/
def lastActionOf? (p : Phase α) (id : ObjectId) : Option (Action α) :=
  p.actions.reverse.find? fun a => a.performer = some id

/-- The phase that follows: each object stands where its last listed action ends, clamped onto the
court; there are no actions, and the ball owner is inherited. -/
def nextSnapshot [Scalar α] (p : Phase α) (id : PhaseId) (name : String) : Phase α :=
  { Phase.empty id name with
    objects := p.objects.map fun o =>
      match p.lastActionOf? o.id with
      | some a => { o with position := a.target.clamped }
      | none => o }

end Phase

namespace Document

/-- Puts a phase in the place of the one at an index.  The result has to be sound. -/
def replacePhase (d : Document α) (index : Nat) (p : Phase α) : Except EditError (Document α) :=
  if index < d.phases.length then
    match validate { d with phases := d.phases.set index p } with
    | .ok next => .ok next
    | .error defect => .error (.unsound defect)
  else .error (.phaseOutOfRange index d.phases.length)

/-- Adds the phase that follows the last one, under a new name. -/
def appendPhase [Scalar α] (d : Document α) (id : PhaseId) : Document α :=
  let name := s!"Phase {d.phases.length + 1}"
  let next :=
    match d.phases.getLast? with
    | some last => last.nextSnapshot id name
    | none => Phase.empty id name
  { d with phases := d.phases ++ [next] }

/-- Removes the phase at an index, unless it is the only one. -/
def removePhase (d : Document α) (index : Nat) : Except EditError (Document α) :=
  if index < d.phases.length then
    if d.phases.length = 1 then .error .lastPhase
    else .ok { d with phases := d.phases.eraseIdx index }
  else .error (.phaseOutOfRange index d.phases.length)

end Document

/-! ## Edits as data -/

/-- An edit of one phase. -/
inductive PhaseEdit (α : Type) where
  | addObject (object : CourtObject α)
  | removeObject (id : ObjectId)
  | moveObject (id : ObjectId) (position : Point α)
  | setOwner (owner : BallOwner)
  | addAction (action : Action α)
  | replaceAction (action : Action α)
  | removeAction (id : ActionId)

/-- Applies an edit to a phase. -/
def PhaseEdit.apply [Scalar α] (e : PhaseEdit α) (p : Phase α) : Except EditError (Phase α) :=
  match e with
  | addObject object => p.addObject object
  | removeObject id => p.removeObject id
  | moveObject id position => p.moveObject id position
  | setOwner owner => p.setOwner owner
  | addAction action => p.addAction action
  | replaceAction action => p.replaceAction action
  | removeAction id => p.removeAction id

/-- An edit of a document. -/
inductive DocumentEdit (α : Type) where
  /-- Edits the phase at an index and puts it back. -/
  | editPhase (index : Nat) (edit : PhaseEdit α)
  /-- Puts a phase in the place of the one at an index. -/
  | replacePhase (index : Nat) (phase : Phase α)
  /-- Adds the phase that follows the last one, under a new name. -/
  | appendPhase (id : PhaseId)
  /-- Removes the phase at an index. -/
  | removePhase (index : Nat)

/-- Applies an edit to a document. -/
def DocumentEdit.apply [Scalar α] (e : DocumentEdit α) (d : Document α) :
    Except EditError (Document α) :=
  match e with
  | editPhase index edit =>
    match d.phases[index]? with
    | some p => do
      let edited ← edit.apply p
      d.replacePhase index edited
    | none => .error (.phaseOutOfRange index d.phases.length)
  | replacePhase index phase => d.replacePhase index phase
  | appendPhase id => .ok (d.appendPhase id)
  | removePhase index => d.removePhase index

/-- Applies edits one after another to anything they apply to; one that is refused changes
nothing. -/
def runEdits {ε σ ρ : Type} (apply : ε → σ → Except ρ σ) (edits : List ε) (s : σ) : σ :=
  edits.foldl (fun s e => (apply e s).toOption.getD s) s

end PlayDiagram
