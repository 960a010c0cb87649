import PlayDiagram.Play.Document

/-!
# Warnings

A warning tells what a diagram will do where its author may not expect it.  It makes no document
unsound and changes nothing in playback.
-/

namespace PlayDiagram

/-- A pass or handoff that nobody receives. -/
structure Warning where
  action : ActionId
  kind : ActionKind
  deriving DecidableEq, Repr

/-- The text of a warning. -/
def Warning.message (w : Warning) : String :=
  s!"{w.kind.name} \"{w.action.text}\" has no receiver; possession stays with the current owner"

variable {α : Type}

/-- Whether the action names who gives the ball away but not who gets it. -/
def Action.lacksReceiver (a : Action α) : Bool :=
  a.kind.transfersPossession && a.performer.isSome && a.receiver.isNone

/-- The warnings about a phase, in the order of its actions. -/
def Phase.warnings (p : Phase α) : List Warning :=
  (p.actions.filter Action.lacksReceiver).map fun a => ⟨a.id, a.kind⟩

/-- The warnings about a document, each beside its phase, in the order of the phases. -/
def Document.warnings (d : Document α) : List (Phase α × Warning) :=
  d.phases.flatMap fun p => p.warnings.map fun w => (p, w)

end PlayDiagram
