import PlayDiagram.Play.Action
import PlayDiagram.Play.Object

/-!
# Phases and documents

A play is a list of phases.  Each phase records where the objects stand and which actions lead out
of it to the next phase.
-/

namespace PlayDiagram

/-- Who has the ball when a phase begins. -/
inductive BallOwner where
  /-- Whoever has it at the end of the phase before. -/
  | inherit
  /-- Nobody, whoever had it before. -/
  | nobody
  /-- This object. -/
  | owner (id : ObjectId)
  deriving DecidableEq, Repr

namespace BallOwner

/-- The object that the owner names, if it names one. -/
def id? : BallOwner → Option ObjectId
  | owner id => some id
  | inherit | nobody => none

end BallOwner

/-- A snapshot of positions and the actions that lead out of it. -/
structure Phase (α : Type) where
  id : PhaseId
  name : String
  /-- The objects, in the order in which they were added. -/
  objects : List (CourtObject α)
  /-- The actions, in the order in which they are played. -/
  actions : List (Action α)
  ballOwner : BallOwner
  deriving DecidableEq, BEq, Repr

namespace Phase

variable {α : Type}

/-- A phase without objects and actions, whose ball owner is inherited. -/
def empty (id : PhaseId) (name : String) : Phase α :=
  { id, name, objects := [], actions := [], ballOwner := .inherit }

/-- The object with the given name. -/
def object? (p : Phase α) (id : ObjectId) : Option (CourtObject α) :=
  p.objects.find? fun o => o.id = id

/-- Whether the phase has an object with the given name. -/
def containsObject (p : Phase α) (id : ObjectId) : Bool :=
  p.objects.any fun o => o.id = id

/-- Whether the phase has an action with the given name. -/
def containsAction (p : Phase α) (id : ActionId) : Bool :=
  p.actions.any fun a => a.id = id

/-- The player that was added first. -/
def firstPlayer? (p : Phase α) : Option (CourtObject α) :=
  p.objects.find? fun o => o.kind.isPlayer

end Phase

/-- The drawing that the objects stand on. -/
inductive Court where
  /-- One basket. -/
  | half
  /-- Both baskets. -/
  | full
  deriving DecidableEq, Repr

namespace Court

/-- Both courts, in the order in which they are listed. -/
def all : List Court :=
  [half, full]

/-- The written name of a court. -/
def name : Court → String
  | half => "half_court"
  | full => "full_court"

end Court

/-- A play diagram. -/
structure Document (α : Type) where
  /-- Carried along unchanged, whatever it is. -/
  schemaVersion : Int64
  court : Court
  /-- The phases, in the order of play. -/
  phases : List (Phase α)
  deriving DecidableEq, BEq, Repr

namespace Document

variable {α : Type}

-- Sums start from the zero of core, whatever else is in scope.
attribute [local instance (2000)] Zero.ofOfNat0

/-- A document of the current schema version. -/
def new (court : Court) (phases : List (Phase α)) : Document α :=
  { schemaVersion := 1, court, phases }

/-- The smallest document: one empty phase on a half court. -/
def empty : Document α :=
  new .half [Phase.empty ⟨"phase-1"⟩ "Phase 1"]

/-- The number of objects in all phases together. -/
def objectCount (d : Document α) : Nat :=
  (d.phases.map fun p => p.objects.length).sum

/-- The number of actions in all phases together. -/
def actionCount (d : Document α) : Nat :=
  (d.phases.map fun p => p.actions.length).sum

end Document

end PlayDiagram
