import PlayDiagram.Court.Point
import PlayDiagram.Play.Id

/-!
# Actions

An action is a movement drawn on a phase.  It is animated in the transition out of the phase.
-/

namespace PlayDiagram

/-- What an action depicts. -/
inductive ActionKind where
  | dribble
  | pass
  | cut
  | screen
  | shot
  | handoff
  deriving DecidableEq, Repr

namespace ActionKind

/-- All kinds, in the order in which they are listed. -/
def all : List ActionKind :=
  [dribble, pass, cut, screen, shot, handoff]

/-- The written name of a kind. -/
def name : ActionKind → String
  | dribble => "dribble"
  | pass => "pass"
  | cut => "cut"
  | screen => "screen"
  | shot => "shot"
  | handoff => "handoff"

/-- Whether the kind moves the ball from one object to another. -/
def transfersPossession : ActionKind → Bool
  | pass | handoff => true
  | _ => false

end ActionKind

/-- How an action is tied to those before it. -/
inductive Trigger where
  /-- Starts when everything before it has ended. -/
  | afterPrevious
  /-- Starts together with the latest action that is `afterPrevious`. -/
  | withPrevious
  deriving DecidableEq, Repr

namespace Trigger

/-- Both triggers, in the order in which they are listed. -/
def all : List Trigger :=
  [afterPrevious, withPrevious]

/-- The written name of a trigger. -/
def name : Trigger → String
  | afterPrevious => "after_previous"
  | withPrevious => "with_previous"

end Trigger

/-- When an action starts and how long it takes at normal speed; without a duration the configured
one applies. -/
structure Timing where
  trigger : Trigger := .afterPrevious
  durationMs : Option UInt32 := none
  deriving DecidableEq, Repr

/-- A movement drawn on a phase. -/
structure Action (α : Type) where
  id : ActionId
  kind : ActionKind
  /-- Where the drawn path starts. -/
  origin : Point α
  /-- Where the drawn path ends. -/
  target : Point α
  /-- The object that moves along the path. -/
  performer : Option ObjectId
  /-- The object that gets the ball. -/
  receiver : Option ObjectId
  timing : Timing
  deriving DecidableEq, BEq, Repr

namespace Action

variable {α : Type}

/-- An action of no object, with the timing of one that nothing is said about. -/
def freehand (id : ActionId) (kind : ActionKind) (origin target : Point α) : Action α :=
  { id, kind, origin, target, performer := none, receiver := none, timing := {} }

/-- The action, performed by an object. -/
def performedBy (a : Action α) (id : ObjectId) : Action α :=
  { a with performer := some id }

/-- The action, with an object to get the ball. -/
def receivedBy (a : Action α) (id : ObjectId) : Action α :=
  { a with receiver := some id }

/-- The action with another trigger. -/
def triggered (a : Action α) (trigger : Trigger) : Action α :=
  { a with timing := { a.timing with trigger } }

/-- The action with a duration. -/
def lasting (a : Action α) (ms : UInt32) : Action α :=
  { a with timing := { a.timing with durationMs := some ms } }

/-- Whether the action names the object, as performer or as receiver. -/
def references (a : Action α) (id : ObjectId) : Bool :=
  a.performer = some id || a.receiver = some id

/-- The pair of objects between which the ball changes hands: there is one if the action is of a
kind that transfers possession and names both. -/
def possessionChange? (a : Action α) : Option (ObjectId × ObjectId) :=
  if a.kind.transfersPossession then
    match a.performer, a.receiver with
    | some performer, some receiver => some (performer, receiver)
    | _, _ => none
  else none

end Action

end PlayDiagram
