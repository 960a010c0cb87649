import PlayDiagram.Playback.Schedule

/-!
# Possession

Who has the ball: at the start of a phase, at each instant of a transition, and at its end.
-/

namespace PlayDiagram

/-- A change of possession: the receiver has the ball from an instant on. -/
structure Flip (α : Type) where
  action : ActionId
  giver : ObjectId
  receiver : ObjectId
  atMs : α
  deriving DecidableEq, BEq, Repr

variable {α : Type}

/-- The flip that an action performs when its window ends. -/
def ScheduledAction.flip? (a : ScheduledAction α) : Option (Flip α) :=
  a.possessionChange?.map fun (giver, receiver) => ⟨a.id, giver, receiver, a.endMs⟩

/-- The only change of possession of a schedule: that of its first action that performs one.  Later
passes are drawn, but do not move the ball. -/
def Schedule.flip? (s : Schedule α) : Option (Flip α) :=
  s.actions.findSome? ScheduledAction.flip?

/-- Who has the ball when the phase at an index starts, if `carried` had it at the end of the phase
before.  The first phase inherits from nobody: its first player has the ball. -/
def Phase.startOwner (p : Phase α) (index : Nat) (carried : Option ObjectId) : Option ObjectId :=
  match p.ballOwner with
  | .owner id => some id
  | .nobody => none
  | .inherit => if index = 0 then p.firstPlayer?.map (·.id) else carried

/-- Who has the ball after a flip, if there is one. -/
def ownerAfter (start : Option ObjectId) (flip? : Option (Flip α)) : Option ObjectId :=
  match flip? with
  | some flip => some flip.receiver
  | none => start

/-- Who has the ball at an instant: the receiver of the last listed flip whose time has come. -/
def ownerAt [Scalar α] (start : Option ObjectId) (flips : List (Flip α)) (t : α) :
    Option ObjectId :=
  flips.foldl (fun owner flip => if flip.atMs ≤ t then some flip.receiver else owner) start

end PlayDiagram
