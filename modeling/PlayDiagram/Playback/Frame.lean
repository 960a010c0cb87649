import PlayDiagram.Playback.Transition

/-!
# Frames

A frame is one instant of a transition: where the objects stand and who has the ball.
-/

namespace PlayDiagram

/-- One instant of a transition. -/
structure Frame (α : Type) where
  /-- Where each object stands, in the order of the objects' names, each name once. -/
  positions : List (ObjectId × Point α)
  ballOwner : Option ObjectId
  deriving DecidableEq, BEq, Repr

/-- Sets the point of an object in a list ordered by names. -/
def placeObject {β : Type} (id : ObjectId) (p : β) :
    List (ObjectId × β) → List (ObjectId × β)
  | [] => [(id, p)]
  | (other, q) :: rest =>
    if id < other then (id, p) :: (other, q) :: rest
    else if id = other then (id, p) :: rest
    else (other, q) :: placeObject id p rest

/-- The objects with their points in the order of their names; of several points of one object the
last one counts. -/
def orderByObject {β : Type} (placed : List (ObjectId × β)) : List (ObjectId × β) :=
  placed.foldl (fun ordered (id, p) => placeObject id p ordered) []

/-- Where the frame shows an object. -/
def Frame.position? {α : Type} (f : Frame α) (id : ObjectId) : Option (Point α) :=
  f.positions.lookup id

variable {α : Type} [Scalar α]

/-- Of the actions that ended before an instant the one that ended last; of several the one that is
listed last. -/
def lastEnded? (actions : List (ScheduledAction α)) (t : α) : Option (ScheduledAction α) :=
  (actions.filter fun a => decide (a.endMs < t)).foldl
    (fun latest? a =>
      match latest? with
      | some latest => if Scalar.totalLE latest.endMs a.endMs then some a else some latest
      | none => some a)
    none

/-- Where an object stands at an instant that lies in the transition.

An object that performs no action glides from the one phase to the other.  Any other stands at its
departing point until its first action starts, and at its arriving point when its last one has
ended.  In between it is on the path of the last listed action under way; when none is, it rests
where the action that ended last took it. -/
def Track.positionAt (track : Track α) (s : Schedule α) (t : α) : Point α :=
  let actions := track.entries s
  if actions.isEmpty then
    if s.totalMs ≤ 0 then track.departing
    else track.departing.lerp track.arriving (t / s.totalMs)
  else if !actions.any fun a => a.startMs < t then track.departing
  else if !actions.any fun a => t < a.endMs then track.arriving
  else
    match actions.reverse.find? (·.contains t) with
    | some active => active.positionAt t
    | none =>
      match lastEnded? actions t with
      | some ended => ended.target
      | none => track.departing

namespace Transition

/-- The instant of the transition that a time stands for: what is no number stands for the start,
and any other time for the nearest instant. -/
def instant (transition : Transition α) (t : α) : α :=
  if Scalar.isNaN t then 0 else Scalar.clamp 0 transition.schedule.totalMs t

/-- The frame at a time. -/
def frameAt (transition : Transition α) (t : α) : Frame α :=
  let instant := transition.instant t
  { positions := orderByObject <| transition.tracks.map fun track =>
      (track.object, track.positionAt transition.schedule instant)
    ballOwner := ownerAt transition.startOwner transition.flip?.toList instant }

end Transition

end PlayDiagram
