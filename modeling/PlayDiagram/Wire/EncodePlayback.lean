import PlayDiagram.Playback.Frame
import PlayDiagram.Wire.Encode

/-!
# Compiled plays as JSON values

What a renderer needs of a compiled play.  Here a name that is not set is written as `null`.
-/

namespace PlayDiagram

open Json (Value)

namespace Encode

/-- Writes a small natural number, such as an index; one beyond 64 bits, of which there is none in
a play, becomes `null`. -/
def index (n : Nat) : Value :=
  match Json.Number.ofInt? n with
  | some number => .number number
  | none => .null

/-- Writes the name of an object, or `null`. -/
def objectId? (id? : Option ObjectId) : Value :=
  id?.elim .null objectId

def scheduledAction (a : ScheduledAction Float) : Value :=
  .object
    [("actionId", text a.id.text), ("kind", text a.kind.name), ("trigger", text a.trigger.name),
      ("fromObjectId", objectId? a.performer), ("toObjectId", objectId? a.receiver),
      ("from", point a.origin), ("to", point a.target), ("startMs", float a.startMs),
      ("endMs", float a.endMs)]

def schedule (s : Schedule Float) : Value :=
  .object
    [("actions", .array (s.actions.map scheduledAction)), ("totalDurationMs", float s.totalMs)]

def track (t : Track Float) : Value :=
  .object
    [("objectId", objectId t.object), ("departing", point t.departing),
      ("arriving", point t.arriving), ("actions", .array (t.actions.map index))]

def flip (f : Flip Float) : Value :=
  .object
    [("actionId", text f.action.text), ("from", objectId f.giver), ("to", objectId f.receiver),
      ("atMs", float f.atMs)]

def transition (t : Transition Float) : Value :=
  .object
    [("index", index t.index), ("fromPhaseId", text t.departingPhase.text),
      ("toPhaseId", text t.arrivingPhase.text), ("schedule", schedule t.schedule),
      ("tracks", .array (t.tracks.map track)), ("startOwner", objectId? t.startOwner),
      ("ownershipFlip", t.flip?.elim .null flip)]

def compiledPlay (c : CompiledPlay Float) : Value :=
  .object
    [("transitions", .array (c.transitions.map transition)),
      ("phaseStartOwners", .array (c.startOwners.map objectId?)), ("speed", float c.speed)]

end Encode

end PlayDiagram
