import PlayDiagram.Json.Value
import PlayDiagram.Play.Document

/-!
# Documents as JSON values

The members of an object are written in the order of the record's fields.  What is not set is left
out, except that nobody as a ball owner is `null`, to tell it from an inherited owner.
-/

namespace PlayDiagram

open Json (Value)

namespace Encode

/-- The member of a name, if there is a value for it. -/
def member? (key : String) (value? : Option Value) : List (String × Value) :=
  value?.toList.map (key, ·)

def text (s : String) : Value :=
  .string s

/-- Writes a double; what is not finite becomes `null`. -/
def float (x : Float) : Value :=
  .ofFloat x

def objectId (id : ObjectId) : Value :=
  .string id.text

def point (p : Point Float) : Value :=
  .object [("x", float p.x), ("y", float p.y)]

def object (o : CourtObject Float) : Value :=
  .object <|
    [("id", objectId o.id), ("type", text o.kind.name)] ++
    member? "label" (o.label.map text) ++
    [("position", point o.position), ("size", float o.size)] ++
    member? "width" (o.width.map float) ++
    member? "height" (o.height.map float)

def timing (t : Timing) : Value :=
  .object <|
    ("trigger", text t.trigger.name) ::
    member? "durationMs" (t.durationMs.map fun ms => .number (.ofUInt32 ms))

def action (a : Action Float) : Value :=
  .object <|
    [("id", text a.id.text), ("type", text a.kind.name), ("from", point a.origin),
      ("to", point a.target)] ++
    member? "fromObjectId" (a.performer.map objectId) ++
    member? "toObjectId" (a.receiver.map objectId) ++
    [("animation", timing a.timing)]

/-- Writes a ball owner, unless it is inherited. -/
def ballOwner? : BallOwner → Option Value
  | .inherit => none
  | .nobody => some .null
  | .owner id => some (objectId id)

def phase (p : Phase Float) : Value :=
  .object <|
    [("id", text p.id.text), ("name", text p.name),
      ("objects", .array (p.objects.map object)), ("actions", .array (p.actions.map action))] ++
    member? "ballOwnerObjectId" (ballOwner? p.ballOwner)

def document (d : Document Float) : Value :=
  .object
    [("schemaVersion", .number (.ofInt64 d.schemaVersion)), ("courtTemplate", text d.court.name),
      ("phases", .array (d.phases.map phase))]

end Encode

end PlayDiagram
