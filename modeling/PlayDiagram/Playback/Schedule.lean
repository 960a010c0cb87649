import PlayDiagram.Play.Document
import PlayDiagram.Playback.Speed

/-!
# Schedules

A schedule lays the actions of one phase out on a time axis that starts with the transition.  Each
action occupies a window.  `Schedule.ofActions` moves a cursor along the list: an action that comes
after the previous ones starts at the cursor, one that comes with the previous starts where the
latest such action did.
-/

namespace PlayDiagram

/-- An action on the time axis of its transition. -/
structure ScheduledAction (α : Type) where
  id : ActionId
  kind : ActionKind
  /-- The trigger that was applied. -/
  trigger : Trigger
  performer : Option ObjectId
  receiver : Option ObjectId
  origin : Point α
  target : Point α
  startMs : α
  endMs : α
  deriving DecidableEq, BEq, Repr

namespace ScheduledAction

variable {α : Type} [Scalar α]

/-- The length of the window. -/
def durationMs (a : ScheduledAction α) : α :=
  a.endMs - a.startMs

/-- Whether an instant lies in the window, its ends included. -/
def contains (a : ScheduledAction α) (t : α) : Bool :=
  a.startMs ≤ t && t ≤ a.endMs

/-- The fraction of the path that is covered at an instant.  A window without length is over as
soon as it starts. -/
def progress (a : ScheduledAction α) (t : α) : α :=
  let span := a.durationMs
  if span ≤ 0 then 1 else Scalar.clamp 0 1 ((t - a.startMs) / span)

/-- The point of the path that is reached at an instant. -/
def positionAt (a : ScheduledAction α) (t : α) : Point α :=
  a.origin.lerp a.target (a.progress t)

/-- The pair of objects between which the ball changes hands. -/
def possessionChange? {α : Type} (a : ScheduledAction α) : Option (ObjectId × ObjectId) :=
  if a.kind.transfersPossession then
    match a.performer, a.receiver with
    | some performer, some receiver => some (performer, receiver)
    | _, _ => none
  else none

/-- The action with its window, in whole milliseconds. -/
def text (a : ScheduledAction Float) : String :=
  s!"{a.id.text} {a.kind.name} {fixedText 0 a.startMs}-{fixedText 0 a.endMs}ms"

end ScheduledAction

/-- The actions of a phase on a time axis. -/
structure Schedule (α : Type) where
  /-- The actions, in the order of the phase. -/
  actions : List (ScheduledAction α)
  /-- When the last action has ended. -/
  totalMs : α
  deriving DecidableEq, BEq, Repr

/-- How far a schedule has been laid out. -/
structure Cursor (α : Type) where
  /-- When everything so far has ended. -/
  freeMs : α
  /-- When the latest action started that came after the previous ones. -/
  anchorMs : α

namespace Cursor

variable {α : Type} [Scalar α]

/-- The cursor after an action of the given length, and when the action starts. -/
def place (c : Cursor α) (trigger : Trigger) (lengthMs : α) : α × Cursor α :=
  match trigger with
  | .afterPrevious => (c.freeMs, ⟨c.freeMs + lengthMs, c.freeMs⟩)
  | .withPrevious => (c.anchorMs, ⟨Scalar.greater c.freeMs (c.anchorMs + lengthMs), c.anchorMs⟩)

end Cursor

namespace Schedule

variable {α : Type} [Scalar α]

/-- Lays actions out from a cursor on. -/
def layOut (tempo : Tempo α) (c : Cursor α) : List (Action α) → Schedule α
  | [] => ⟨[], c.freeMs⟩
  | a :: rest =>
    let lengthMs := tempo.lengthMs a.timing
    let (startMs, next) := c.place a.timing.trigger lengthMs
    let later := layOut tempo next rest
    { later with
      actions :=
        { id := a.id
          kind := a.kind
          trigger := a.timing.trigger
          performer := a.performer
          receiver := a.receiver
          origin := a.origin
          target := a.target
          startMs
          endMs := startMs + lengthMs } :: later.actions }

/-- Lays the actions of a phase out.  The first one has nothing to come with: whatever its trigger,
it comes after the previous ones. -/
def ofActions (tempo : Tempo α) : List (Action α) → Schedule α
  | [] => ⟨[], 0⟩
  | a :: rest => layOut tempo ⟨0, 0⟩ (a.triggered .afterPrevious :: rest)

/-- The indices of the actions that an object performs. -/
def performedBy {α : Type} (s : Schedule α) (id : ObjectId) : List Nat :=
  (s.actions.zipIdx.filter fun (a, _) => a.performer = some id).map (·.2)

/-- A line for each action and one for the total, in whole milliseconds. -/
def text (s : Schedule Float) : String :=
  "\n".intercalate (s.actions.map ScheduledAction.text ++ [s!"total {fixedText 0 s.totalMs}ms"])

end Schedule

end PlayDiagram
