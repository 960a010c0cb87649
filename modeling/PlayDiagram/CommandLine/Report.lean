import PlayDiagram.CommandLine.Table
import PlayDiagram.Json.Writer
import PlayDiagram.Play.Template
import PlayDiagram.Play.Warning
import PlayDiagram.Playback.Frame
import PlayDiagram.Wire.Encode

/-!
# Reports

What the commands print about a document, as lines of text.
-/

namespace PlayDiagram

/-- The lines that a command prints. -/
abbrev Report := List String

namespace Report

/-- A count with its noun. -/
def plural (count : Nat) (noun : String) : String :=
  if count = 1 then s!"{count} {noun}" else s!"{count} {noun}s"

/-- What a sound document holds, and whether there are warnings about it. -/
def check (path : String) (d : Document Float) : Report :=
  let warnings := d.warnings.length
  [s!"  All checks passed for '{path}'.",
    "  " ++ ", ".intercalate
      [plural d.phases.length "phase", plural d.objectCount "object",
        plural d.actionCount "action"]] ++
  if warnings = 0 then []
  else ["  " ++ plural warnings "warning" ++ " (run `pb warnings` for details)"]

/-- A line for each warning, under the name of its phase, which is not repeated from one warning to
the next. -/
def warningLines (heading : Option PhaseId) : List (Phase Float × Warning) → Report
  | [] => []
  | (p, w) :: rest =>
    (if heading = some p.id then [] else [s!"  {p.name}"]) ++
      s!"    warning: {w.message}" :: warningLines (some p.id) rest

/-- The warnings about a document and their number. -/
def warnings (d : Document Float) : Report :=
  match d.warnings with
  | [] => ["  No warnings."]
  | all => warningLines none all ++ ["", "  " ++ plural all.length "warning"]

/-- The row of a scheduled action. -/
def scheduleRow (a : ScheduledAction Float) : List String :=
  [a.id.text, a.kind.name, a.trigger.name, a.performer.elim "-" (·.text), fixedText 0 a.startMs,
    fixedText 0 a.endMs]

/-- The schedule of a transition and its change of possession. -/
def transition (t : Transition Float) : Report :=
  let heading := s!"  [{t.index}] {t.departingPhase.text} -> {t.arrivingPhase.text} " ++
    s!"{fixedText 0 t.schedule.totalMs}ms"
  if t.schedule.actions.isEmpty then [heading, "  (dwell: no actions)", ""]
  else
    [heading] ++
    Table.lines ["Action", "Type", "Trigger", "Object", "Start", "End"]
      (t.schedule.actions.map scheduleRow) ++
    (t.flip?.toList.map fun flip =>
      s!"  ball: {flip.giver.text} -> {flip.receiver.text} at {fixedText 0 flip.atMs}ms") ++
    [""]

/-- The schedules of all transitions and their number. -/
def timeline (preset : SpeedPreset) (d : Document Float) : Report :=
  let play := d.compile ⟨{}, preset.speed⟩
  if play.transitions.isEmpty then ["  Single-phase play: nothing to animate."]
  else
    [s!"  Timeline ({preset.speed.text} speed)", ""] ++
    play.transitions.flatMap transition ++
    ["  " ++ plural play.transitions.length "transition" ++
      s!", {fixedText 0 play.totalMs}ms total"]

/-- One instant of a transition. -/
def frame (t : Transition Float) (ms : Float) : Report :=
  let total := t.schedule.totalMs
  let shown := t.frameAt ms
  [s!"  {t.departingPhase.text} -> {t.arrivingPhase.text} at " ++
    s!"{fixedText 0 (Scalar.clamp 0 total ms)}ms of {fixedText 0 total}ms"] ++
  Table.lines ["Object", "X", "Y"]
    (shown.positions.map fun (id, p) => [id.text, fixedText 1 p.x, fixedText 1 p.y]) ++
  ["  Ball: " ++ shown.ballOwner.elim "nobody" (·.text)]

/-- The names of the templates. -/
def templateNames : Report :=
  Template.all.map Template.name

/-- A template as JSON text. -/
def template (t : Template) : Report :=
  [(Encode.document t.document).pretty]

/-- Entries in two columns, the second of which starts at one place. -/
def columns (entries : List (String × String)) : Report :=
  let width := (entries.map fun (left, _) => left.length).foldl max 0
  entries.map fun (left, right) =>
    "  " ++ left ++ Table.times (width + 2 - left.length) ' ' ++ right

end Report

end PlayDiagram
