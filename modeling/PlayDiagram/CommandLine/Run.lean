import PlayDiagram.CommandLine.Arguments
import PlayDiagram.CommandLine.Report
import PlayDiagram.Text.ControlSequence
import PlayDiagram.Wire.Load

/-!
# Running a command

A call is its arguments and the files that it may read.  It ends in a report or an error, and so in
an outcome: an exit code and the texts for the two output streams.  Reading files is left to the
caller, as a function from paths to contents.
-/

namespace PlayDiagram

/-- Why a file cannot be read as text. -/
inductive FileError where
  /-- There is no such file. -/
  | notFound
  /-- It may not be read. -/
  | denied
  /-- A part of its path is a file and no directory. -/
  | notDirectory
  /-- It is a directory. -/
  | isDirectory
  /-- The path, or a part of it, is too long. -/
  | nameTooLong
  /-- Its bytes are no text. -/
  | notText
  /-- The machine gives another reason. -/
  | other (message : String)
  deriving DecidableEq, Repr

/-- The text of a file error. -/
def FileError.message : FileError → String
  | notFound => "No such file or directory (os error 2)"
  | denied => "Permission denied (os error 13)"
  | notDirectory => "Not a directory (os error 20)"
  | isDirectory => "Is a directory (os error 21)"
  | nameTooLong => "File name too long (os error 36)"
  | notText => "stream did not contain valid UTF-8"
  | other message => message

/-- Why a call ends without a report. -/
inductive CommandError where
  /-- The arguments cannot be read. -/
  | usage (error : UsageError)
  /-- A file cannot be read. -/
  | file (path : String) (error : FileError)
  /-- A file holds no acceptable document. -/
  | load (path : String) (error : LoadError)
  /-- The play has no such instant. -/
  | playback (error : PlaybackError Float)
  /-- No template is named. -/
  | noTemplate
  /-- There is no such template. -/
  | unknownTemplate (name : String)

namespace CommandError

/-- The text of an error. -/
def message : CommandError → String
  | usage error => error.message
  | file path error => s!"cannot read {path}: {error.message}"
  | load path error => s!"{path}: {error.message}"
  | playback error => error.message
  | noTemplate => "specify a template id or pass --list"
  | unknownTemplate name =>
    s!"unknown template \"{name}\". Available: " ++ ", ".intercalate Report.templateNames

end CommandError

/-! ## Explanations -/

namespace Report

/-- What the program is for. -/
def about : String :=
  "Playbook: validate, inspect, and animate basketball play diagrams"

/-- What the word that asks for an explanation does, in a sentence. -/
def aboutHelp : String :=
  "Print this message or the help of the given subcommand(s)"

/-- The entry of a parameter that is given by name. -/
def optionEntry (o : Parameter) : String × String :=
  let short := o.shortName?.elim "    " fun c => s!"-{c}, "
  (short ++ o.display, o.about)

/-- Explains the program. -/
def programHelp : Report :=
  [about, "", "Usage: pb <COMMAND>", "", "Commands:"] ++
  columns ((Verb.all.map fun v => (v.word, v.about)) ++
    [(helpWord, aboutHelp)]) ++
  ["", "Options:"] ++ columns ([Parameter.help, Parameter.version].map optionEntry)

/-- Explains a command. -/
def verbHelp (v : Verb) : Report :=
  [v.about, "", "Usage: " ++ v.usage, "", "Arguments:"] ++
  columns [(v.positional.display, v.positional.about)] ++
  ["", "Options:"] ++ columns (v.options.map optionEntry)

/-- Explains how to ask for an explanation. -/
def helpHelp : Report :=
  [aboutHelp, "", "Usage: pb help [COMMAND]...", "", "Arguments:"] ++
  columns [("[COMMAND]...", "Print help for the subcommand(s)")]

/-- Explains a topic. -/
def help : Topic → Report
  | .program => programHelp
  | .verb v => verbHelp v
  | .help => helpHelp

/-- Tells the version. -/
def version : Option Verb → Report
  | some v => [s!"pb-{v.word} 0.1.0"]
  | none => ["pb 0.1.0"]

end Report

/-! ## Commands -/

/-- Reads the text of a file. -/
abbrev FileReader := String → Except FileError String

/-- Loads the document of a file. -/
def loadFile (read : FileReader) (path : String) : Except CommandError (Document Float) :=
  match read path with
  | .error e => .error (.file path e)
  | .ok text =>
    match Document.ofText text with
    | .ok d => .ok d
    | .error e => .error (.load path e)

/-- Reports one instant of a document's transition. -/
def reportFrame (d : Document Float) (index : Nat) (ms : Float) (preset : SpeedPreset) :
    Except CommandError Report :=
  let play := d.compile ⟨{}, preset.speed⟩
  match play.transitions[index]? with
  | some t => .ok (Report.frame t ms)
  | none => .error (.playback (.phaseOutOfRange index play.transitions.length))

/-- Reports a template, or the names of all. -/
def reportTemplate (name? : Option String) (list : Bool) : Except CommandError Report :=
  if list then .ok Report.templateNames
  else
    match name? with
    | none => .error .noTemplate
    | some name =>
      match Template.ofName? name with
      | some t => .ok (Report.template t)
      | none => .error (.unknownTemplate name)

/-- Runs a command with its settings. -/
def runVerb (read : FileReader) (verb : Verb) (s : Settings) : Except CommandError Report :=
  let path := s.file.getD ""
  let preset := s.speed.getD .normal
  match verb with
  | .check => (loadFile read path).map (Report.check path)
  | .warnings => (loadFile read path).map Report.warnings
  | .timeline => (loadFile read path).map (Report.timeline preset)
  | .frame => do
    let d ← loadFile read path
    reportFrame d (s.transition.getD 0) (s.instant.getD 0) preset
  | .template => reportTemplate s.templateName s.list

/-- Carries out a call. -/
def perform (read : FileReader) (arguments : List String) : Except CommandError Report :=
  match readRequest arguments with
  | .error e => .error (.usage e)
  | .ok (.run verb settings) => runVerb read verb settings
  | .ok (.help topic) => .ok (Report.help topic)
  | .ok (.version verb?) => .ok (Report.version verb?)

/-! ## Outcomes -/

/-- What a call leaves behind. -/
structure Outcome where
  code : Nat
  stdout : String
  stderr : String
  deriving DecidableEq, Repr

namespace Outcome

/-- Lines as one text, each with its end. -/
def unlines (lines : List String) : String :=
  String.join (lines.map (· ++ "\n"))

/-- Puts after the pieces of a message a hint at the explanation.  The hint begins in the last
piece. -/
def withHint : List String → List String
  | [] => []
  | [last] => [last ++ "\n\nFor more information, try '", "--help", "'.\n"]
  | piece :: rest => piece :: withHint rest

/-- The text for wrong usage.  Control sequences are left out of each piece by itself, so that one
which the user did not finish takes nothing from the pieces after it. -/
def usageText (e : UsageError) : String :=
  "error: " ++ String.join ((withHint e.pieces).map withoutControls)

/-- The outcome of a call: success has the code 0, wrong usage the code 2, and any other error the
code 1.  A call without a command is answered by an explanation. -/
def ofResult : Except CommandError Report → Outcome
  | .ok report => { code := 0, stdout := unlines report, stderr := "" }
  | .error (.usage .noCommand) => { code := 2, stdout := "", stderr := unlines Report.programHelp }
  | .error (.usage e) => { code := 2, stdout := "", stderr := usageText e }
  | .error e => { code := 1, stdout := "", stderr := unlines ["error: " ++ e.message] }

end Outcome

/-- The outcome of a call. -/
def runCommand (read : FileReader) (arguments : List String) : Outcome :=
  Outcome.ofResult (perform read arguments)

end PlayDiagram
