import PlayDiagram.Number.FloatText
import PlayDiagram.Playback.Speed

/-!
# Commands and their parameters

What a user can type: the commands, the parameters of each, and how the parameters are spelled.
-/

namespace PlayDiagram

/-- The commands of the program. -/
inductive Verb where
  | check
  | warnings
  | timeline
  | frame
  | template
  deriving DecidableEq, Repr

/-- The parameters of commands. -/
inductive Parameter where
  /-- The file of a document. -/
  | file
  /-- The name of a template. -/
  | templateName
  /-- The index of a transition. -/
  | transition
  /-- A time in a transition. -/
  | instant
  /-- A playback speed. -/
  | speed
  /-- Asks for the names of the templates. -/
  | list
  /-- Asks for an explanation. -/
  | help
  /-- Asks for the version. -/
  | version
  deriving DecidableEq, Repr

namespace Verb

/-- All commands, in the order in which they are listed. -/
def all : List Verb :=
  [check, warnings, timeline, frame, template]

/-- The word for a command. -/
def word : Verb → String
  | check => "check"
  | warnings => "warnings"
  | timeline => "timeline"
  | frame => "frame"
  | template => "template"

/-- The command of a word. -/
def ofWord? (word : String) : Option Verb :=
  all.find? fun v => v.word = word

/-- What a command does, in a sentence. -/
def about : Verb → String
  | check => "Validate a play document and summarize it"
  | warnings => "List advisory warnings for every phase"
  | timeline => "Show the compiled schedule of every transition"
  | frame => "Show object positions and the ball owner at one instant"
  | template => "Print a canned play document as JSON"

/-- The parameter that is given by its place. -/
def positional : Verb → Parameter
  | template => .templateName
  | _ => .file

/-- The parameters that are given by name. -/
def options : Verb → List Parameter
  | check | warnings => [.help, .version]
  | timeline => [.speed, .help, .version]
  | frame => [.transition, .instant, .speed, .help, .version]
  | template => [.list, .help, .version]

/-- The parameters that must be given. -/
def required : Verb → List Parameter
  | check | warnings | timeline => [.file]
  | frame => [.instant, .file]
  | template => []

/-- The form of a call. -/
def usage : Verb → String
  | check => "pb check <FILE>"
  | warnings => "pb warnings <FILE>"
  | timeline => "pb timeline [OPTIONS] <FILE>"
  | frame => "pb frame [OPTIONS] --at <AT> <FILE>"
  | template => "pb template [OPTIONS] [ID]"

end Verb

/-- The word that asks for an explanation in the place of a command. -/
def helpWord : String :=
  "help"

namespace Parameter

/-- The long name of a parameter that is given by name. -/
def longName? : Parameter → Option String
  | file | templateName => none
  | transition => some "transition"
  | instant => some "at"
  | speed => some "speed"
  | list => some "list"
  | help => some "help"
  | version => some "version"

/-- The short name of a parameter that is given by name. -/
def shortName? : Parameter → Option Char
  | file | templateName => none
  | transition => some 't'
  | instant => some 'a'
  | speed => some 's'
  | list => some 'l'
  | help => some 'h'
  | version => some 'V'

/-- Whether a parameter that is given by name is followed by a value. -/
def takesValue : Parameter → Bool
  | transition | instant | speed => true
  | _ => false

/-- A parameter as messages name it. -/
def display : Parameter → String
  | file => "<FILE>"
  | templateName => "[ID]"
  | transition => "--transition <TRANSITION>"
  | instant => "--at <AT>"
  | speed => "--speed <SPEED>"
  | list => "--list"
  | help => "--help"
  | version => "--version"

/-- What a parameter means. -/
def about : Parameter → String
  | file => "Play document (JSON)"
  | templateName => "Template id (see --list)"
  | transition => "Transition index (the departing phase) [default: 0]"
  | instant => "Milliseconds into the transition"
  | speed => "Playback speed: 0.5, 1, 1.5, or 2 [default: 1]"
  | list => "List the available template ids"
  | help => "Print help"
  | version => "Print version"

end Parameter

/-- The value of each parameter of a command, as far as it is given. -/
structure Settings where
  file : Option String := none
  templateName : Option String := none
  transition : Option Nat := none
  instant : Option Float := none
  speed : Option SpeedPreset := none
  list : Bool := false

end PlayDiagram
