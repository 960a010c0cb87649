import PlayDiagram.CommandLine.Parameter

/-!
# Reading the arguments

The arguments of a command are read from left to right.  A value that stands apart from its
parameter is checked only when the next argument has been recognised, or at the end; so of two
faulty arguments the later one is reported if it is not even known.
-/

namespace PlayDiagram

/-- Why arguments cannot be read. -/
inductive UsageError where
  /-- There is no command. -/
  | noCommand
  /-- The word is no command. -/
  | unknownCommand (word : String)
  /-- The command takes no such argument. -/
  | unexpectedArgument (argument : String)
  /-- A parameter without a value has one. -/
  | unexpectedValue (value : String) (parameter : Parameter)
  /-- A parameter lacks its value. -/
  | missingValue (parameter : Parameter)
  /-- The value of a parameter is not acceptable. -/
  | invalidValue (value : String) (parameter : Parameter) (reason : String)
  /-- A parameter is given twice. -/
  | repeated (parameter : Parameter)
  /-- Parameters are missing that must be given. -/
  | missing (parameters : List Parameter)

namespace UsageError

/-- The text of a usage error in pieces.  What the user typed and the names of parameters are pieces
of their own, except in the reason of an invalid value. -/
def pieces : UsageError → List String
  | noCommand => ["a command is required"]
  | unknownCommand word => ["unrecognized subcommand '", word, "'"]
  | unexpectedArgument argument => ["unexpected argument '", argument, "' found"]
  | unexpectedValue value parameter =>
    ["unexpected value '", value, "' for '", parameter.display, "' found; no more were expected"]
  | missingValue parameter =>
    ["a value is required for '", parameter.display, "' but none was supplied"]
  | invalidValue value parameter reason =>
    ["invalid value '", value, "' for '", parameter.display, s!"': {reason}"]
  | repeated parameter =>
    ["the argument '", parameter.display, "' cannot be used multiple times"]
  | missing parameters =>
    ["the following required arguments were not provided:" ++
      String.join (parameters.map fun p => "\n  " ++ p.display)]

/-- The text of a usage error. -/
def message (e : UsageError) : String :=
  String.join e.pieces

end UsageError

/-- What can be explained. -/
inductive Topic where
  /-- The program. -/
  | program
  /-- A command. -/
  | verb (v : Verb)
  /-- How to ask for an explanation. -/
  | help

/-- What the user asks for. -/
inductive Request where
  /-- To run a command. -/
  | run (verb : Verb) (settings : Settings)
  /-- To explain a topic. -/
  | help (topic : Topic)
  /-- To tell the version of the program. -/
  | version (verb? : Option Verb)

/-- What reading one argument leads to: the next state, or a request that ends the reading. -/
abbrev Step (σ : Type) := Except UsageError (σ ⊕ Request)

/-- How far the arguments of a command have been read. -/
structure Progress where
  settings : Settings := {}
  /-- The parameter that was read last, if it is not set yet, and its value if it has been read. -/
  pending : Option (Parameter × Option String) := none
  /-- Whether the parameter that is given by its place has been given. -/
  placed : Bool := false

namespace Settings

/-- Checks a value that is read from a text. -/
def checked {β : Type} (parameter : Parameter) (value : String)
    (result : Except String β) : Except UsageError β :=
  match result with
  | .ok b => .ok b
  | .error reason => .error (.invalidValue value parameter reason)

/-- Refuses a parameter that is set already. -/
def once (parameter : Parameter) (given : Bool) : Except UsageError Unit :=
  if given then .error (.repeated parameter) else .ok ()

/-- Sets a parameter to a value. -/
def set (s : Settings) (parameter : Parameter) (value : String) : Except UsageError Settings :=
  match parameter with
  | .file =>
    if value.isEmpty then .error (.missingValue .file) else .ok { s with file := some value }
  | .templateName => .ok { s with templateName := some value }
  | .transition => do
    once parameter s.transition.isSome
    let index ← checked parameter value ((typedIndex value).mapError (·.message))
    return { s with transition := some index }
  | .instant => do
    once parameter s.instant.isSome
    let ms ← checked parameter value ((typedFloat value).mapError (·.message))
    return { s with instant := some ms }
  | .speed => do
    once parameter s.speed.isSome
    let preset ← checked parameter value ((SpeedPreset.ofText value).mapError (·.message))
    return { s with speed := some preset }
  | .list => do
    once parameter s.list
    return { s with list := true }
  | .help | .version => .ok s

/-- Whether a parameter is set. -/
def has (s : Settings) : Parameter → Bool
  | .file => s.file.isSome
  | .templateName => s.templateName.isSome
  | .transition => s.transition.isSome
  | .instant => s.instant.isSome
  | .speed => s.speed.isSome
  | .list => s.list
  | .help | .version => false

end Settings

namespace Progress

/-- Sets the parameter that is pending. -/
def settle (p : Progress) : Except UsageError Progress :=
  match p.pending with
  | none => .ok p
  | some (parameter, none) => .error (.missingValue parameter)
  | some (parameter, some value) => do
    let settings ← p.settings.set parameter value
    return { p with settings, pending := none }

/-- Sets a parameter to a value that is attached to it. -/
def attach (p : Progress) (parameter : Parameter) (value : String) : Except UsageError Progress := do
  let p ← p.settle
  let settings ← p.settings.set parameter value
  return { p with settings }

/-- Reads a parameter that has no value. -/
def flag (verb : Verb) (p : Progress) (parameter : Parameter) : Step Progress :=
  match parameter with
  | .help => p.settle.map fun _ => .inr (.help (.verb verb))
  | .version => p.settle.map fun _ => .inr (.version (some verb))
  | _ => (p.attach parameter "").map .inl

/-- Starts to read a parameter whose value stands apart. -/
def await (p : Progress) (parameter : Parameter) : Except UsageError Progress := do
  let p ← p.settle
  return { p with pending := some (parameter, none) }

/-- Reads an argument that is given by its place. -/
def place (verb : Verb) (p : Progress) (argument : String) : Except UsageError Progress :=
  if p.placed then .error (.unexpectedArgument argument)
  else do
    let p ← p.settle
    return { p with pending := some (verb.positional, some argument), placed := true }

/-- Reads a long parameter; `value?` is what follows an equals sign. -/
def long (verb : Verb) (p : Progress) (name : String) (value? : Option String) : Step Progress :=
  match verb.options.find? fun o => o.longName? = some name with
  | none => .error (.unexpectedArgument ("--" ++ name))
  | some parameter =>
    match parameter.takesValue, value? with
    | true, some value => (p.attach parameter value).map .inl
    | true, none => (p.await parameter).map .inl
    | false, some value => .error (.unexpectedValue value parameter)
    | false, none => p.flag verb parameter

/-- Reads a group of short parameters.  The first one that takes a value takes the rest of the
group, less an equals sign, or the next argument. -/
def short (verb : Verb) (p : Progress) : List Char → Step Progress
  | [] => .ok (.inl p)
  | c :: rest =>
    match verb.options.find? fun o => o.shortName? = some c with
    | none => .error (.unexpectedArgument ("-" ++ c.toString))
    | some parameter =>
      if parameter.takesValue then
        match rest with
        | [] => (p.await parameter).map .inl
        | '=' :: value => (p.attach parameter (String.ofList value)).map .inl
        | value => (p.attach parameter (String.ofList value)).map .inl
      else
        match p.flag verb parameter with
        | .ok (.inl next) => next.short verb rest
        | other => other

end Progress

/-- Splits the text after two dashes at its first equals sign. -/
def splitLong (cs : List Char) : String × Option String :=
  let name := String.ofList (cs.takeWhile (· ≠ '='))
  match cs.dropWhile (· ≠ '=') with
  | [] => (name, none)
  | _ :: value => (name, some (String.ofList value))

/-- What an argument looks like. -/
inductive Shape where
  /-- Two dashes: all that follow are given by their place. -/
  | divider
  | long (name : String) (value? : Option String)
  | short (group : List Char)
  | plain

/-- The shape of an argument; a single dash is plain. -/
def Shape.of (argument : String) : Shape :=
  match argument.toList with
  | ['-', '-'] => divider
  | '-' :: '-' :: rest => let (name, value?) := splitLong rest; long name value?
  | '-' :: c :: rest => short (c :: rest)
  | _ => plain

/-- Reads arguments that are all given by their place. -/
def readPlaces (verb : Verb) (p : Progress) : List String → Except UsageError Progress
  | [] => .ok p
  | argument :: rest => do readPlaces verb (← p.place verb argument) rest

/-- Reads the arguments of a command. -/
def readArguments (verb : Verb) (p : Progress) : List String → Step Progress
  | [] => .ok (.inl p)
  | argument :: rest =>
    let goOn : Step Progress → Step Progress
      | .ok (.inl next) => readArguments verb next rest
      | other => other
    match Shape.of argument with
    | .divider => (readPlaces verb p rest).map .inl
    | .long name value? => goOn (p.long verb name value?)
    | .short group => goOn (p.short verb group)
    | .plain =>
      match p.pending with
      | some (parameter, none) =>
        goOn (.ok (.inl { p with pending := some (parameter, some argument) }))
      | _ => goOn ((p.place verb argument).map .inl)

/-- Reads what follows the word of a command. -/
def readCommand (verb : Verb) (arguments : List String) : Except UsageError Request := do
  match ← readArguments verb {} arguments with
  | .inr request => return request
  | .inl p =>
    let p ← p.settle
    match verb.required.filter fun parameter => !p.settings.has parameter with
    | [] => return .run verb p.settings
    | missing => .error (.missing missing)

/-- The topic of a word. -/
def Topic.ofWord? (word : String) : Option Topic :=
  if word = helpWord then some .help else (Verb.ofWord? word).map .verb

/-- Reads the words after `help`: the topic to explain, if any.  A topic has no topics below it. -/
def readHelp : List String → Except UsageError Request
  | [] => .ok (.help .program)
  | word :: rest =>
    match Topic.ofWord? word, rest with
    | some topic, [] => .ok (.help topic)
    | some _, next :: _ => .error (.unknownCommand next)
    | none, _ => .error (.unknownCommand word)

/-- Reads an argument before any command: it can only ask for an explanation or the version. -/
def readGlobal (name : String) (parameter? : Option Parameter) (value? : Option String) :
    Except UsageError Request :=
  match parameter?, value? with
  | some parameter, some value => .error (.unexpectedValue value parameter)
  | some .help, none => .ok (.help .program)
  | some .version, none => .ok (.version none)
  | _, _ => .error (.unexpectedArgument name)

/-- Reads all arguments of a call. -/
def readRequest : List String → Except UsageError Request
  | [] => .error .noCommand
  | argument :: rest =>
    let globals : List Parameter := [.help, .version]
    match Shape.of argument with
    | .divider =>
      match rest with
      | [] => .error .noCommand
      | word :: _ =>
        if (Topic.ofWord? word).isSome then .error (.unexpectedArgument word)
        else .error (.unknownCommand word)
    | .long name value? =>
      readGlobal ("--" ++ name) (globals.find? fun o => o.longName? = some name) value?
    | .short group =>
      let letter := group.headD '-'
      readGlobal ("-" ++ letter.toString) (globals.find? fun o => o.shortName? = some letter) none
    | .plain =>
      match Verb.ofWord? argument with
      | some verb => readCommand verb rest
      | none => if argument = helpWord then readHelp rest else .error (.unknownCommand argument)

end PlayDiagram
