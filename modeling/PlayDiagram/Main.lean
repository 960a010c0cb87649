import PlayDiagram.CommandLine.Run

/-!
# The program

Runs a call on the files of the machine.
-/

open PlayDiagram

/-- Why a file could not be read, from what the machine reports. -/
def fileErrorOf : IO.Error → FileError
  | .noFileOrDirectory .. => .notFound
  | .inappropriateType _ code _ => if code = 20 then .notDirectory else .isDirectory
  | .permissionDenied .. => .denied
  | e => .other (toString e)

/-- Reads a file as text. -/
def readText (path : String) : IO (Except FileError String) := do
  try
    let bytes ← IO.FS.readBinFile path
    return (String.fromUTF8? bytes).elim (.error .notText) .ok
  catch e =>
    return .error (fileErrorOf e)

/-- The file that a call reads, if it reads one. -/
def fileOf? (arguments : List String) : Option String :=
  match readRequest arguments with
  | .ok (.run _ settings) => settings.file
  | _ => none

/-- Runs a call and ends with its exit code. -/
def main (arguments : List String) : IO UInt32 := do
  let content ←
    match fileOf? arguments with
    | some path => readText path
    | none => pure (.error .notFound)
  let outcome := runCommand (fun _ => content) arguments
  IO.print outcome.stdout
  IO.eprint outcome.stderr
  return outcome.code.toUInt32
