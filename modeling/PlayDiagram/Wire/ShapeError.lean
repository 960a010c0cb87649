import PlayDiagram.Json.Value
import PlayDiagram.Number.Shortest
import PlayDiagram.Text.Quoted

/-!
# Values of the wrong shape

A JSON value from which a document is read may have any shape.  The first place where it is not
that of a document is reported as what was found there and what was expected.
-/

namespace PlayDiagram

open Json (Value)

/-- A JSON value as a report names it: arrays and objects without what they hold. -/
inductive Found where
  | null
  | bool (value : Bool)
  | integer (value : Int)
  | real (value : Float)
  | text (value : String)
  | sequence
  | map

namespace Found

/-- What a report names for a value. -/
def ofValue : Value → Found
  | .null => null
  | .bool b => bool b
  | .number (.integer n _ _) => integer n
  | .number (.real x _) => real x
  | .string s => text s
  | .array _ => sequence
  | .object _ => map

/-- The text of what was found. -/
def message : Found → String
  | null => "null"
  | bool b => s!"boolean `{b}`"
  | integer n => s!"integer `{n}`"
  | real x => "floating point `" ++ FloatFormat.data.render x ++ "`"
  | text s => "string " ++ quoted s
  | sequence => "sequence"
  | map => "map"

end Found

/-- Why a value does not have the expected shape. -/
inductive ShapeError where
  /-- A value of another type. -/
  | wrongType (found : Found) (expected : String)
  /-- A value of the right type that is none of those allowed. -/
  | wrongValue (found : Found) (expected : String)
  /-- A record lacks a field that it must have. -/
  | missingField (name : String)
  /-- A text that names none of the choices. -/
  | unknownName (name : String) (choices : List String)
  /-- A sequence with too few or too many items. -/
  | wrongLength (length : Nat) (expected : String)

namespace ShapeError

/-- A name between backticks. -/
def ticked (name : String) : String :=
  s!"`{name}`"

/-- A list of choices: two are joined by `or`, more follow `one of`. -/
def listChoices : List String → String
  | [a, b] => s!"{ticked a} or {ticked b}"
  | choices => "one of " ++ ", ".intercalate (choices.map ticked)

/-- The text of a shape error. -/
def message : ShapeError → String
  | wrongType found expected => s!"invalid type: {found.message}, expected {expected}"
  | wrongValue found expected => s!"invalid value: {found.message}, expected {expected}"
  | missingField name => s!"missing field {ticked name}"
  | unknownName name choices =>
    s!"unknown variant {ticked name}, expected {listChoices choices}"
  | wrongLength length expected => s!"invalid length {length}, expected {expected}"

end ShapeError

end PlayDiagram
