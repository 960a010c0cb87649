import PlayDiagram.Json.Reader
import PlayDiagram.Play.Defect
import PlayDiagram.Wire.Decode

/-!
# Loading documents

A document is loaded from a JSON value, or from JSON text.  What is loaded is sound.
-/

namespace PlayDiagram

open Json (Value)

/-- Why a JSON value is refused as a document. -/
inductive Rejection where
  /-- It does not have the shape of a document. -/
  | malformed (fault : ShapeError)
  /-- It is a document, but not a sound one. -/
  | unsound (defect : Defect)

/-- The text of a rejection. -/
def Rejection.message : Rejection → String
  | malformed fault => s!"malformed document: {fault.message}"
  | unsound defect => defect.message

/-- Why a text is refused as a document. -/
inductive LoadError where
  /-- It is not JSON. -/
  | notJson (fault : Json.SyntaxError)
  /-- It is JSON, but no acceptable document. -/
  | rejected (reason : Rejection)

/-- The text of a load error. -/
def LoadError.message : LoadError → String
  | notJson fault => s!"invalid JSON: {fault.message}"
  | rejected reason => reason.message

namespace Document

/-- Loads a document from a JSON value. -/
def ofJson (v : Value) : Except Rejection (Document Float) :=
  match Decode.document v with
  | .error fault => .error (.malformed fault)
  | .ok d =>
    match d.validate with
    | .ok sound => .ok sound
    | .error defect => .error (.unsound defect)

/-- Loads a document from JSON text. -/
def ofText (text : String) : Except LoadError (Document Float) :=
  match Json.parse text with
  | .error fault => .error (.notJson fault)
  | .ok v =>
    match ofJson v with
    | .ok d => .ok d
    | .error reason => .error (.rejected reason)

/-- Loads a document, or takes the empty one where the value is refused. -/
def ofJsonOrEmpty (v : Value) : Document Float :=
  match ofJson v with
  | .ok d => d
  | .error _ => empty

end Document

end PlayDiagram
