/-!
# Faults in JSON text
-/

namespace PlayDiagram.Json

/-- Why a text is no JSON value. -/
inductive SyntaxError where
  /-- The text ends where a value is expected, or inside a word or a number. -/
  | unfinishedValue
  /-- The text ends inside an array. -/
  | unfinishedArray
  /-- The text ends inside an object. -/
  | unfinishedObject
  /-- The text ends inside a string. -/
  | unfinishedString
  /-- No value starts with this character. -/
  | valueExpected
  /-- A word that is not `null`, `true` or `false`. -/
  | wordExpected
  /-- A member's name is not followed by a colon. -/
  | colonExpected
  /-- An item of an array is followed by neither a comma nor the end. -/
  | arrayCommaExpected
  /-- A member of an object is followed by neither a comma nor the end. -/
  | objectCommaExpected
  /-- A comma before the end of an array or an object. -/
  | trailingComma
  /-- Something follows the value. -/
  | trailingCharacters
  /-- A member's name is no string. -/
  | keyExpected
  /-- A number with a superfluous zero or without a digit. -/
  | invalidNumber
  /-- A number that no finite double comes near. -/
  | numberOutOfRange
  /-- A control character stands in a string. -/
  | controlCharacter
  /-- An unknown escape. -/
  | invalidEscape
  /-- The first half of a surrogate pair is not followed by an escape. -/
  | unpairedEscape
  /-- Half of a surrogate pair stands alone. -/
  | loneSurrogate
  /-- Arrays and objects are nested too deeply. -/
  | tooDeep
  deriving DecidableEq, Repr

namespace SyntaxError

/-- The text of a fault. -/
def message : SyntaxError → String
  | unfinishedValue => "EOF while parsing a value"
  | unfinishedArray => "EOF while parsing a list"
  | unfinishedObject => "EOF while parsing an object"
  | unfinishedString => "EOF while parsing a string"
  | valueExpected => "expected value"
  | wordExpected => "expected ident"
  | colonExpected => "expected `:`"
  | arrayCommaExpected => "expected `,` or `]`"
  | objectCommaExpected => "expected `,` or `\x7d`"
  | trailingComma => "trailing comma"
  | trailingCharacters => "trailing characters"
  | keyExpected => "key must be a string"
  | invalidNumber => "invalid number"
  | numberOutOfRange => "number out of range"
  | controlCharacter => "control character (\\u0000-\\u001F) found while parsing a string"
  | invalidEscape => "invalid escape"
  | unpairedEscape => "unexpected end of hex escape"
  | loneSurrogate => "lone leading surrogate in hex escape"
  | tooDeep => "recursion limit exceeded"

end SyntaxError

end PlayDiagram.Json
