import PlayDiagram.Json.Value
import PlayDiagram.Number.Shortest

/-!
# JSON text

`Value.pretty` writes a value over several lines, each level two columns further in.  Only what
JSON cannot hold in a string is escaped.
-/

namespace PlayDiagram.Json

/-- A character as it stands in a JSON string. -/
def writtenChar (c : Char) : String :=
  match c with
  | '"' => "\\\""
  | '\\' => "\\\\"
  | '\x08' => "\\b"
  | '\x0c' => "\\f"
  | '\n' => "\\n"
  | '\r' => "\\r"
  | '\t' => "\\t"
  | c =>
    if c.toNat < 0x20 then
      let digits := Nat.toDigits 16 c.toNat
      "\\u" ++ String.ofList (List.replicate (4 - digits.length) '0' ++ digits)
    else c.toString

/-- A JSON string. -/
def writtenString (s : String) : String :=
  "\"" ++ String.join (s.toList.map writtenChar) ++ "\""

/-- A JSON number. -/
def Number.text : Number → String
  | integer n _ _ => toString n
  | real x _ => FloatFormat.data.render x

/-- A line break and the columns of a level. -/
def lineBreak (level : Nat) : String :=
  "\n" ++ String.ofList (List.replicate (2 * level) ' ')

/-- Items on lines of their own between an opening and a closing text; without items the two stand
together. -/
def enclosed (opening closing : String) (level : Nat) (items : List String) : String :=
  if items.isEmpty then opening ++ closing
  else
    opening ++ lineBreak (level + 1) ++ ("," ++ lineBreak (level + 1)).intercalate items ++
      lineBreak level ++ closing

mutual

/-- A value that starts at a level. -/
def Value.prettyAt (level : Nat) : Value → String
  | .null => "null"
  | .bool b => if b then "true" else "false"
  | .number n => n.text
  | .string s => writtenString s
  | .array items => enclosed "[" "]" level (prettyItems (level + 1) items)
  | .object members => enclosed "\x7b" "\x7d" level (prettyMembers (level + 1) members)

/-- The texts of items at a level. -/
def prettyItems (level : Nat) : List Value → List String
  | [] => []
  | v :: rest => v.prettyAt level :: prettyItems level rest

/-- The texts of members at a level. -/
def prettyMembers (level : Nat) : List (String × Value) → List String
  | [] => []
  | (key, v) :: rest =>
    (writtenString key ++ ": " ++ v.prettyAt level) :: prettyMembers level rest

end

/-- A value over several lines. -/
def Value.pretty (v : Value) : String :=
  v.prettyAt 0

end PlayDiagram.Json
