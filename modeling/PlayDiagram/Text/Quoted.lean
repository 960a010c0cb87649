import PlayDiagram.Text.Combining
import PlayDiagram.Text.Printable

/-!
# Quoted text

A text in double quotes, on one line and with every character recognisable: what does not show by
itself is written as an escape.
-/

namespace PlayDiagram

/-- A character as it stands in a quoted text.  One that combines is escaped, since it would be
drawn on the character before it. -/
def quotedChar (c : Char) : String :=
  match c with
  | '\x00' => "\\0"
  | '\t' => "\\t"
  | '\r' => "\\r"
  | '\n' => "\\n"
  | '\\' => "\\\\"
  | '"' => "\\\""
  | _ =>
    if c.toNat < 0x7f && 0x20 ≤ c.toNat then c.toString
    else if isCombining c || !isPrintable c then
      "\\u\x7b" ++ String.ofList (Nat.toDigits 16 c.toNat) ++ "\x7d"
    else c.toString

/-- The text in double quotes. -/
def quoted (s : String) : String :=
  "\"" ++ String.join (s.toList.map quotedChar) ++ "\""

end PlayDiagram
