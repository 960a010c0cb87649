import PlayDiagram.Text.CodeRange

/-!
# Control sequences

A terminal takes some characters for orders and does not show them: the control characters, and the
sequences that an escape starts.  What a text shows is what is left without them.  The text is read
from left to right, with a `Control` for the sequence that is being read.
-/

namespace PlayDiagram

/-- The sequence that is being read, and how far. -/
inductive Control where
  /-- No sequence. -/
  | none
  /-- An escape. -/
  | escape
  /-- An escape and intermediate characters. -/
  | intermediate
  /-- The parameters of a control sequence. -/
  | parameters
  /-- A command to the operating system, which a bell ends. -/
  | command
  /-- The start of a device control string. -/
  | deviceStart
  /-- The parameters of a device control string. -/
  | deviceParameters
  /-- The intermediate characters of a device control string. -/
  | deviceIntermediate
  /-- A string that only a terminator ends. -/
  | string
  deriving DecidableEq, Repr

/-- Whether a character breaks the line or leaves room: it shows by where the next one stands. -/
def isLayout (c : Char) : Bool :=
  c = '\t' || c = '\n' || c = '\x0c' || c = '\r'

/-- Whether a character shows outside of control sequences. -/
def isShown (c : Char) : Bool :=
  isLayout c || (0x20 ≤ c.toNat && c ≠ '\x7f')

/-- Whether one of the bytes of a character, in UTF-8 and after the first, is the one that
terminates strings. -/
def hasTerminator (c : Char) : Bool :=
  ((String.utf8EncodeChar c).drop 1).contains 0x9c

namespace Control

/-- The sequence after a character that does not show.  An escape always starts a new one, and the
characters for cancelling and substitution end any. -/
def next (s : Control) (c : Char) : Control :=
  if c = '\x1b' then escape
  else if c = '\x18' ∨ c = '\x1a' then none
  else
    match s with
    | none => none
    | escape =>
      if c = '[' then parameters
      else if c = ']' then command
      else if c = 'P' then deviceStart
      else if c = 'X' ∨ c = '^' ∨ c = '_' then string
      else if inRanges [(0x20, 0x2f)] c then intermediate
      else if inRanges [(0x30, 0x7e)] c then none
      else escape
    | intermediate => if inRanges [(0x30, 0x7e)] c then none else intermediate
    | parameters => if inRanges [(0x40, 0x7e)] c then none else parameters
    | command => if c = '\x07' then none else command
    | deviceStart =>
      if c = ':' ∨ inRanges [(0x40, 0x7e)] c then string
      else if inRanges [(0x20, 0x2f)] c then deviceIntermediate
      else if inRanges [(0x30, 0x3f)] c then deviceParameters
      else deviceStart
    | deviceParameters =>
      if c = ':' ∨ inRanges [(0x3c, 0x7e)] c then string
      else if inRanges [(0x20, 0x2f)] c then deviceIntermediate
      else deviceParameters
    | deviceIntermediate => if inRanges [(0x30, 0x7e)] c then string else deviceIntermediate
    | string => if hasTerminator c then none else string

/-- Whether a line break shows even in the middle of the sequence. -/
def yieldsToLayout (s : Control) : Bool :=
  s = escape || s = intermediate || s = parameters

/-- The characters of a text that show.  In a sequence that a line break interrupts, all that shows
outside of sequences is shown, until a control character stands there: with it the sequence goes
on.  A character outside of ASCII ends an interrupted sequence. -/
def shown (s : Control) (interrupted : Bool) : List Char → List Char
  | [] => []
  | c :: rest =>
    if (s = none ∨ interrupted) ∧ isShown c then
      c :: shown (if c.toNat < 0x80 then s else none) interrupted rest
    else if s.yieldsToLayout ∧ isLayout c then c :: shown s true rest
    else shown (s.next c) false rest

end Control

/-- The text without control characters and control sequences. -/
def withoutControls (s : String) : String :=
  String.ofList (Control.shown .none false s.toList)

end PlayDiagram
