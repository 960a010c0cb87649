import PlayDiagram.Number.Literal

/-!
# Numbers typed by a user

A double may be typed with or without a sign, a point and an exponent, or as a word for an
infinity or for no number.  It is the double nearest to what is typed.  An index is typed in
digits, with or without a plus sign.
-/

namespace PlayDiagram

/-- Why a typed text is no number. -/
inductive TypedNumberError where
  /-- Nothing is typed for a double. -/
  | emptyFloat
  /-- Not the form of a double. -/
  | invalidFloat
  /-- Nothing is typed for an index. -/
  | emptyIndex
  /-- A character of an index is no digit. -/
  | invalidIndex
  /-- The index does not fit in 64 bits. -/
  | indexTooLarge
  deriving DecidableEq, Repr

/-- The text of a fault. -/
def TypedNumberError.message : TypedNumberError → String
  | emptyFloat => "cannot parse float from empty string"
  | invalidFloat => "invalid float literal"
  | emptyIndex => "cannot parse integer from empty string"
  | invalidIndex => "invalid digit found in string"
  | indexTooLarge => "number too large to fit in target type"

/-- Splits a sign off: whether it is a minus, and the rest. -/
def splitSign : List Char → Bool × List Char
  | '-' :: rest => (true, rest)
  | '+' :: rest => (false, rest)
  | cs => (false, cs)

/-- The exponent that a text writes from its mark to its end; no text writes the exponent zero. -/
def typedExponent? : List Char → Option Int
  | [] => some 0
  | mark :: rest =>
    let (negative, digits) := splitSign rest
    if mark.toLower = 'e' ∧ digits ≠ [] ∧ digits.all Char.isDigit then
      some (if negative then -(numeral digits : Int) else numeral digits)
    else none

/-- The double that a text without a sign writes in digits. -/
def typedDecimal? (cs : List Char) : Option Float :=
  let whole := cs.takeWhile Char.isDigit
  let (fraction, rest) :=
    match cs.dropWhile Char.isDigit with
    | '.' :: after => (after.takeWhile Char.isDigit, after.dropWhile Char.isDigit)
    | after => ([], after)
  if whole.isEmpty && fraction.isEmpty then none
  else
    (typedExponent? rest).map fun exponent =>
      nearestDouble (numeral (whole ++ fraction)) (exponent - fraction.length)

/-- The double that a text without a sign writes, in digits or as a word. -/
def typedMagnitude? (cs : List Char) : Option Float :=
  let word := String.ofList (cs.map Char.toLower)
  if word = "inf" ∨ word = "infinity" then some (1 / 0)
  else if word = "nan" then some (0 / 0)
  else typedDecimal? cs

/-- The double that a text writes. -/
def typedFloat (s : String) : Except TypedNumberError Float :=
  if s.isEmpty then .error .emptyFloat
  else
    let (negative, cs) := splitSign s.toList
    match typedMagnitude? cs with
    | some x => .ok (if negative then -x else x)
    | none => .error .invalidFloat

/-- The index that digits write after those that wrote `n`.  Of two faults the one further left is
reported. -/
def typedDigits (n : Nat) : List Char → Except TypedNumberError Nat
  | [] => .ok n
  | c :: rest =>
    let next := 10 * n + digitValue c
    if !c.isDigit then .error .invalidIndex
    else if next < 2 ^ 64 then typedDigits next rest
    else .error .indexTooLarge

/-- The index that a text writes. -/
def typedIndex (s : String) : Except TypedNumberError Nat :=
  match s.toList with
  | [] => .error .emptyIndex
  | ['+'] => .error .invalidIndex
  | '+' :: digits => typedDigits 0 digits
  | digits => typedDigits 0 digits

end PlayDiagram
