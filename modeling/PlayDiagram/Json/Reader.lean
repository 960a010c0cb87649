import PlayDiagram.Json.SyntaxError
import PlayDiagram.Json.Value
import PlayDiagram.Number.Literal

/-!
# JSON values read from text

A reader takes what it needs from the front of a text and returns the rest together with a proof
that the rest is shorter; that is why every loop here ends.  Nesting is bounded by a number of
levels, so that reading a value is recursion on that number.

`parse` reads one value that fills a text.  Of two members of one name the later one counts.
-/

namespace PlayDiagram.Json

-- Sums start from the zero of core, whatever else is in scope.
attribute [local instance (2000)] Zero.ofOfNat0

/-- The rest of a text of `n` characters after at least one was taken. -/
abbrev Rest (n : Nat) := { rest : List Char // rest.length < n }

/-- The outcome of reading from the front of a text of `n` characters. -/
abbrev Reading (α : Type) (n : Nat) := Except SyntaxError (α × Rest n)

/-- A reader of one kind of item. -/
abbrev Reader (α : Type) := (s : List Char) → Reading α s.length

/-- A rest of a shorter text, seen as a rest of a longer one. -/
def Rest.widen {m n : Nat} (r : Rest m) (h : m ≤ n) : Rest n :=
  ⟨r.1, Nat.lt_of_lt_of_le r.2 h⟩

/-- A reading of a shorter text, seen as one of a longer text. -/
def Reading.widen {α : Type} {m n : Nat} (r : Reading α m) (h : m ≤ n) : Reading α n :=
  match r with
  | .ok (a, rest) => .ok (a, rest.widen h)
  | .error e => .error e

/-- The four characters that may stand between the parts of a value. -/
def isSpace (c : Char) : Bool :=
  c = ' ' || c = '\n' || c = '\t' || c = '\r'

/-- The text from its first character that is no space. -/
def skipSpace (s : List Char) : List Char :=
  s.dropWhile isSpace

theorem length_dropWhile_le (p : Char → Bool) (s : List Char) :
    (s.dropWhile p).length ≤ s.length :=
  (List.dropWhile_suffix p).length_le

/-- Reads an item after the spaces before it. -/
def Reader.spaced {α : Type} (item : Reader α) : Reader α := fun s =>
  (item (skipSpace s)).widen (length_dropWhile_le isSpace s)

/-! ## Words and numbers -/

/-- Takes the remaining letters of a word from the front of a text. -/
def readWord : List Char → (s : List Char) → Except SyntaxError (Rest (s.length + 1))
  | [], s => .ok ⟨s, by omega⟩
  | _ :: _, [] => .error .unfinishedValue
  | letter :: word, c :: s =>
    if c = letter then (readWord word s).map (·.widen (by simp)) else .error .wordExpected

/-- A numeral as written: the digits of its whole part, those after the point if there is one, and
the exponent if there is one. -/
structure Numeral where
  whole : List Char
  fraction : Option (List Char)
  exponent : Option Int

/-- The number that a numeral writes.  Without a point or an exponent it is an integer, if it fits
in 64 bits and is not a negative zero.  Any other numeral is a double: of its digits those count
that fit in 64 bits together. -/
def Numeral.value (negative : Bool) (n : Numeral) : Except SyntaxError Number :=
  let whole := numeral n.whole
  let signed : Int := if negative then -(whole : Int) else whole
  let double : Unit → Except SyntaxError Number := fun _ =>
    let (leading, dropped) := absorbDigits 0 n.whole
    let fraction := n.fraction.getD []
    let (significand, ignored) := absorbDigits leading fraction
    let exponent : Int := n.exponent.getD 0 + dropped.length - (fraction.length - ignored.length)
    match (scaleByTen significand.toUInt64.toFloat exponent).bind fun x =>
        Number.ofFloat? (if negative then -x else x) with
    | some number => .ok number
    | none => .error .numberOutOfRange
  if n.fraction.isNone && n.exponent.isNone && !(negative && whole = 0) then
    match Number.ofInt? signed with
    | some number => .ok number
    | none => double ()
  else double ()

/-- Takes one or more digits from the front of a text. -/
def readDigits (s : List Char) : Reading (List Char) s.length :=
  match s with
  | [] => .error .unfinishedValue
  | c :: rest =>
    if c.isDigit then
      .ok (c :: rest.takeWhile Char.isDigit,
        ⟨rest.dropWhile Char.isDigit, by
          have := length_dropWhile_le Char.isDigit rest
          simp only [List.length_cons]
          omega⟩)
    else .error .invalidNumber

/-- Takes the digits of a whole part: a zero stands alone. -/
def readWhole (s : List Char) : Reading (List Char) s.length :=
  match s with
  | '0' :: c :: rest =>
    if c.isDigit then .error .invalidNumber
    else .ok (['0'], ⟨c :: rest, by simp⟩)
  | s => readDigits s

/-- Takes a point and the digits after it, if a point is next. -/
def readFraction (s : List Char) :
    Except SyntaxError (Option (List Char) × Rest (s.length + 1)) :=
  match s with
  | '.' :: rest => do
    let (digits, after) ← readDigits rest
    return (some digits, after.widen (by simp only [List.length_cons]; omega))
  | s => .ok (none, ⟨s, by omega⟩)

/-- Takes the sign of an exponent, if one is next: whether it is a minus, and the rest. -/
def exponentSign (s : List Char) : Bool × { rest : List Char // rest.length ≤ s.length } :=
  match s with
  | '-' :: rest => (true, ⟨rest, by simp⟩)
  | '+' :: rest => (false, ⟨rest, by simp⟩)
  | s => (false, ⟨s, Nat.le_refl _⟩)

/-- Takes an exponent, if its mark is next. -/
def readExponent (s : List Char) :
    Except SyntaxError (Option Int × Rest (s.length + 1)) :=
  match s with
  | [] => .ok (none, ⟨[], by simp⟩)
  | c :: rest =>
    if c = 'e' ∨ c = 'E' then do
      let (negative, unsigned) := exponentSign rest
      let (digits, after) ← readDigits unsigned.1
      let size : Int := numeral digits
      return (some (if negative then -size else size),
        after.widen (by have := unsigned.2; simp only [List.length_cons]; omega))
    else .ok (none, ⟨c :: rest, by simp⟩)

/-- Takes a number whose sign has been taken. -/
def readNumber (negative : Bool) (s : List Char) : Reading Number s.length := do
  let (whole, s₁) ← readWhole s
  let (fraction, s₂) ← readFraction s₁.1
  let (exponent, s₃) ← readExponent s₂.1
  let number ← Numeral.value negative ⟨whole, fraction, exponent⟩
  return (number, ⟨s₃.1, by have := s₁.2; have := s₂.2; have := s₃.2; omega⟩)

/-! ## Strings -/

/-- The value of a hexadecimal digit. -/
def hexValue? (c : Char) : Option Nat :=
  if '0' ≤ c ∧ c ≤ '9' then some (c.toNat - 48)
  else if 'a' ≤ c ∧ c ≤ 'f' then some (c.toNat - 87)
  else if 'A' ≤ c ∧ c ≤ 'F' then some (c.toNat - 55)
  else none

/-- Takes four hexadecimal digits, of one byte each.  A text with fewer than four bytes left is
unfinished whatever they are. -/
def readHex (s : List Char) : Reading Nat s.length :=
  match s with
  | a :: b :: c :: d :: rest =>
    match hexValue? a, hexValue? b, hexValue? c, hexValue? d with
    | some a, some b, some c, some d =>
      .ok (((a * 16 + b) * 16 + c) * 16 + d, ⟨rest, by simp only [List.length_cons]; omega⟩)
    | _, _, _, _ => .error .invalidEscape
  | few =>
    if 4 ≤ (few.map Char.utf8Size).sum then .error .invalidEscape else .error .unfinishedString

/-- Takes the second half of a surrogate pair, an escape of its own. -/
def readLowSurrogate (s : List Char) : Reading Nat s.length :=
  match s with
  | [] => .error .unfinishedString
  | ['\\'] => .error .unfinishedString
  | '\\' :: 'u' :: rest => do
    let (low, after) ← readHex rest
    if 0xdc00 ≤ low && low ≤ 0xdfff then
      return (low, after.widen (by simp only [List.length_cons]; omega))
    else .error .loneSurrogate
  | _ => .error .unpairedEscape

/-- Takes the digits of a `\u` escape; a character beyond the first 65536 is a surrogate pair. -/
def readUnicode (s : List Char) : Reading Char s.length := do
  let (high, s₁) ← readHex s
  if 0xdc00 ≤ high && high ≤ 0xdfff then .error .loneSurrogate
  else if 0xd800 ≤ high && high ≤ 0xdbff then
    let (low, s₂) ← readLowSurrogate s₁.1
    return (Char.ofNat (0x10000 + (high - 0xd800) * 0x400 + (low - 0xdc00)),
      s₂.widen (Nat.le_of_lt s₁.2))
  else return (Char.ofNat high, s₁)

/-- Takes what follows the backslash of an escape. -/
def readEscape (s : List Char) : Reading Char s.length :=
  match s with
  | [] => .error .unfinishedString
  | c :: rest =>
    let plain : Char → Reading Char (rest.length + 1) := fun c => .ok (c, ⟨rest, by omega⟩)
    match c with
    | '"' => plain '"'
    | '\\' => plain '\\'
    | '/' => plain '/'
    | 'b' => plain '\x08'
    | 'f' => plain '\x0c'
    | 'n' => plain '\n'
    | 'r' => plain '\r'
    | 't' => plain '\t'
    | 'u' => (readUnicode rest).widen (by simp)
    | _ => .error .invalidEscape

/-- Takes the characters of a string and its closing quote. -/
def readCharacters (s : List Char) : Reading (List Char) s.length :=
  match s with
  | [] => .error .unfinishedString
  | '"' :: rest => .ok ([], ⟨rest, by simp⟩)
  | '\\' :: rest => do
    let (c, s₁) ← readEscape rest
    let (cs, s₂) ← readCharacters s₁.1
    return (c :: cs, s₂.widen (by have := s₁.2; simp only [List.length_cons]; omega))
  | c :: rest =>
    if c.toNat < 0x20 then .error .controlCharacter
    else do
      let (cs, s₁) ← readCharacters rest
      return (c :: cs, s₁.widen (by simp))
termination_by s.length
decreasing_by
  · have := s₁.2
    simp only [List.length_cons]
    omega
  · simp

/-- Takes a string whose opening quote has been taken. -/
def readString (s : List Char) : Reading String s.length := do
  let (cs, rest) ← readCharacters s
  return (String.ofList cs, rest)

/-! ## Arrays and objects -/

/-- What encloses items: the character that ends them, and the faults of a text that stops, or does
not go on with a comma, after an item. -/
structure Enclosure where
  close : Char
  unfinished : SyntaxError
  commaExpected : SyntaxError

/-- Takes the rest of the items, each after a comma, and the end. -/
def readMore {α : Type} (e : Enclosure) (item : Reader α) (s : List Char) :
    Reading (List α) s.length :=
  match h : skipSpace s with
  | [] => .error e.unfinished
  | c :: rest =>
    have shorter : rest.length < s.length := by
      have := length_dropWhile_le isSpace s
      rw [show s.dropWhile isSpace = c :: rest from h, List.length_cons] at this
      omega
    if c = e.close then .ok ([], ⟨rest, shorter⟩)
    else if c = ',' then
      if (skipSpace rest).head? = some e.close then .error .trailingComma
      else do
        let (a, s₁) ← item rest
        let (as, s₂) ← readMore e item s₁.1
        return (a :: as, s₂.widen (by have := s₁.2; omega))
    else .error e.commaExpected
termination_by s.length
decreasing_by
  have := s₁.2
  omega

/-- Takes the items after an opening character, and the end. -/
def readItems {α : Type} (e : Enclosure) (item : Reader α) (s : List Char) :
    Reading (List α) s.length :=
  match h : skipSpace s with
  | [] => .error e.unfinished
  | c :: rest =>
    have shorter : rest.length < s.length := by
      have := length_dropWhile_le isSpace s
      rw [show s.dropWhile isSpace = c :: rest from h, List.length_cons] at this
      omega
    if c = e.close then .ok ([], ⟨rest, shorter⟩)
    else do
      let (a, s₁) ← item s
      let (as, s₂) ← readMore e item s₁.1
      return (a :: as, s₂.widen (Nat.le_of_lt s₁.2))

/-- Takes a member: its name, a colon and its value. -/
def readMember (value : Reader Value) : Reader (String × Value) :=
  Reader.spaced fun s =>
    match s with
    | [] => .error .unfinishedValue
    | '"' :: rest => do
      let (key, s₁) ← readString rest
      match h : skipSpace s₁.1 with
      | [] => .error .unfinishedObject
      | ':' :: after =>
        let (v, s₂) ← value after
        return ((key, v), s₂.widen (by
          have := length_dropWhile_le isSpace s₁.1
          rw [show s₁.1.dropWhile isSpace = ':' :: after from h] at this
          have := s₁.2
          simp only [List.length_cons] at *
          omega))
      | _ :: _ => .error .colonExpected
    | _ :: _ => .error .keyExpected

/-- The enclosure of an array's items. -/
def arrayEnclosure : Enclosure := ⟨']', .unfinishedArray, .arrayCommaExpected⟩

/-- The enclosure of an object's members. -/
def objectEnclosure : Enclosure := ⟨'}', .unfinishedObject, .objectCommaExpected⟩

/-- Members in order of their first appearance, each with the last value given to it. -/
def collectMembers (members : List (String × Value)) : List (String × Value) :=
  members.foldl (fun collected (key, value) => setMember key value collected) []

/-- Takes a value; `inner?` reads the values inside it, if it may hold any. -/
def readValueWith (inner? : Option (Reader Value)) : Reader Value :=
  Reader.spaced fun s =>
    match s with
    | [] => .error .unfinishedValue
    | c :: rest =>
      let word (letters : List Char) (v : Value) : Reading Value (rest.length + 1) :=
        (readWord letters rest).map fun r => (v, r)
      match c with
      | 'n' => word ['u', 'l', 'l'] .null
      | 't' => word ['r', 'u', 'e'] (.bool true)
      | 'f' => word ['a', 'l', 's', 'e'] (.bool false)
      | '"' => do
        let (text, s₁) ← readString rest
        return (.string text, s₁.widen (by simp))
      | '-' => do
        let (n, s₁) ← readNumber true rest
        return (.number n, s₁.widen (by simp))
      | '[' =>
        match inner? with
        | none => .error .tooDeep
        | some inner => do
          let (items, s₁) ← readItems arrayEnclosure inner rest
          return (.array items, s₁.widen (by simp))
      | '{' =>
        match inner? with
        | none => .error .tooDeep
        | some inner => do
          let (members, s₁) ← readItems objectEnclosure (readMember inner) rest
          return (.object (collectMembers members), s₁.widen (by simp))
      | c =>
        if c.isDigit then do
          let (n, s₁) ← readNumber false (c :: rest)
          return (.number n, s₁)
        else .error .valueExpected

/-- Takes a value that holds at most the given number of levels of arrays and objects. -/
def readValue : (levels : Nat) → Reader Value
  | 0 => readValueWith none
  | levels + 1 => readValueWith (some (readValue levels))

/-- The levels of arrays and objects that a text may have. -/
def maxLevels : Nat := 127

/-- Reads a text that holds one value and nothing else. -/
def parse (text : String) : Except SyntaxError Value := do
  let (value, rest) ← readValue maxLevels text.toList
  match skipSpace rest.1 with
  | [] => return value
  | _ :: _ => .error .trailingCharacters

end PlayDiagram.Json
