import PlayDiagram.Text.Emoji
import PlayDiagram.Text.Ligature

/-!
# Columns of a text

How many columns of a terminal a text takes.  That is the sum over its characters, except where
some of them are drawn as one: a carriage return with its line feed, an emoji that is composed of
several characters, a character with a variation selector, and letters in a ligature.

The text is read from its end.  What a character adds to the columns depends on what stands after
it, and only on what a `Follower` tells about that.
-/

namespace PlayDiagram

/-- What stands after a character, as far as it can be drawn as one with it. -/
inductive Follower where
  /-- Nothing that matters. -/
  | other
  | lineFeed
  /-- A skin tone. -/
  | modifier
  /-- One letter of a flag. -/
  | flagLetter
  /-- Several letters of flags. -/
  | flagLetters
  | emoji
  /-- A joiner and an emoji. -/
  | joinedEmoji
  /-- A keycap before a joined emoji. -/
  | joinedKeycap
  /-- A letter of a flag before a joined emoji. -/
  | joinedFlagLetter
  /-- An even number of letters of flags before a joined emoji. -/
  | joinedFlags
  /-- A larger odd number of letters of flags before a joined emoji. -/
  | joinedFlagsLetter
  /-- Some tag letters and the end of the tags, before a joined emoji. -/
  | tagLetters (count : Nat)
  /-- Some tag digits, perhaps with letters after them, and the end of the tags, before a joined
  emoji. -/
  | tagDigits (count : Nat)
  /-- A letter that can be in a ligature; `joined` if a joiner stands before it. -/
  | letter (ligating : Ligating) (joined : Bool)
  deriving DecidableEq, Repr

/-- A mark that chooses between variants of the character before it. -/
inductive VariantSelector where
  /-- Chooses a text variant. -/
  | text
  /-- Chooses an emoji variant. -/
  | emoji
  /-- Chooses a fullwidth variant of a quotation mark. -/
  | fullwidth
  deriving DecidableEq, Repr

/-- The selector that a character is. -/
def VariantSelector.ofChar? (c : Char) : Option VariantSelector :=
  if c = '\ufe0e' then some text
  else if c = '\ufe0f' then some emoji
  else if c = '\ufe01' then some fullwidth
  else none

/-- The joiner, which asks for the characters around it to be drawn as one. -/
def joiner : Char :=
  '\u200d'

/-- Whether a character is a curly quotation mark. -/
def isCurlyQuote (c : Char) : Bool :=
  c = '\u2018' || c = '\u2019' || c = '\u201c' || c = '\u201d'

namespace Follower

/-- What a ligature tells about its letters. -/
def ofLigating? (l? : Option Ligating) : Follower :=
  match l? with
  | some l => letter l false
  | none => other

/-- What a character by itself is for the one before it. -/
def ofChar (c : Char) : Follower :=
  if c = '\n' then lineFeed
  else if Emoji.isModifier c then modifier
  else if Emoji.isFlagLetter c then flagLetter
  else if Emoji.isPresented c then emoji
  else ofLigating? (Ligating.ofChar? c)

/-- Composes an emoji of a character and what stands after it: what that adds to the columns, and
what the two are for the character before. -/
def composeEmoji? (f : Follower) (c : Char) : Option (Int × Follower) :=
  match f with
  | modifier =>
    if Emoji.isModifierBase c then some (0, emoji)
    else if c = joiner then some (0, joinedEmoji)
    else none
  | flagLetter => if Emoji.isFlagLetter c then some (1, flagLetters) else none
  | flagLetters =>
    if Emoji.isFlagLetter c then some (1, flagLetters)
    else if c = joiner then some (0, joinedEmoji)
    else none
  | emoji => if c = joiner then some (0, joinedEmoji) else none
  | joinedEmoji =>
    if c = Emoji.keycap then some (0, joinedKeycap)
    else if Emoji.isFlagLetter c then some (1, joinedFlagLetter)
    else if Emoji.isModifier c then some (0, modifier)
    else if c = Emoji.tagEnd then some (0, tagLetters 0)
    else if Emoji.isPresented c then some (0, emoji)
    else none
  | joinedFlagLetter => if Emoji.isFlagLetter c then some (-1, joinedFlags) else none
  | joinedFlags =>
    if Emoji.isFlagLetter c then some (3, joinedFlagsLetter)
    else if c = joiner then some (0, joinedEmoji)
    else none
  | joinedFlagsLetter =>
    if Emoji.isFlagLetter c then some (-1, joinedFlags)
    else if c = joiner then some (0, joinedEmoji)
    else none
  | tagLetters n =>
    if n < 6 ∧ Emoji.isTagLetter c then some (0, tagLetters (n + 1))
    else if n < 5 ∧ Emoji.isTagDigit c then some (0, tagDigits 1)
    else if 3 ≤ n ∧ c = Emoji.blackFlag then some (0, emoji)
    else none
  | tagDigits n =>
    if n < 3 ∧ Emoji.isTagDigit c then some (0, tagDigits (n + 1))
    else if n = 3 ∧ c = Emoji.blackFlag then some (0, emoji)
    else none
  | other | lineFeed | joinedKeycap | letter .. => none

/-- Draws a character as one with what stands after it, if that can be done. -/
def compose? (f : Follower) (c : Char) : Option (Int × Follower) :=
  match f with
  | lineFeed => if c = '\r' then some (0, other) else none
  | letter l joined =>
    if l.takesJoiner ∧ c = joiner then some (0, letter l true)
    else if l.passes c then some (0, f)
    else (l.before? joined c).map fun (width, l?) => (width, ofLigating? l?)
  | _ => f.composeEmoji? c

/-- What is left of a follower when a selector that has no effect stands before it: a ligature goes
on over it, unless its letters have to be side by side. -/
def afterSelector : Follower → Follower
  | letter l joined => if l.isAdjacentOnly then other else letter l joined
  | _ => other

end Follower

/-- What stands after a character: a follower, and before that perhaps selectors.  Only those are
kept that can have an effect. -/
structure Following where
  follower : Follower := .other
  selectors : List VariantSelector := []
  deriving DecidableEq, Repr

namespace Following

/-- Puts a selector before what follows.  Of an emoji that is joined to another one, the emoji
selector is part.  Otherwise only the selector next to a character has an effect on it; but in front
of a letter of a ligature the text selector and the fullwidth selector keep theirs over others. -/
def select (a : Following) (s : VariantSelector) : Following :=
  match a.follower, a.selectors, s with
  | .joinedEmoji, [], .emoji | .joinedKeycap, [], .emoji => ⟨a.follower, [s]⟩
  | f, ss, _ =>
    match f.afterSelector with
    | .letter l joined => ⟨.letter l joined, s :: ss.filter fun t => t ≠ s && t ≠ .emoji⟩
    | f => ⟨f, [s]⟩

/-- The columns that the selectors give the character before them, if one has an effect, and what
the character then is for the one before. -/
def selected? (a : Following) (c : Char) : Option (Int × Follower) :=
  if a.selectors.contains .emoji && Emoji.hasEmojiVariant c then
    some (if a.follower = .joinedEmoji ∨ a.follower = .joinedKeycap then 0 else 2, .emoji)
  else if a.selectors.contains .text && Emoji.hasNarrowVariant c then some (1, .other)
  else if a.selectors.contains .fullwidth && isCurlyQuote c then some (2, .other)
  else none

/-- The follower by itself. -/
def unselected (a : Following) : Follower :=
  if a.selectors.isEmpty then a.follower else a.follower.afterSelector

/-- Puts a character before what stands after it: what the character adds to the columns, and what
the one before it then has after it. -/
def put (c : Char) (a : Following) : Int × Following :=
  match a.selected? c with
  | some (width, f) => (width, ⟨f, []⟩)
  | none =>
    match VariantSelector.ofChar? c with
    | some s => (0, a.select s)
    | none =>
      match a.unselected.compose? c with
      | some (width, f) => (width, ⟨f, []⟩)
      | none => (charWidth c, ⟨.ofChar c, []⟩)

end Following

/-- The columns that a list of characters takes, and what it is for a character before it. -/
def columnsOf : List Char → Int × Following
  | [] => (0, {})
  | c :: rest =>
    let (columns, after) := columnsOf rest
    let (width, here) := after.put c
    (columns + width, here)

/-- The columns that a text takes. -/
def textWidth (s : String) : Nat :=
  (columnsOf s.toList).1.toNat

end PlayDiagram
