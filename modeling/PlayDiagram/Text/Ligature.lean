import PlayDiagram.Text.CharWidth

/-!
# Letters that are drawn as one

Some scripts draw a letter and the one after it as a single shape, which takes fewer columns than
the two letters do.
-/

namespace PlayDiagram

/-- A letter, or a group of letters, that may be drawn as one with what stands before it. -/
inductive Ligating where
  /-- An Arabic alef, after a lam. -/
  | alef
  /-- A Hebrew lamed, joined to an alef. -/
  | lamed
  /-- A Buginese ya, joined to a vowel. -/
  | ya
  /-- A Buginese vowel with the ya that is joined to it, after an a. -/
  | vowelYa
  /-- A Tifinagh consonant, after a joiner. -/
  | tifinagh
  /-- The joiner of Tifinagh consonants and the second of them. -/
  | tifinaghTail
  /-- A tone letter of Lisu, after another. -/
  | lisuTone
  /-- An Old Turkic i, joined to a consonant. -/
  | orkhonI
  /-- A Khmer letter that is drawn below another one after a coeng. -/
  | coengLetter
  /-- A Kirat Rai e, after other vowels. -/
  | kiratE
  /-- A Kirat Rai ai, after an aa. -/
  | kiratAi
  deriving DecidableEq, Repr

namespace Ligating

/-- The Arabic letters of the joining group alef. -/
def isAlef (c : Char) : Bool :=
  inRanges [(0x622, 0x623), (0x625, 0x625), (0x627, 0x627), (0x671, 0x673), (0x675, 0x675),
    (0x773, 0x774), (0x870, 0x882)] c

/-- The Arabic letters of the joining group lam. -/
def isLam (c : Char) : Bool :=
  inRanges [(0x644, 0x644), (0x6b5, 0x6b8), (0x76a, 0x76a), (0x8a6, 0x8a6), (0x8c7, 0x8c7)] c

/-- The consonants of Tifinagh. -/
def isTifinagh (c : Char) : Bool :=
  inRanges [(0x2d31, 0x2d65), (0x2d6f, 0x2d6f)] c

/-- The tone letters of Lisu that stand first in a pair. -/
def isFirstTone (c : Char) : Bool :=
  inRanges [(0xa4f8, 0xa4fb)] c

/-- The tone letters of Lisu that stand second in a pair. -/
def isSecondTone (c : Char) : Bool :=
  inRanges [(0xa4fc, 0xa4fd)] c

/-- The Khmer letters that take no column of their own after a coeng. -/
def isCoengLetter (c : Char) : Bool :=
  inRanges [(0x1780, 0x1782), (0x1784, 0x1787), (0x1789, 0x178c), (0x178e, 0x1793),
    (0x1795, 0x1798), (0x179b, 0x179d), (0x17a0, 0x17a0), (0x17a2, 0x17a2), (0x17a7, 0x17a7),
    (0x17ab, 0x17ac), (0x17af, 0x17af)] c

/-- What a character by itself can be in a ligature with what stands before it. -/
def ofChar? (c : Char) : Option Ligating :=
  if isAlef c then some alef
  else if c = '\u05dc' then some lamed
  else if c = '\u1a10' then some ya
  else if isTifinagh c then some tifinagh
  else if isSecondTone c then some lisuTone
  else if c.toNat = 0x10c03 then some orkhonI
  else if isCoengLetter c then some coengLetter
  else if c.toNat = 0x16d67 then some kiratE
  else if c.toNat = 0x16d68 then some kiratAi
  else none

/-- The characters without columns that keep Arabic letters from joining: their `Joining_Type` is
not transparent. -/
def nonJoiningRanges : List CodeRange :=
  [(0x605, 0x605), (0x890, 0x891), (0x8e2, 0x8e2), (0x9be, 0x9be), (0x9d7, 0x9d7), (0xb3e, 0xb3e),
    (0xb57, 0xb57), (0xbbe, 0xbbe), (0xbd7, 0xbd7), (0xcc0, 0xcc0), (0xcc2, 0xcc2), (0xcc7, 0xcc8),
    (0xcca, 0xccb), (0xcd5, 0xcd6), (0xd3e, 0xd3e), (0xd4e, 0xd4e), (0xd57, 0xd57), (0xdcf, 0xdcf),
    (0xddf, 0xddf), (0x1160, 0x11ff), (0x1715, 0x1715), (0x1734, 0x1734), (0x180e, 0x180e),
    (0x1b35, 0x1b35), (0x1b3b, 0x1b3b), (0x1b3d, 0x1b3d), (0x1b43, 0x1b44), (0x1baa, 0x1baa),
    (0x1bf2, 0x1bf3), (0x200c, 0x200d), (0x2065, 0x2069), (0x302e, 0x302f), (0x3164, 0x3164),
    (0xa8fa, 0xa8fa), (0xa953, 0xa953), (0xa9c0, 0xa9c0), (0xd7b0, 0xd7c6), (0xd7cb, 0xd7fb),
    (0xffa0, 0xffa0), (0xfff0, 0xfff8), (0x111c0, 0x111c0), (0x111c2, 0x111c3), (0x11235, 0x11235),
    (0x1133e, 0x1133e), (0x1134d, 0x1134d), (0x11357, 0x11357), (0x113b8, 0x113b8),
    (0x113c2, 0x113c2), (0x113c5, 0x113c5), (0x113c7, 0x113c9), (0x113cf, 0x113cf),
    (0x113d1, 0x113d1), (0x114b0, 0x114b0), (0x114bd, 0x114bd), (0x115af, 0x115af),
    (0x116b6, 0x116b6), (0x11930, 0x11930), (0x1193d, 0x1193d), (0x1193f, 0x1193f),
    (0x11941, 0x11941), (0x11a84, 0x11a89), (0x11d46, 0x11d46), (0x11f02, 0x11f02),
    (0x11f41, 0x11f41), (0x16ff0, 0x16ff1), (0x1d165, 0x1d166), (0x1d16d, 0x1d172),
    (0xe0000, 0xe0000), (0xe0002, 0xe001f), (0xe0080, 0xe00ff), (0xe01f0, 0xe0fff)]

/-- Whether a character may stand between the letters of a ligature other than lam and alef: a mark
that is ignored when drawn. -/
def isIgnoredMark (c : Char) : Bool :=
  isCombining c && isIgnorable c && !inRanges [(0x200c, 0x200c), (0xe0020, 0xe007f)] c

/-- Whether a letter is composed with another only when the two are side by side. -/
def isAdjacentOnly (l : Ligating) : Bool :=
  l = kiratE || l = kiratAi

/-- Whether a character may stand between the letters of a ligature. -/
def passes (l : Ligating) (c : Char) : Bool :=
  if l = alef then charWidth c = 0 && !inRanges nonJoiningRanges c
  else !l.isAdjacentOnly && isIgnoredMark c

/-- Whether a joiner may stand between the letters of a ligature as a part of it. -/
def takesJoiner (l : Ligating) : Bool :=
  l ≠ alef && !l.isAdjacentOnly

/-- Draws a character as one with what stands after it: what that adds to the columns of the text,
and what the two can be in a further ligature.  Some ligatures need a joiner between the letters;
`joined` says that there is one. -/
def before? (l : Ligating) (joined : Bool) (c : Char) : Option (Int × Option Ligating) :=
  match l with
  | alef => if isLam c then some (0, none) else none
  | lamed => if joined ∧ c = '\u05d0' then some (0, none) else none
  | ya => if joined ∧ c = '\u1a17' then some (0, some vowelYa) else none
  | vowelYa => if c = '\u1a15' then some (0, none) else none
  | tifinagh =>
    if c = '\u2d7f' then some (1, some tifinaghTail)
    else if joined ∧ isTifinagh c then some (0, none)
    else none
  | tifinaghTail => if isTifinagh c then some (-1, none) else none
  | lisuTone => if isFirstTone c then some (0, none) else none
  | orkhonI => if joined ∧ c.toNat = 0x10c32 then some (0, none) else none
  | coengLetter => if c = '\u17d2' then some (-1, none) else none
  | kiratE =>
    if c.toNat = 0x16d63 ∨ c.toNat = 0x16d69 then some (0, none)
    else if c.toNat = 0x16d67 then some (0, some kiratAi)
    else if c.toNat = 0x16d68 then some (1, some kiratE)
    else none
  | kiratAi => if c.toNat = 0x16d63 then some (0, none) else none

end Ligating

end PlayDiagram
