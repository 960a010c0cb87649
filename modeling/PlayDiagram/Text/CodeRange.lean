/-!
# Ranges of code points

A property of characters is given as a table of ranges of code points.
-/

namespace PlayDiagram

/-- A first and a last code point. -/
abbrev CodeRange := Nat × Nat

/-- Whether a character's code point lies in one of the ranges. -/
def inRanges (ranges : List CodeRange) (c : Char) : Bool :=
  ranges.any fun (first, last) => first ≤ c.toNat && c.toNat ≤ last

end PlayDiagram
