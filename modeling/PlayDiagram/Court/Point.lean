import PlayDiagram.Number.Fixed

/-!
# Points on the court

The court is a square of side 1000, whatever its size on a screen.  Points may lie outside it;
`clamped` brings them onto it.
-/

namespace PlayDiagram

/-- A point in court coordinates. -/
structure Point (α : Type) where
  x : α
  y : α
  deriving DecidableEq, BEq, Repr

namespace Point

variable {α : Type} [Scalar α]

/-- The side of the court. -/
def courtSize : α :=
  Scalar.ofWord 1000

/-- The point the fraction `t` of the way from one point to another.  Both ends are reproduced
exactly: up to zero, or when `t` is no number, it is the first, and from one on the second. -/
def lerp (start finish : Point α) (t : α) : Point α :=
  if Scalar.isNaN t ∨ t ≤ 0 then start
  else if 1 ≤ t then finish
  else ⟨start.x + (finish.x - start.x) * t, start.y + (finish.y - start.y) * t⟩

/-- The nearest point of the court, each coordinate by itself. -/
def clamped (p : Point α) : Point α :=
  ⟨Scalar.clamp 0 courtSize p.x, Scalar.clamp 0 courtSize p.y⟩

/-- Whether the point lies on the court, its edges included. -/
def isOnCourt (p : Point α) : Bool :=
  0 ≤ p.x && p.x ≤ courtSize && 0 ≤ p.y && p.y ≤ courtSize

/-- Both coordinates with one decimal place, in parentheses. -/
def text (p : Point Float) : String :=
  "(" ++ fixedText 1 p.x ++ ", " ++ fixedText 1 p.y ++ ")"

end Point

end PlayDiagram
