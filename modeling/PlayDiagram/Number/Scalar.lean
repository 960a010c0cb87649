/-!
# Scalars

Court coordinates and playback times are written once, for any kind of number that has the
operations of this class.  The running program measures in `Float`; laws of playback that hold
without rounding are stated in exact numbers (see `PlayDiagram.Number.Exact`).

The two tests `isNaN` and `isFinite` let one definition say what happens to values that are no
numbers: every rule that treats them apart asks for them by name.
-/

namespace PlayDiagram

/-- Numbers that coordinates and times are measured in. -/
class Scalar (α : Type) extends
    Zero α, One α, Add α, Sub α, Mul α, Div α, LT α, LE α, BEq α where
  /-- The value of a word of 32 bits, which every kind of scalar holds exactly. -/
  ofWord : UInt32 → α
  /-- Whether the value is no number at all. -/
  isNaN : α → Bool
  /-- Whether the value is a number, and not infinite. -/
  isFinite : α → Bool
  /-- Strict comparison can be tested. -/
  decideLT : DecidableLT α
  /-- Comparison can be tested. -/
  decideLE : DecidableLE α
  /-- A total order that refines `≤`: it also ranks values that `≤` leaves equal or unrelated. -/
  totalLE : α → α → Bool

namespace Scalar

variable {α : Type} [Scalar α]

instance : DecidableLT α := Scalar.decideLT

instance : DecidableLE α := Scalar.decideLE

/-- The nearest value to `x` in the interval from `low` to `high`.  A value that is no number
compares with nothing and is returned as it is. -/
def clamp (low high x : α) : α :=
  let raised := if x < low then low else x
  if high < raised then high else raised

/-- The smaller of two values, a value that is no number counting as absent. -/
def lesser (x y : α) : α :=
  if isNaN x then y else if isNaN y then x else if y < x then y else x

/-- The larger of two comparable values. -/
def greater (x y : α) : α :=
  if x < y then y else x

end Scalar

end PlayDiagram
