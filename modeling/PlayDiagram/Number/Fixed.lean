import PlayDiagram.Number.Binary64
import PlayDiagram.Number.Decimal

/-!
# A fixed number of decimal places

The exact value of a double is rounded to a number of decimal places, a half going to the even
neighbour.  The sign of a negative value is kept also where the digits are all zero.
-/

namespace PlayDiagram

-- Powers mean the ones of core, whatever else is in scope.
attribute [local instance (2000)] instPowNat

/-- The quotient rounded to the nearest whole number, a half to the even one. -/
def roundHalfEven (numerator denominator : Nat) : Nat :=
  let quotient := numerator / denominator
  let twice := 2 * (numerator % denominator)
  if twice < denominator then quotient
  else if denominator < twice then quotient + 1
  else quotient + quotient % 2

/-- The nearest multiple of `10 ^ -places` to `significand * 2 ^ exponent`, in such units. -/
def roundToPlaces (places significand : Nat) (exponent : Int) : Nat :=
  let scaled := significand * 10 ^ places
  if 0 ≤ exponent then scaled * 2 ^ exponent.natAbs
  else roundHalfEven scaled (2 ^ exponent.natAbs)

/-- Writes a double with the given number of decimal places. -/
def fixedText (places : Nat) (x : Float) : String :=
  match Binary64.ofFloat x with
  | .nan => "NaN"
  | .infinite negative => if negative then "-inf" else "inf"
  | .finite negative significand exponent =>
    let decimal : Decimal := ⟨roundToPlaces places significand exponent, -places⟩
    (if negative then "-" else "") ++ decimal.positional false

end PlayDiagram
