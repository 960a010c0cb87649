import PlayDiagram.Number.Scalar

/-!
# Doubles as scalars, and as exact values

`Float` measures coordinates and times when the program runs.  `Binary64` names what a double
stands for exactly, so that its text can be chosen in whole-number arithmetic.
-/

namespace PlayDiagram

-- Powers mean the ones of core, whatever else is in scope.
attribute [local instance (2000)] instPowNat

/-- The rank of a double in the total order of its bit patterns: negative values fall from `-0.0`
downwards, the others rise from `0.0`. -/
def totalRank (x : Float) : Int :=
  let bits := x.toBits.toNat
  if bits < 2 ^ (63 : Nat) then bits else 2 ^ (63 : Nat) - 1 - (bits : Int)

instance : Scalar Float where
  zero := 0
  one := 1
  ofWord := UInt32.toFloat
  isNaN := Float.isNaN
  isFinite := Float.isFinite
  decideLT := inferInstance
  decideLE := inferInstance
  totalLE x y := decide (totalRank x ≤ totalRank y)

/-- What a double stands for. -/
inductive Binary64 where
  /-- No number. -/
  | nan
  /-- An infinity. -/
  | infinite (negative : Bool)
  /-- The value `significand * 2 ^ exponent`, negated if `negative`. -/
  | finite (negative : Bool) (significand : Nat) (exponent : Int)
  deriving DecidableEq, Repr

namespace Binary64

/-- Reads the three fields of a double: a sign bit, eleven bits of exponent and 52 of fraction. -/
def ofFloat (x : Float) : Binary64 :=
  let bits := x.toBits.toNat
  let negative := decide (2 ^ (63 : Nat) ≤ bits)
  let exponent : Nat := bits / 2 ^ (52 : Nat) % 2 ^ (11 : Nat)
  let fraction := bits % 2 ^ (52 : Nat)
  if exponent = 2047 then
    if fraction = 0 then infinite negative else nan
  else if exponent = 0 then
    finite negative fraction (-1074)
  else
    finite negative (2 ^ (52 : Nat) + fraction) (exponent - 1075)

end Binary64

end PlayDiagram
