import PlayDiagram.Number.Binary64

/-!
# Numerals read as doubles

There are two readings of a decimal numeral.  `scaleByTen` multiplies a significand of 64 bits by
one power of ten, which is quick and may miss the nearest double by a step.  `nearestDouble`
rounds the exact value once.
-/

namespace PlayDiagram

/-- The value of a decimal digit. -/
def digitValue (c : Char) : Nat :=
  c.toNat - '0'.toNat

/-- The whole number that a list of digits writes. -/
def numeral (digits : List Char) : Nat :=
  digits.foldl (fun n c => 10 * n + digitValue c) 0

/-- Appends digits to a number for as long as it fits in 64 bits; returns the digits left over
beside it. -/
def absorbDigits : Nat → List Char → Nat × List Char
  | n, [] => (n, [])
  | n, c :: rest =>
    let next := 10 * n + digitValue c
    if next < 2 ^ 64 then absorbDigits next rest else (n, c :: rest)

/-- The double nearest to a power of ten. -/
def powerOfTen (n : Nat) : Float :=
  Float.ofScientific 1 false n

/-- Multiplies by a power of ten in one step, or in steps of `10 ^ -308` where a power would be too
small for a double.  A power beyond `10 ^ 308` has no double: the result is then absent, unless
`x` is zero. -/
def scaleByTen (x : Float) (exponent : Int) : Option Float :=
  if 308 < exponent then
    if x == 0 then some x else none
  else if 0 ≤ exponent then
    some (x * powerOfTen exponent.natAbs)
  else if -308 ≤ exponent then
    some (x / powerOfTen exponent.natAbs)
  else if x == 0 then
    some x
  else
    scaleByTen (x / powerOfTen 308) (exponent + 308)
termination_by exponent.natAbs

/-- The double nearest to `coefficient * 10 ^ exponent`, an infinity if that is too large.  Far
outside the range of doubles the answer is known without computing the power. -/
def nearestDouble (coefficient : Nat) (exponent : Int) : Float :=
  let leading := (Nat.toDigits 10 coefficient).length + exponent
  if coefficient = 0 ∨ leading < -400 then 0
  else if 400 < leading then 1 / 0
  else Float.ofScientific coefficient (exponent < 0) exponent.natAbs

end PlayDiagram
