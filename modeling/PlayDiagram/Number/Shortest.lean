import PlayDiagram.Number.Binary64
import PlayDiagram.Number.Decimal

/-!
# The shortest decimal that reads back

A finite double is written with the fewest digits that still round to it; of two such decimals of
that length, with the nearer one, and at equal distance as the format's `Tie` says.  All decisions
are taken in whole numbers: the double, and the two ends of the interval of reals that round to it,
are multiples of one power of ten.
-/

namespace PlayDiagram

-- Powers mean the ones of core, whatever else is in scope.
attribute [local instance (2000)] instPowNat

/-- Which of two equally near decimals is taken. -/
inductive Tie where
  /-- The larger one. -/
  | up
  /-- The one whose last digit is even. -/
  | even

/-- Whether the rule takes `lower + 1` instead of `lower` when both are equally near. -/
def Tie.takesUpper (tie : Tie) (lower : Nat) : Bool :=
  match tie with
  | .up => true
  | .even => lower % 2 = 1

/-- A value between the ends of the interval of reals that round to it, all three counted in units
of `10 ^ unit`. -/
structure RoundingInterval where
  low : Nat
  value : Nat
  high : Nat
  /-- Whether the ends themselves round to the value. -/
  closed : Bool
  unit : Int

namespace RoundingInterval

/-- The interval around `significand * 2 ^ exponent`.  Its ends lie half a step away, except below
a power of two, where the doubles are twice as close; they belong to it when the significand is
even. -/
def ofBinary (significand : Nat) (exponent : Int) : RoundingInterval :=
  let below := if significand = 2 ^ (52 : Nat) ∧ -1074 < exponent then 1 else 2
  let quarter := exponent - 2
  let scale := if quarter < 0 then 5 ^ quarter.natAbs else 2 ^ quarter.natAbs
  { low := (4 * significand - below) * scale
    value := 4 * significand * scale
    high := (4 * significand + 2) * scale
    closed := significand % 2 = 0
    unit := min quarter 0 }

/-- Whether the decimal point `n` of the unit rounds to the value. -/
def contains (i : RoundingInterval) (n : Nat) : Bool :=
  if i.closed then i.low ≤ n && n ≤ i.high else i.low < n && n < i.high

/-- The value's neighbour on the grid of multiples of `step` that rounds to the value, if there is
one: of two the nearer. -/
def neighbour? (i : RoundingInterval) (tie : Tie) (step : Nat) : Option Nat :=
  let lower := i.value / step
  let upper := lower + 1
  match i.contains (lower * step), i.contains (upper * step) with
  | true, true =>
    let fromLower := i.value - lower * step
    let fromUpper := upper * step - i.value
    if fromUpper < fromLower ∨ fromUpper = fromLower ∧ tie.takesUpper lower then some upper
    else some lower
  | true, false => some lower
  | false, true => some upper
  | false, false => none

/-- Searches the grids of multiples of `10 ^ places`, from the coarsest given one to the finest,
which holds the value itself. -/
def shortestFrom (i : RoundingInterval) (tie : Tie) : Nat → Decimal
  | 0 => ⟨i.value, i.unit⟩
  | places + 1 =>
    match i.neighbour? tie (10 ^ (places + 1)) with
    | some coefficient => ⟨coefficient, i.unit + (places + 1 : Nat)⟩
    | none => i.shortestFrom tie places

/-- The shortest decimal in the interval.  The first grid is coarser than the value, so that a
power of ten just above it is found with its one digit. -/
def shortest (i : RoundingInterval) (tie : Tie) : Decimal :=
  i.shortestFrom tie (Nat.toDigits 10 i.value).length

end RoundingInterval

/-- How a double is written once its digits are known. -/
structure FloatFormat where
  /-- Whether a whole number ends in `.0`. -/
  wholePoint : Bool
  /-- The powers of ten of a first digit for which no exponent is written. -/
  positional : Int → Bool
  /-- Which of two equally near shortest decimals is written. -/
  tie : Tie

namespace FloatFormat

/-- Plain text: never an exponent, and no point in a whole number. -/
def plain : FloatFormat := ⟨false, fun _ => true, .up⟩

/-- Data text: always a point or an exponent, and an exponent from `10 ^ 16` up and below
`10 ^ -5`. -/
def data : FloatFormat := ⟨true, fun e => -5 ≤ e && e < 16, .even⟩

/-- Writes a decimal in the given format. -/
def renderDecimal (f : FloatFormat) (d : Decimal) : String :=
  if f.positional d.leadingExponent then d.positional f.wholePoint else d.scientific

/-- Writes a double with the shortest digits that read back. -/
def render (f : FloatFormat) (x : Float) : String :=
  match Binary64.ofFloat x with
  | .nan => "NaN"
  | .infinite negative => if negative then "-inf" else "inf"
  | .finite negative significand exponent =>
    let decimal :=
      if significand = 0 then ⟨0, 0⟩
      else (RoundingInterval.ofBinary significand exponent).shortest f.tie
    (if negative then "-" else "") ++ f.renderDecimal decimal

end FloatFormat

end PlayDiagram
