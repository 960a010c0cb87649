import PlayDiagram.Number.Scalar

/-!
# Exact scalars

Rational numbers are scalars, with every operation exact.  `ExtendedRat` adds the two infinities
and a value that is no number, so that rules about such inputs can be stated without rounding.
-/

namespace PlayDiagram

instance : Scalar Rat where
  zero := 0
  one := 1
  ofWord n := n.toNat
  isNaN _ := false
  isFinite _ := true
  decideLT := inferInstance
  decideLE := inferInstance
  totalLE x y := decide (x ≤ y)

/-- A rational number, an infinity, or no number. -/
inductive ExtendedRat where
  | nan
  | negInf
  | finite (value : Rat)
  | posInf
  deriving DecidableEq

namespace ExtendedRat

/-- The infinity with the sign of `q`; no number when `q` is zero. -/
def infinityOfSign (q : Rat) : ExtendedRat :=
  if q < 0 then negInf else if 0 < q then posInf else nan

/-- The sum; opposite infinities have none. -/
def add : ExtendedRat → ExtendedRat → ExtendedRat
  | finite x, finite y => finite (x + y)
  | posInf, posInf | posInf, finite _ | finite _, posInf => posInf
  | negInf, negInf | negInf, finite _ | finite _, negInf => negInf
  | _, _ => nan

/-- The value with its sign turned round. -/
def neg : ExtendedRat → ExtendedRat
  | nan => nan
  | negInf => posInf
  | finite x => finite (-x)
  | posInf => negInf

/-- The product; zero times an infinity has none. -/
def mul : ExtendedRat → ExtendedRat → ExtendedRat
  | finite x, finite y => finite (x * y)
  | posInf, finite x | finite x, posInf => infinityOfSign x
  | negInf, finite x | finite x, negInf => infinityOfSign (-x)
  | posInf, posInf | negInf, negInf => posInf
  | posInf, negInf | negInf, posInf => negInf
  | nan, _ | _, nan => nan

/-- The quotient; a number over zero is the infinity with the number's sign. -/
def div : ExtendedRat → ExtendedRat → ExtendedRat
  | finite x, finite y => if y = 0 then infinityOfSign x else finite (x / y)
  | finite _, posInf | finite _, negInf => finite 0
  | posInf, finite y => if y < 0 then negInf else posInf
  | negInf, finite y => if y < 0 then posInf else negInf
  | _, _ => nan

/-- Whether the first value lies strictly below the second. -/
def below : ExtendedRat → ExtendedRat → Bool
  | finite x, finite y => x < y
  | negInf, finite _ | negInf, posInf | finite _, posInf => true
  | _, _ => false

/-- Whether both values are equal numbers; a value that is no number equals nothing. -/
def same : ExtendedRat → ExtendedRat → Bool
  | nan, _ => false
  | x, y => x = y

/-- The place of a value in the total order, in which what is no number comes last. -/
def totalBelow (x y : ExtendedRat) : Bool :=
  y = nan || x = y || below x y

instance : Scalar ExtendedRat where
  zero := finite 0
  one := finite 1
  add := add
  sub x y := add x (neg y)
  mul := mul
  div := div
  lt x y := below x y = true
  le x y := (below x y || same x y) = true
  beq := same
  ofWord n := finite n.toNat
  isNaN x := x = nan
  isFinite
    | finite _ => true
    | _ => false
  decideLT _ _ := inferInstanceAs (Decidable (_ = true))
  decideLE _ _ := inferInstanceAs (Decidable (_ = true))
  totalLE := totalBelow

end ExtendedRat

end PlayDiagram
