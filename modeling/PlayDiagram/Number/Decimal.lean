/-!
# Decimal numerals

A decimal is a whole coefficient and a power of ten.  `positional` and `scientific` are its two
written forms.
-/

namespace PlayDiagram

/-- The value `coefficient * 10 ^ exponent`. -/
structure Decimal where
  coefficient : Nat
  exponent : Int
  deriving DecidableEq, Repr

namespace Decimal

/-- The digits of the coefficient. -/
def digits (d : Decimal) : List Char :=
  Nat.toDigits 10 d.coefficient

/-- The power of ten that the first digit counts. -/
def leadingExponent (d : Decimal) : Int :=
  d.digits.length - 1 + d.exponent

/-- The given number of zeros. -/
def zeros (n : Nat) : List Char :=
  List.replicate n '0'

/-- Written without an exponent.  A whole number ends in `.0` if `wholePoint` is set. -/
def positional (d : Decimal) (wholePoint : Bool) : String :=
  let digits := d.digits
  if 0 ≤ d.exponent then
    let whole := digits ++ zeros d.exponent.toNat
    String.ofList (if wholePoint then whole ++ ['.', '0'] else whole)
  else
    let places := (-d.exponent).toNat
    let padded := zeros (places + 1 - digits.length) ++ digits
    let (whole, fraction) := padded.splitAt (padded.length - places)
    String.ofList (whole ++ '.' :: fraction)

/-- An exponent with its sign. -/
def exponentText (e : Int) : List Char :=
  (if e < 0 then '-' else '+') :: Nat.toDigits 10 e.natAbs

/-- Written with one digit before the point and an exponent after an `e`. -/
def scientific (d : Decimal) : String :=
  let mantissa :=
    match d.digits with
    | [] => []
    | [digit] => [digit]
    | digit :: rest => digit :: '.' :: rest
  String.ofList (mantissa ++ 'e' :: exponentText d.leadingExponent)

end Decimal

end PlayDiagram
