/-!
# JSON values

A number is kept as an integer of 64 bits, with or without a sign, where it is one, and as a finite
double otherwise; the two stay apart, because a field that asks for an integer does not take `1.0`.
An object is the list of its members.
-/

namespace PlayDiagram.Json

-- Powers mean the ones of core, whatever else is in scope.
attribute [local instance (2000)] instPowNat

/-- A number that JSON text can hold. -/
inductive Number where
  /-- An integer of 64 bits, signed or unsigned. -/
  | integer (value : Int) (lower : -2 ^ (63 : Nat) ≤ value) (upper : value < 2 ^ (64 : Nat))
  /-- A finite double. -/
  | real (value : Float) (finite : value.isFinite = true)

/-- A JSON value. -/
inductive Value where
  | null
  | bool (value : Bool)
  | number (value : Number)
  | string (value : String)
  | array (items : List Value)
  | object (members : List (String × Value))

instance : Inhabited Value := ⟨.null⟩

namespace Number

/-- The integer as a number, if it fits. -/
def ofInt? (n : Int) : Option Number :=
  if h : -2 ^ (63 : Nat) ≤ n ∧ n < 2 ^ (64 : Nat) then some (.integer n h.1 h.2) else none

/-- The double as a number, if it is finite. -/
def ofFloat? (x : Float) : Option Number :=
  if h : x.isFinite = true then some (.real x h) else none

/-- An unsigned word of 32 bits as a number. -/
def ofUInt32 (n : UInt32) : Number :=
  .integer n.toNat (by omega) (by have := n.toNat_lt; omega)

/-- A signed word of 64 bits as a number. -/
def ofInt64 (n : Int64) : Number :=
  .integer n.toInt n.le_toInt (by have := n.toInt_lt; omega)

/-- The nearest double.  Rounding does not depend on the sign, which is put back afterwards. -/
def toFloat : Number → Float
  | .integer n _ _ =>
    if 0 ≤ n then n.toNat.toUInt64.toFloat else -n.natAbs.toUInt64.toFloat
  | .real x _ => x

end Number

namespace Value

/-- The double as a value; what is not finite has no text and becomes `null`. -/
def ofFloat (x : Float) : Value :=
  match Number.ofFloat? x with
  | some n => .number n
  | none => .null

end Value

/-- The members with one set to a value: in its old place, or at the end. -/
def setMember (key : String) (value : Value) : List (String × Value) → List (String × Value)
  | [] => [(key, value)]
  | (k, v) :: rest =>
    if k = key then (key, value) :: rest else (k, v) :: setMember key value rest

end PlayDiagram.Json
