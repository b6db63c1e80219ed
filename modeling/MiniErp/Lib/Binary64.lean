import Mathlib.Algebra.Group.Int.Defs
import Mathlib.Algebra.Group.Nat.Defs
import Mathlib.Data.Int.Order.Basic

/-! Binary64 numbers: the finite ones are exact multiples of the smallest subnormal
`2 ^ (-1074)`, so that addition and scaling are exact integer operations followed by one
rounding. The two zeros are one value. -/
namespace MiniErp

inductive F64 where
  | nan
  | infinite (negative : Bool)
  | finite (units : Int)
  deriving DecidableEq, Repr

namespace F64

def isFinite : F64 → Bool
  | .finite _ => true
  | _ => false

def zero : F64 := .finite 0

/-- `x == y`; a NaN is equal to nothing. -/
def eq (x y : F64) : Bool := x != .nan && x == y

/-- `x <= 0.0`; false of a NaN. -/
def isNonpositive : F64 → Bool
  | .nan => false
  | .infinite negative => negative
  | .finite units => decide (units≤0)

/-- Round a magnitude to 53 significant bits, to nearest, ties to even. -/
def roundMagnitude (n : Nat) : Nat :=
  let shift := n.log2-52
  let unit := 2^shift
  let down := n/unit
  let rest := n%unit
  let up := decide (unit<2*rest) || (decide (unit=2*rest) && decide (down%2=1))
  (if up then down+1 else down)*unit

/-- The nearest number to an exact value, which overflows at `2 ^ 1024`. -/
def round (units : Int) : F64 :=
  let magnitude := roundMagnitude units.natAbs
  if 2^2098 ≤ magnitude then .infinite (decide (units<0))
  else .finite (if units<0 then -(magnitude : Int) else magnitude)

def add : F64 → F64 → F64
  | .nan, _ => .nan
  | _, .nan => .nan
  | .infinite a, .infinite b => if a=b then .infinite a else .nan
  | .infinite a, .finite _ => .infinite a
  | .finite _, .infinite b => .infinite b
  | .finite a, .finite b => round (a+b)

/-- `x * (n as f64)` for an integer that is itself a binary64 number. -/
def scale (x : F64) (n : Int) : F64 :=
  match x with
  | .nan => .nan
  | .infinite negative => if n=0 then .nan else .infinite (xor negative (decide (n<0)))
  | .finite units => round (units*n)

/-- One in units of the smallest subnormal. -/
def one : Nat := 2^1074

/-- `n as f64`. -/
def ofInt (n : Int) : F64 := round (n*one)

/-- Round a quotient of magnitudes as `roundMagnitude` rounds a magnitude. -/
def roundQuotient (n d : Nat) : Nat :=
  let unit := 2^((n/d).log2-52)
  let step := d*unit
  let down := n/step
  let rest := n%step
  let up := decide (step<2*rest) || (decide (step=2*rest) && decide (down%2=1))
  (if up then down+1 else down)*unit

/-- The nearest number to an exact quotient of units. -/
def quotient (n : Int) (d : Nat) : F64 :=
  let magnitude := roundQuotient n.natAbs d
  if 2^2098 ≤ magnitude then .infinite (decide (n<0))
  else .finite (if n<0 then -(magnitude : Int) else magnitude)

def isNegative : F64 → Bool
  | .nan => false
  | .infinite negative => negative
  | .finite units => decide (units<0)

def mul : F64 → F64 → F64
  | .nan, _ => .nan
  | _, .nan => .nan
  | .finite a, .finite b => quotient (a*b) one
  | x, y => if x=zero ∨ y=zero then .nan else .infinite (xor x.isNegative y.isNegative)

/-- `x / (n as f64)` for a positive integer. -/
def divInt (x : F64) (n : Nat) : F64 :=
  match x, ofInt n with
  | .finite a, .finite d => quotient (a*one) d.natAbs
  | x, _ => x

/-- `x < y`; false of a NaN. -/
def lt : F64 → F64 → Bool
  | .nan, _ => false
  | _, .nan => false
  | .infinite a, .infinite b => a && !b
  | .infinite a, .finite _ => a
  | .finite _, .infinite b => !b
  | .finite a, .finite b => decide (a<b)

/-- `x <= y`; false of a NaN. -/
def le (x y : F64) : Bool := x != .nan && y != .nan && !lt y x

def neg : F64 → F64
  | .nan => .nan
  | .infinite negative => .infinite (!negative)
  | .finite units => .finite (-units)

def sub (x y : F64) : F64 := x.add y.neg

def abs (x : F64) : F64 := if x.isNegative then x.neg else x

/-- `x / y` for a divisor that is not zero. -/
def div : F64 → F64 → F64
  | .nan, _ => .nan
  | _, .nan => .nan
  | .infinite _, .infinite _ => .nan
  | .infinite a, .finite b => .infinite (xor a (decide (b<0)))
  | .finite _, .infinite _ => zero
  | .finite a, .finite b => quotient (a*one*b.sign) b.natAbs

/-- The number nearest to `digits / 10 ^ places`. -/
def decimal (digits places : Nat) : F64 := quotient (digits*one) (10^places)

/-- The distance from one to the next number. -/
def epsilon : F64 := .finite (2^1022)

/-- `x.ceil() as i64`, which saturates and takes a NaN to zero. -/
def ceilInt : F64 → Int
  | .nan => 0
  | .infinite negative => if negative then -2^63 else 2^63-1
  | .finite units => max (-2^63) (min (2^63-1) (-((-units)/(one : Int))))

/-- Equality of optional numbers as the source compares them. -/
def optionEq : Option F64 → Option F64 → Bool
  | none, none => true
  | some x, some y => x.eq y
  | _, _ => false

example : (ofInt 1).divInt 3=.finite (6004799503160661*2^1020) := by decide +kernel

example : (decimal 15 1).mul (decimal 4 0)=(ofInt (-12)).div (ofInt (-2)) := by decide +kernel

example : round (2^53+1)=.finite (2^53) := by decide +kernel

end F64

end MiniErp
