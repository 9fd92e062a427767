/-
  The arithmetic in which amounts, prices and statistics are computed. Doubles are the arithmetic of
  every run; whatever else offers these operations, exact rationals for one, can stand in for them, and
  a statement about exact arithmetic is a statement about the same definitions.
-/
import Tradeflow.Fault
import Tradeflow.Number.Decimal

namespace Tradeflow

class Scalar (R : Type) extends Add R, Sub R, Mul R, Div R, Neg R where
  nat : Nat → R
  /-- The number nearest to `digits / 10 ^ places`. -/
  decimal : (digits places : Nat) → R
  /-- The number nearest to `k / 2 ^ 53`. -/
  unit : Nat → R
  ofFloat : Float → R
  /-- The number nearest to a whole one. Fails when it is too large. -/
  ofInt? : Int → Option R
  less : R → R → Bool
  atMost : R → R → Bool
  equal : R → R → Bool
  isFinite : R → Bool
  /-- The quotient, unless it is not finite. -/
  ratio? : R → R → Option R
  sqrt : R → R
  /-- Stands for what has no bound. -/
  infinite : R
  /-- The largest whole number not above. -/
  floor? : R → Except Fault Int
  /-- Rounded to decimal places, a half to the even neighbour. -/
  round : Nat → R → R
  /-- The text with a number of decimal places. -/
  fixed : Nat → R → String
  /-- The sum, rounded once. -/
  total? : List R → Except Fault R

namespace Scalar

variable {R : Type} [Scalar R]

/-- Zero as a number of the arithmetic. -/
def zero : R := nat 0

def isZero (x : R) : Bool := equal x (nat 0)

def positive (x : R) : Bool := less (nat 0) x

def negative (x : R) : Bool := less x (nat 0)

/-- The larger of two, the first one unless the second is strictly larger. -/
def larger (x y : R) : R := if less x y then y else x

/-- The smaller of two, the first one unless the second is strictly smaller. -/
def smaller (x y : R) : R := if less y x then y else x

/-- The size without the sign. -/
def size (x : R) : R := if less x (nat 0) then -x else if equal x (nat 0) then nat 0 else x

/-- A quotient; there is none by zero. -/
def divide (x y : R) : Except Fault R :=
  if isZero y then .error .zeroDivision else .ok (x / y)

end Scalar

namespace Double

/-- The largest whole number not above a double. -/
def floor (x : Float) : Except Fault Int :=
  match view x with
  | .nan => .error .floorOfNaN
  | .infinite _ => .error .floorOfInfinity
  | .finite negative m e =>
    let (n, d) := quotient m e
    .ok (if negative then Int.fdiv (-(n : Int)) d else (n / d : Nat))

/-- A finite double as a multiple of the smallest positive one. -/
def inLeastUnits (x : Float) : Int :=
  match view x with
  | .finite negative m e =>
    let n : Int := (m * pow2 (e - leastExponent).toNat : Nat)
    if negative then -n else n
  | _ => 0

/-- The double nearest to a multiple of the smallest positive one. -/
def ofLeastUnits (n : Int) : Float := ofQuotient (decide (n < 0)) n.natAbs (pow2 1074)

/-- A running sum: the exact sum of the finite terms, and the sums of the others. -/
structure Tally where
  finite : Int
  infinite : Float
  special : Float

/-- Adds a term. After one that is not finite, the exact sum starts anew. -/
def Tally.add (t : Tally) (x : Float) : Except Fault Tally :=
  if isFinite x then
    let sum := t.finite + inLeastUnits x
    if isFinite (ofLeastUnits sum) then .ok ⟨sum, t.infinite, t.special⟩ else .error .sumOverflow
  else
    let infinite := if x.isInf then t.infinite + x else t.infinite
    .ok ⟨0, infinite, t.special + x⟩

def Tally.addAll (t : Tally) : List Float → Except Fault Tally
  | [] => .ok t
  | x :: xs =>
    match t.add x with
    | .ok t => t.addAll xs
    | .error e => .error e

/-- The sum of doubles, rounded once at the end. -/
def total (xs : List Float) : Except Fault Float :=
  match Tally.addAll ⟨0, 0, 0⟩ xs with
  | .error e => .error e
  | .ok t =>
    if t.special == 0 then .ok (ofLeastUnits t.finite)
    else if t.infinite.isNaN then .error .sumOfInfinities
    else .ok t.special

/-- The double nearest to a whole number, if it is finite. -/
def ofInt? (n : Int) : Option Float :=
  let x := ofInt n
  if isFinite x then some x else none

end Double

instance : Scalar Float where
  nat := Float.ofNat
  decimal digits places := Float.ofScientific digits true places
  unit k := Float.ofNat k / 9007199254740992
  ofFloat x := x
  ofInt? := Double.ofInt?
  less x y := decide (x < y)
  atMost x y := decide (x ≤ y)
  equal x y := x == y
  isFinite := Double.isFinite
  ratio? x y := let q := x / y; if Double.isFinite q then some q else none
  sqrt := Float.sqrt
  infinite := Json.infinity false
  floor? := Double.floor
  round := Decimal.roundPlaces
  fixed := Decimal.fixed
  total? := Double.total

end Tradeflow
