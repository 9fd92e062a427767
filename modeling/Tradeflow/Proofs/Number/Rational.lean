/-
  Exact arithmetic: amounts and prices as rationals. What a double gives enters as its exact value,
  and nothing is rounded but what asks for it.
-/
import Mathlib.Algebra.Order.Ring.Rat
import Mathlib.Data.Rat.Sqrt
import Tradeflow.Number.Scalar

namespace Tradeflow

/-- The exact value of a double; zero for one that is not finite. -/
def Double.exact (x : Float) : Rat :=
  match Double.view x with
  | .finite negative m e =>
    let (n, d) := Double.quotient m e
    if negative then -(n / d : Rat) else n / d
  | _ => 0

/-- Rounds the size of a rational to a multiple of `10 ^ (-places)`, and says how many of them. -/
def Rational.unitsOf (places : Nat) (x : Rat) : Nat :=
  roundHalfEven (x.num.natAbs * pow10 places) x.den

/-- Roots of squares are exact; others are roots of numerator and denominator, cut off. There is no
rational without bound: zero stands there. -/
instance : Scalar Rat where
  nat n := n
  decimal digits places := digits / 10 ^ places
  unit k := k / 2 ^ 53
  ofFloat := Double.exact
  ofInt? n := some n
  less x y := decide (x < y)
  atMost x y := decide (x ≤ y)
  equal x y := decide (x = y)
  isFinite _ := true
  ratio? x y := if y = 0 then none else some (x / y)
  sqrt := Rat.sqrt
  infinite := 0
  floor? x := .ok x.floor
  round places x :=
    let size : Rat := Rational.unitsOf places x / 10 ^ places
    if x < 0 then -size else size
  fixed places x := Decimal.fixedText (decide (x < 0)) (Rational.unitsOf places x) places
  total? xs := .ok xs.sum

namespace Scalar

@[simp]
theorem nat_rat (n : Nat) : (nat n : Rat) = n := rfl

@[simp]
theorem decimal_rat (digits places : Nat) : (decimal digits places : Rat) = digits / 10 ^ places :=
  rfl

@[simp]
theorem unit_rat (k : Nat) : (unit k : Rat) = k / 2 ^ 53 := rfl

theorem larger_rat (x y : Rat) : larger x y = max x y := by
  simp only [larger, less, decide_eq_true_eq]
  rcases lt_or_ge x y with h | h
  · rw [if_pos h, max_eq_right h.le]
  · rw [if_neg (not_lt.2 h), max_eq_left h]

theorem smaller_rat (x y : Rat) : smaller x y = min y x := by
  simp only [smaller, less, decide_eq_true_eq]
  rcases lt_or_ge y x with h | h
  · rw [if_pos h, min_eq_left h.le]
  · rw [if_neg (not_lt.2 h), min_eq_right h]

/-- A quotient is there when the divisor is not zero, and is the quotient. -/
theorem divide_rat {x y q : Rat} (h : divide x y = .ok q) : y ≠ 0 ∧ q = x / y := by
  unfold divide at h
  split at h
  · cases h
  case isFalse hzero =>
    cases h
    exact ⟨fun hy => hzero (decide_eq_true hy), rfl⟩

end Scalar

end Tradeflow
