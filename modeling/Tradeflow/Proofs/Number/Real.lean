/-
  Exact arithmetic with roots: figures as real numbers. What a double gives enters as its exact value,
  as it does among the rationals, and the root of a number is its root.

  Multiplying by a positive number rescales figures (`Scalar.Rescaling`): differences are multiplied
  alike, quotients and comparisons stay what they are.
-/
import Mathlib.Analysis.Real.Sqrt
import Mathlib.Algebra.Order.Archimedean.Real.Basic
import Tradeflow.Proofs.Number.Rational

namespace Tradeflow

/-- Rounds the size of a real number to a multiple of `10 ^ (-places)`, and says how many of them; a half
goes to the even neighbour. -/
noncomputable def Real.unitsOf (places : Nat) (x : ℝ) : Nat :=
  let scaled := |x| * 10 ^ places
  let whole := ⌊scaled⌋.toNat
  let rest := Int.fract scaled
  if rest < 1 / 2 then whole
  else if 1 / 2 < rest then whole + 1
  else if whole % 2 = 0 then whole
  else whole + 1

/-- There is no real number without bound: zero stands there. -/
noncomputable instance : Scalar ℝ where
  nat n := n
  decimal digits places := digits / 10 ^ places
  unit k := k / 2 ^ 53
  ofFloat x := (Double.exact x : Rat)
  ofInt? n := some n
  less x y := decide (x < y)
  atMost x y := decide (x ≤ y)
  equal x y := decide (x = y)
  isFinite _ := true
  ratio? x y := if y = 0 then none else some (x / y)
  sqrt := Real.sqrt
  infinite := 0
  floor? x := .ok ⌊x⌋
  round places x :=
    let size : ℝ := Real.unitsOf places x / 10 ^ places
    if x < 0 then -size else size
  fixed places x := Decimal.fixedText (decide (x < 0)) (Real.unitsOf places x) places
  total? xs := .ok xs.sum

namespace Scalar

/-- A change of the unit in which figures are given. -/
structure Rescaling {R : Type} [Scalar R] (f : R → R) : Prop where
  sub (x y : R) : f x - f y = f (x - y)
  div (x y : R) : f x / f y = x / y
  ratio? (x y : R) : Scalar.ratio? (f x) (f y) = Scalar.ratio? x y
  less (x y : R) : Scalar.less (f x) (f y) = Scalar.less x y
  equal (x y : R) : Scalar.equal (f x) (f y) = Scalar.equal x y
  zero : f (Scalar.nat 0) = Scalar.nat 0

namespace Rescaling

variable {R : Type} [Scalar R] {f : R → R}

theorem larger (h : Rescaling f) (x y : R) : Scalar.larger (f x) (f y) = f (Scalar.larger x y) := by
  unfold Scalar.larger
  rw [h.less, apply_ite f]

theorem positive (h : Rescaling f) (x : R) : Scalar.positive (f x) = Scalar.positive x := by
  have hless := h.less (Scalar.nat 0) x
  rwa [h.zero] at hless

theorem isZero (h : Rescaling f) (x : R) : Scalar.isZero (f x) = Scalar.isZero x := by
  have hequal := h.equal x (Scalar.nat 0)
  rwa [h.zero] at hequal

end Rescaling

theorem nat_real (n : Nat) : (nat n : ℝ) = n := rfl

/-- Real figures are rescaled by a positive factor. -/
theorem rescaling_mul {c : ℝ} (hc : 0 < c) : Rescaling (c * ·) where
  sub x y := (mul_sub c x y).symm
  div x y := mul_div_mul_left x y hc.ne'
  ratio? x y := by
    simp only [Scalar.ratio?, mul_eq_zero, hc.ne', false_or, mul_div_mul_left x y hc.ne']
  less x y := by simp only [Scalar.less, mul_lt_mul_iff_right₀ hc]
  equal x y := by simp only [Scalar.equal, mul_right_inj' hc.ne']
  zero := by simp only [nat_real, Nat.cast_zero, mul_zero]

end Scalar

end Tradeflow
