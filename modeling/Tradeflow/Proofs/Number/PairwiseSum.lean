/-
  Sums in exact arithmetic. The order of additions makes no difference: a pairwise sum is the sum
  (`pairwise_rat`), column by column (`run_rat`) and half by half (`halves_rat`).
-/
import Mathlib.Algebra.BigOperators.Group.List.Basic
import Mathlib.Tactic.Ring
import Tradeflow.Number.Sum
import Tradeflow.Proofs.Number.Rational

namespace Tradeflow.Sum

theorem plain_rat (start : Rat) (xs : List Rat) : plain start xs = start + xs.sum := by
  induction xs generalizing start with
  | nil => exact (add_zero start).symm
  | cons x xs ih =>
    rw [List.sum_cons, ← add_assoc]
    exact ih (start + x)

theorem run_rat (s : Columns Rat) (xs : List Rat) : s.run xs = s.total + xs.sum := by
  fun_induction Columns.run s xs with
  | case1 s a b c d e f g h rest ih =>
    rw [ih]
    simp only [Columns.total, List.sum_cons]
    ring
  | case2 s rest hfew => exact plain_rat _ _

theorem block_rat (xs : List Rat) : block xs = xs.sum := by
  unfold block
  split
  · rw [run_rat]
    simp only [Columns.total, List.sum_cons]
    ring
  · rw [plain_rat, Scalar.nat_rat, Nat.cast_zero, neg_zero, zero_add]

theorem halves_rat (depth : Nat) (xs : List Rat) : halves depth xs = xs.sum := by
  induction depth generalizing xs with
  | zero => exact block_rat xs
  | succ depth ih =>
    rw [halves]
    split
    · exact block_rat xs
    · dsimp only
      rw [ih, ih, ← List.sum_append, List.take_append_drop]

theorem pairwise_rat (xs : List Rat) : pairwise xs = xs.sum := halves_rat _ _

theorem mean_rat (xs : List Rat) : mean xs = xs.sum / xs.length := by
  rw [mean, pairwise_rat, Scalar.nat_rat]

end Tradeflow.Sum
