/-
  The largest drawdown in exact arithmetic, against its definition by pairs.

  The loop keeps one number, the running peak, and compares every value with that. The definition
  compares a value with every positive number up to it. For a value below zero the two differ: the
  decline of `-1` is 110 % from a peak of 10 and 200 % from one of 1, so the worst decline is not the
  one from the running peak. It is above 100 % either way, and the figure stops at 100.

  Both sides are therefore compared through bounds: what does it mean that no decline is above `c` percent?
  For `c < 100` it means that each value is at least a fixed positive share of every positive number
  before it (`decline_le_iff`), and that only has to be asked of the largest of them (`keeps_cons`).

  Proved:
  * `maxDrawdown_le_iff`: the figure is at most `c`, where `0 ≤ c < 100`, iff no pair declines by more.
  * `maxDrawdown_is_largest_decline`: the figure is the largest decline of a pair, no less than 0 and no
    more than 100, and it is 0 iff no value is below the largest positive number before it.
-/
import Mathlib.Algebra.Order.Field.Rat
import Mathlib.Data.List.MinMax
import Mathlib.Tactic.Linarith
import Tradeflow.Performance.Metrics
import Tradeflow.Proofs.Number.Rational

namespace Tradeflow.Performance

open Scalar (larger_rat smaller_rat)

/-- The declines in percent to values from positive numbers: an initial one, the values before, and the
values themselves. -/
def declines (peak : Rat) (values : List Rat) : List Rat :=
  (List.finRange values.length).flatMap fun (j : Fin values.length) =>
    ((peak :: values.take (j + 1)).filter (0 < ·)).map fun x => (x - values[j]) / x * 100

/-- The largest of some declines; zero if there are none. -/
def largestDecline (found : List Rat) : Rat := found.max?.getD 0

/-- Every value is at least a share of `100 - c` percent of each positive number up to it. -/
def Keeps (c peak : Rat) (values : List Rat) : Prop :=
  ∀ (j : Nat) (h : j < values.length), ∀ x ∈ peak :: values.take (j + 1), 0 < x →
    x * (100 - c) ≤ 100 * values[j]

theorem mem_declines {d peak : Rat} {values : List Rat} :
    d ∈ declines peak values ↔
      ∃ (j : Nat) (h : j < values.length), ∃ x ∈ peak :: values.take (j + 1),
        0 < x ∧ (x - values[j]) / x * 100 = d := by
  simp only [declines, List.mem_flatMap, List.mem_map, List.mem_filter, decide_eq_true_eq, and_assoc]
  constructor
  · rintro ⟨j, -, found⟩
    exact ⟨j, j.isLt, found⟩
  · rintro ⟨j, h, found⟩
    exact ⟨⟨j, h⟩, List.mem_finRange _, found⟩

theorem decline_le_iff {x v c : Rat} (hx : 0 < x) :
    (x - v) / x * 100 ≤ c ↔ x * (100 - c) ≤ 100 * v := by
  rw [div_mul_eq_mul_div, div_le_iff₀ hx]
  constructor <;> intro h <;> linarith

theorem keeps_iff {c peak : Rat} {values : List Rat} :
    Keeps c peak values ↔ ∀ d ∈ declines peak values, d ≤ c := by
  constructor
  · intro keeps d hd
    obtain ⟨j, h, x, hx, positive, rfl⟩ := mem_declines.1 hd
    exact (decline_le_iff positive).2 (keeps j h x hx positive)
  · intro bounded j h x hx positive
    exact (decline_le_iff positive).1 (bounded _ (mem_declines.2 ⟨j, h, x, hx, positive, rfl⟩))

/-! ### The loop -/

/-- A value that keeps its share of the running peak keeps it of every smaller number. -/
theorem keeps_cons {c peak v : Rat} {values : List Rat} (hc : c < 100) :
    Keeps c peak (v :: values) ↔
      (0 < max peak v → max peak v * (100 - c) ≤ 100 * v) ∧ Keeps c (max peak v) values := by
  have share : ∀ {x y w : Rat}, x ≤ y → y * (100 - c) ≤ 100 * w → x * (100 - c) ≤ 100 * w :=
    fun hxy hy => le_trans (mul_le_mul_of_nonneg_right hxy (by linarith)) hy
  have top : max peak v = peak ∨ max peak v = v := max_choice peak v
  constructor
  · intro keeps
    refine ⟨fun positive => keeps 0 (by simp) _ ?_ positive, ?_⟩
    · simpa using top
    · intro j h x hx positive
      refine keeps (j + 1) (by simpa using h) x ?_ positive
      rcases List.mem_cons.1 hx with rfl | hx
      · rcases top with top | top <;> simp [top]
      · simp [hx]
  · rintro ⟨first, rest⟩ j h x hx positive
    cases j with
    | zero =>
      have hxm : x ≤ max peak v := le_max_iff.2 <| by
        rcases List.mem_cons.1 hx with rfl | hx
        · exact .inl le_rfl
        · exact .inr (List.mem_singleton.1 hx).le
      exact share hxm (first (lt_of_lt_of_le positive hxm))
    | succ j =>
      have inside : j < values.length := by simpa using h
      have known : x ≤ max peak v ∨ x ∈ values.take (j + 1) := by
        simp only [List.take_succ_cons, List.mem_cons] at hx
        rcases hx with rfl | rfl | hx
        · exact .inl (le_max_left _ _)
        · exact .inl (le_max_right _ _)
        · exact .inr hx
      rcases known with hxm | hx
      · have := rest j inside _ (List.mem_cons_self ..) (lt_of_lt_of_le positive hxm)
        exact share hxm this
      · exact rest j inside x (List.mem_cons_of_mem _ hx) positive

theorem take_worst_le_iff {c v : Rat} (t : Trough Rat) :
    (t.take v).worst ≤ c ↔
      t.worst ≤ c ∧ (0 < max t.peak v → max t.peak v * (100 - c) ≤ 100 * v) := by
  simp only [Trough.take, larger_rat, Scalar.positive, Scalar.less, Scalar.nat_rat, Nat.cast_zero,
    decide_eq_true_eq]
  split
  case isTrue positive =>
    simp only [max_le_iff, decline, Scalar.nat_rat, positive, true_imp_iff]
    rw [← decline_le_iff positive]
    rfl
  case isFalse nothing => simp [nothing]

/-- The worst decline of the loop is at most `c` iff it was before and the values keep their shares. -/
theorem foldl_take_worst_le_iff {c : Rat} (hc : c < 100) (values : List Rat) :
    ∀ t : Trough Rat,
      (values.foldl Trough.take t).worst ≤ c ↔ t.worst ≤ c ∧ Keeps c t.peak values := by
  induction values with
  | nil =>
    intro t
    simp [Keeps]
  | cons v values ih =>
    intro t
    rw [List.foldl_cons, ih, take_worst_le_iff, keeps_cons hc, and_assoc]
    simp only [Trough.take, larger_rat]

/-- Between 0 and 100, the figure and the declines of the pairs have the same upper bounds. -/
theorem maxDrawdown_le_iff {c peak : Rat} {values : List Rat} (low : 0 ≤ c) (high : c < 100) :
    maxDrawdown values peak ≤ c ↔ ∀ d ∈ declines peak values, d ≤ c := by
  rw [← keeps_iff]
  simp only [maxDrawdown, smaller_rat, min_le_iff, foldl_take_worst_le_iff high, Scalar.nat_rat]
  simp [low, high]

/-- The worst decline never shrinks. -/
theorem worst_le_foldl (values : List Rat) :
    ∀ t : Trough Rat, t.worst ≤ (values.foldl Trough.take t).worst := by
  induction values with
  | nil => exact fun t => le_refl _
  | cons v values ih => exact fun t => le_trans ((take_worst_le_iff t).1 le_rfl).1 (ih _)

theorem maxDrawdown_nonneg (values : List Rat) (peak : Rat) : 0 ≤ maxDrawdown values peak := by
  rw [maxDrawdown, smaller_rat]
  exact le_min (by simp) (worst_le_foldl values ⟨peak, Scalar.nat 0⟩)

theorem maxDrawdown_le (values : List Rat) (peak : Rat) : maxDrawdown values peak ≤ 100 := by
  rw [maxDrawdown, smaller_rat]
  exact le_trans (min_le_left _ _) (by simp)

/-! ### The definition by pairs -/

theorem largestDecline_le_iff {found : List Rat} {c : Rat} (low : 0 ≤ c) :
    largestDecline found ≤ c ↔ ∀ d ∈ found, d ≤ c := by
  unfold largestDecline
  cases h : found.max? with
  | none => simp [List.max?_eq_none_iff.1 h, low]
  | some d => exact List.max?_le_iff h

/-- No value is below a positive number before it iff none is below the largest of them. -/
theorem keeps_zero_iff {peak : Rat} {values : List Rat} :
    Keeps 0 peak values ↔
      ∀ (j : Nat) (h : j < values.length) (top : Rat),
        ((peak :: values.take j).filter (0 < ·)).max? = some top → top ≤ values[j] := by
  constructor
  · intro keeps j h top largest
    have found := (List.max?_eq_some_iff.1 largest).1
    simp only [List.mem_filter, decide_eq_true_eq] at found
    have := keeps j h top ?_ found.2
    · linarith
    · exact List.cons_subset_cons _ (List.take_subset_take_left _ (Nat.le_succ j)) found.1
  · intro above j h x hx positive
    rw [List.take_add_one, ← List.cons_append, List.mem_append] at hx
    rcases hx with hx | hx
    · have found : x ∈ (peak :: values.take j).filter (0 < ·) := by
        simp only [List.mem_filter, hx, positive, decide_true, and_self]
      cases largest : ((peak :: values.take j).filter (0 < ·)).max? with
      | none => simp [List.max?_eq_none_iff.1 largest] at found
      | some top =>
        have := (List.max?_eq_some_iff.1 largest).2 x found
        have := above j h top largest
        linarith
    · rw [List.getElem?_eq_getElem h] at hx
      have : x = values[j] := by simpa using hx
      linarith

/-- The figure is the largest decline from a positive number to a value at or after it, cut off at 0 and
100. It is zero iff no value is below the largest positive number before it. -/
theorem maxDrawdown_is_largest_decline (values : List Rat) (peak : Rat) :
    maxDrawdown values peak = min 100 (max 0 (largestDecline (declines peak values))) ∧
    (maxDrawdown values peak = 0 ↔
      ∀ (j : Nat) (h : j < values.length) (top : Rat),
        ((peak :: values.take j).filter (0 < ·)).max? = some top → top ≤ values[j]) := by
  have low := maxDrawdown_nonneg values peak
  have high := maxDrawdown_le values peak
  constructor
  · refine eq_of_forall_ge_iff fun c => ?_
    rcases lt_or_ge c 0 with hc | hc
    · -- Neither side is negative.
      have : 0 ≤ min 100 (max 0 (largestDecline (declines peak values))) :=
        le_min (by norm_num) (le_max_left _ _)
      constructor <;> intro <;> linarith
    rcases lt_or_ge c 100 with hc' | hc'
    · rw [maxDrawdown_le_iff hc hc', min_le_iff, max_le_iff, largestDecline_le_iff hc]
      simp [hc, hc']
    · exact iff_of_true (le_trans high hc') (le_trans (min_le_left _ _) hc')
  · calc maxDrawdown values peak = 0
      _ ↔ maxDrawdown values peak ≤ 0 := ⟨fun h => h.le, fun h => le_antisymm h low⟩
      _ ↔ Keeps 0 peak values := by
        rw [maxDrawdown_le_iff le_rfl (by norm_num), keeps_iff]
      _ ↔ _ := keeps_zero_iff

/-- A fall to below zero counts as the loss of everything. -/
example : maxDrawdown [10, -1, 1, -1] (10 : Rat) = 100 := by decide +kernel

end Tradeflow.Performance
