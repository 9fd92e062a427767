/-
  The figures of a run do not depend on the unit in which its equity is counted.

  Equity enters them as returns, as declines from a peak, and as changes over a period or a month. Each
  of these is a quotient of equity by equity, and their guards compare equity with equity or with zero,
  so a change of the unit (`Scalar.Rescaling`) leaves all of them as they are. The peak of the loop for
  the largest drawdown is the one thing that is carried along in units (`Trough.rescale`).
-/
import Tradeflow.Proofs.Number.Real
import Tradeflow.Performance.Metrics
import Tradeflow.Proofs.Performance.MonthlyReturns

namespace Tradeflow

variable {R : Type} {f : R → R}

/-- A sample of equity in another unit. -/
def EquityPoint.rescale (f : R → R) (p : EquityPoint R) : EquityPoint R :=
  { p with value := f p.value }

/-- The peak in another unit; the decline is in percent. -/
def Performance.Trough.rescale (f : R → R) (t : Trough R) : Trough R := { t with peak := f t.peak }

/-- A month's samples in another unit. -/
def Monthly.Bucket.rescale (f : R → R) (b : Bucket R) : Bucket R :=
  { b with latest := b.latest.map f }

@[simp]
theorem Monthly.Bucket.rescale_year (b : Bucket R) : (b.rescale f).year = b.year := rfl

@[simp]
theorem Monthly.Bucket.rescale_month (b : Bucket R) : (b.rescale f).month = b.month := rfl

variable [Scalar R]

open Scalar (Rescaling)

namespace Performance

theorem decline_rescale (h : Rescaling f) (peak value : R) :
    decline (f peak) (f value) = decline peak value := by
  simp only [decline, h.sub, h.div]

theorem take_rescale (h : Rescaling f) (t : Trough R) (value : R) :
    (t.rescale f).take (f value) = (t.take value).rescale f := by
  simp only [Trough.take, Trough.rescale, h.larger, h.positive, decline_rescale h]

theorem foldl_take_rescale (h : Rescaling f) (values : List R) (t : Trough R) :
    (values.map f).foldl Trough.take (t.rescale f) = (values.foldl Trough.take t).rescale f := by
  induction values generalizing t with
  | nil => rfl
  | cons v values ih =>
    rw [List.map_cons, List.foldl_cons, List.foldl_cons, take_rescale h, ih]

theorem maxDrawdown_rescale (h : Rescaling f) (values : List R) (peak : R) :
    maxDrawdown (values.map f) (f peak) = maxDrawdown values peak := by
  have hloop := foldl_take_rescale h values ⟨peak, Scalar.nat 0⟩
  simp only [Trough.rescale] at hloop
  simp only [maxDrawdown, hloop]

theorem returns_rescale (h : Rescaling f) (values : List R) :
    returns (values.map f) = returns values := by
  fun_induction returns values with
  | case1 x y rest r hr ih =>
    rw [List.map_cons] at ih
    rw [List.map_cons, List.map_cons, returns, h.sub, h.ratio?, hr]
    simp only [ih]
  | case2 x y rest hr ih =>
    rw [List.map_cons] at ih
    rw [List.map_cons, List.map_cons, returns, h.sub, h.ratio?, hr]
    exact ih
  | case3 values hfew =>
    match values with
    | [] => rfl
    | [x] => rfl
    | x :: y :: rest => exact absurd rfl (hfew x y rest)

/-- All figures of a run at once. -/
theorem metrics_rescale (h : Rescaling f) (trades : List (Trade R)) (curve : List (EquityPoint R))
    (capital : R) (start stop : Instant) (firings : Int) :
    metrics trades (curve.map (·.rescale f)) (f capital) start stop firings =
      metrics trades curve capital start stop firings := by
  have hvalues : (curve.map (·.rescale f)).map (·.value) = (curve.map (·.value)).map f := by
    simp [EquityPoint.rescale]
  unfold metrics
  rw [hvalues, List.getLast?_map]
  cases (curve.map (·.value)).getLast? with
  | none => rfl
  | some final =>
    simp only [Option.map_some, h.sub, h.div, returns_rescale h, maxDrawdown_rescale h]

end Performance

namespace Monthly

omit [Scalar R] in
theorem put_rescale (buckets : List (Bucket R)) (year month : Nat) (value : R) :
    put (buckets.map (·.rescale f)) year month (f value) =
      (put buckets year month value).map (·.rescale f) := by
  induction buckets with
  | nil => rfl
  | cons b rest ih =>
    simp only [List.map_cons, put, Bucket.rescale_year, Bucket.rescale_month, ih,
      apply_ite (List.map _)]
    rfl

omit [Scalar R] in
theorem buckets_rescale (curve : List (EquityPoint R)) :
    buckets (curve.map (·.rescale f)) = (buckets curve).map (·.rescale f) := by
  induction curve using List.reverseRecOn with
  | nil => rfl
  | append_singleton curve p ih =>
    rw [List.map_append, List.map_singleton, buckets_concat, buckets_concat, ih]
    exact put_rescale _ _ _ _

theorem change_rescale (h : Rescaling f) (first last : R) :
    change (f first) (f last) = change first last := by
  simp only [change, h.isZero, h.sub, h.div]

theorem result_rescale (h : Rescaling f) (b : Bucket R) : (b.rescale f).result = b.result := by
  have hnumbers : (b.latest.map f).filter (fun x => Scalar.equal x x) =
      (b.latest.filter fun x => Scalar.equal x x).map f := by
    rw [List.filter_map]
    simp only [Function.comp_def, h.equal]
  simp only [Bucket.result, Bucket.rescale, hnumbers, List.isEmpty_map]
  rw [← apply_ite (List.map f), List.getLast?_map, List.head?_map]
  cases (if (b.latest.filter fun x => Scalar.equal x x).isEmpty then b.latest
    else b.latest.filter fun x => Scalar.equal x x) with
  | nil => rfl
  | cons x xs =>
    cases hlast : (x :: xs).getLast? with
    | none => rfl
    | some first => simp [change_rescale h]

end Monthly

theorem monthlyReturns_rescale (h : Rescaling f) (curve : List (EquityPoint R)) :
    monthlyReturns (curve.map (·.rescale f)) = monthlyReturns curve := by
  unfold monthlyReturns
  rw [Monthly.buckets_rescale, List.map_map]
  exact List.map_congr_left fun b _ => Monthly.result_rescale h b

namespace Performance

/-- Equity and capital counted in another unit, with whatever trades and over whatever period, give the
same figures of a run and the same monthly returns. -/
theorem figures_scale_free (trades : List (Trade ℝ)) (curve : List (EquityPoint ℝ)) (capital : ℝ)
    (start stop : Instant) (firings : Int) {c : ℝ} (hc : 0 < c) :
    metrics trades (curve.map (·.rescale (c * ·))) (c * capital) start stop firings =
        metrics trades curve capital start stop firings ∧
      monthlyReturns (curve.map (·.rescale (c * ·))) = monthlyReturns curve := by
  have h := Scalar.rescaling_mul hc
  exact ⟨metrics_rescale h trades curve capital start stop firings, monthlyReturns_rescale h curve⟩

/-- Three hours of a run: a rise and a fall. -/
noncomputable def riseAndFall : List (EquityPoint ℝ) :=
  [⟨⟨0⟩, 1000⟩, ⟨⟨3600000000⟩, 1100⟩, ⟨⟨7200000000⟩, 990⟩]

/-- In units of a half, the run loses a hundredth of its capital as well, and a tenth of its peak. -/
theorem riseAndFall_in_halves :
    (0 : ℝ) < 1 / 2 ∧
    metrics [] (riseAndFall.map (·.rescale (1 / 2 * ·))) (1 / 2 * 1000) ⟨0⟩ ⟨10800000000⟩ 0 =
      metrics [] riseAndFall 1000 ⟨0⟩ ⟨10800000000⟩ 0 ∧
    monthlyReturns (riseAndFall.map (·.rescale (1 / 2 * ·))) = monthlyReturns riseAndFall ∧
    (metrics [] riseAndFall 1000 ⟨0⟩ ⟨10800000000⟩ 0).totalReturn = -1 ∧
    (metrics [] riseAndFall 1000 ⟨0⟩ ⟨10800000000⟩ 0).maxDrawdown = 10 := by
  have hhalf : (0 : ℝ) < 1 / 2 := by norm_num
  obtain ⟨hmetrics, hmonthly⟩ :=
    figures_scale_free [] riseAndFall 1000 ⟨0⟩ ⟨10800000000⟩ 0 hhalf
  refine ⟨hhalf, hmetrics, hmonthly, ?_, ?_⟩
  · show ((990 - 1000) / 1000 * Scalar.nat 100 : ℝ) = -1
    rw [Scalar.nat_real]
    norm_num
  · show maxDrawdown [1000, 1100, 990] (1000 : ℝ) = 10
    simp only [maxDrawdown, List.foldl_cons, List.foldl_nil, Trough.take, Scalar.larger,
      Scalar.smaller, Scalar.positive, Scalar.less, decline, Scalar.nat_real]
    norm_num

end Performance

end Tradeflow
