/-
  The figures of many runs put together. Medians and percentiles are elements of the returns and
  drawdowns at places in rising order, and the places are in order themselves, so the figures are
  (`Summary`). That asks for nothing but comparisons and for shares that are rounded down to places in
  order, and is shown for any arithmetic once (`exists_summary`).

  In doubles only the means can fail; the figures by rank are there for every number of runs that is
  finite as a double, at the places of a twentieth and nineteen twentieths. In exact arithmetic the means
  are there as well, and between the extremes. Either way the order of the runs makes no difference
  (`Summary.ranks_eq`).
-/
import Mathlib.Algebra.Order.BigOperators.Group.List
import Mathlib.Data.Rat.Floor
import Tradeflow.Proofs.Backtest.ManyRuns
import Tradeflow.Proofs.Number.Shares
import Tradeflow.Proofs.Performance.OrderStatistics
import Tradeflow.Proofs.Validation.ScoreRange

namespace Tradeflow

open Tradeflow.Distribution

variable {R : Type} [Scalar R]

/-- The figures by rank. -/
def MonteCarloResult.ranks (r : MonteCarloResult R) : List R :=
  [r.percentile5Return, r.medianReturn, r.percentile95Return, r.medianDrawdown, r.maxDrawdown]

namespace MonteCarlo

/-- Figures that describe some runs: medians and percentiles are elements in rising order, at the middle
and at two places around it, and the largest drawdown is the maximum. -/
structure Summary (metrics : List (Metrics R)) (low high : Nat) (r : MonteCarloResult R) : Prop where
  runs : r.runs = metrics.length
  places : low ≤ metrics.length / 2 ∧ metrics.length / 2 ≤ high ∧ high < metrics.length
  returns : ∃ rising, Rising rising (metrics.map (·.totalReturn)) ∧
    rising[low]? = some r.percentile5Return ∧
    rising[metrics.length / 2]? = some r.medianReturn ∧
    rising[high]? = some r.percentile95Return
  drawdowns : ∃ rising, Rising rising (metrics.map (·.maxDrawdown)) ∧
    rising[metrics.length / 2]? = some r.medianDrawdown
  maxDrawdown : r.maxDrawdown ∈ metrics.map (·.maxDrawdown) ∧
    ∀ x ∈ metrics.map (·.maxDrawdown), Scalar.atMost x r.maxDrawdown = true
  returns_ordered : ∃ least most, Extremes least most (metrics.map (·.totalReturn)) ∧
    Scalar.atMost least r.percentile5Return = true ∧
    Scalar.atMost r.percentile5Return r.medianReturn = true ∧
    Scalar.atMost r.medianReturn r.percentile95Return = true ∧
    Scalar.atMost r.percentile95Return most = true
  drawdowns_ordered : Scalar.atMost r.medianDrawdown r.maxDrawdown = true

/-- The figures by rank with the means put in, which may fail. -/
def withMeans (metrics : List (Metrics R)) (r : MonteCarloResult R) :
    Except Fault (MonteCarloResult R) :=
  (exactMean (sorted (metrics.map (·.totalReturn)))).bind fun avg =>
    (exactMean (metrics.map (·.sharpeRatio))).map fun sharpe =>
      { r with avgReturn := avg, avgSharpe := sharpe }

section Valued

variable {V : Type} [LinearOrder V] {Numeric : R → Prop} {value : R → V}
  {metrics metrics' : List (Metrics R)}

/-- The figures are there if the shares are, and only the means can fail. -/
theorem exists_summary (hv : Scalar.Valued Numeric value) (hne : metrics ≠ [])
    (hreturns : ∀ x ∈ metrics.map (·.totalReturn), Numeric x)
    (hdrawdowns : ∀ x ∈ metrics.map (·.maxDrawdown), Numeric x) {low high : Nat}
    (hlow : Scalar.floor? (Scalar.nat metrics.length * Scalar.decimal 5 2 : R) = .ok (low : Int))
    (hhigh : Scalar.floor? (Scalar.nat metrics.length * Scalar.decimal 95 2 : R) = .ok (high : Int))
    (hlow_le : low ≤ metrics.length / 2) (hle_high : metrics.length / 2 ≤ high)
    (results : List (BacktestResult R)) :
    ∃ r : MonteCarloResult R, r.results = results ∧
      Summary metrics low (min high (metrics.length - 1)) r ∧
      aggregate metrics results = withMeans metrics r := by
  have hpos : 0 < metrics.length := List.length_pos_iff.2 hne
  have hlength (f : Metrics R → R) : (metrics.map f).length = metrics.length := List.length_map _
  have hrising := sorted_rising hv hreturns
  have hranked := sorted_rising hv hdrawdowns
  obtain ⟨lowReturn, medianReturn, highReturn, hlowReturn, hmedian, hhighReturn, hplaces, hordered⟩ :=
    exists_percentiles hv (hlength _) hpos hreturns hlow hhigh hlow_le hle_high
  obtain ⟨medianDrawdown, hmedian', hmiddle⟩ :=
    exists_median (hranked.perm.length_eq.trans (hlength _)) hpos
  obtain ⟨maxDrawdown, hlargest, hmem, hmost⟩ := exists_largest_sorted hv
    (by rwa [Ne, List.map_eq_nil_iff]) hdrawdowns
  refine ⟨⟨metrics.length, medianReturn, medianReturn, lowReturn, highReturn, medianDrawdown,
    maxDrawdown, medianReturn, results⟩, rfl, ?_, ?_⟩
  · exact
      { runs := rfl
        places := ⟨hlow_le, by omega, by omega⟩
        returns := ⟨_, hrising, hplaces⟩
        drawdowns := ⟨_, hranked, hmiddle⟩
        maxDrawdown := ⟨hmem, hmost⟩
        returns_ordered := hordered
        drawdowns_ordered := hmost _ (hranked.perm.mem_iff.1 (List.mem_of_getElem? hmiddle)) }
  · unfold aggregate withMeans
    dsimp only
    rw [hmedian, hlowReturn, hhighReturn, hmedian', hlargest]
    cases exactMean (sorted (metrics.map (·.totalReturn))) with
    | error f => rfl
    | ok avg => cases exactMean (metrics.map (·.sharpeRatio)) <;> rfl

/-! ## The order of the runs -/

variable {low high : Nat} {r r' : MonteCarloResult R}

/-- Every figure by rank is one of the figures of the runs. -/
theorem Summary.numeric (h : Summary metrics low high r)
    (hreturns : ∀ x ∈ metrics.map (·.totalReturn), Numeric x)
    (hdrawdowns : ∀ x ∈ metrics.map (·.maxDrawdown), Numeric x) : ∀ x ∈ r.ranks, Numeric x := by
  obtain ⟨rising, hrising, hlow, hmiddle, hhigh⟩ := h.returns
  obtain ⟨rising', hrising', hmiddle'⟩ := h.drawdowns
  have hreturn : ∀ {i : Nat} {x : R}, rising[i]? = some x → Numeric x := fun hx =>
    hreturns _ (hrising.perm.mem_iff.1 (List.mem_of_getElem? hx))
  have hdrawdown : Numeric r.medianDrawdown :=
    hdrawdowns _ (hrising'.perm.mem_iff.1 (List.mem_of_getElem? hmiddle'))
  simp only [MonteCarloResult.ranks, List.forall_mem_cons, List.not_mem_nil, false_implies,
    implies_true, and_true]
  exact ⟨hreturn hlow, hreturn hmiddle, hreturn hhigh, hdrawdown, hdrawdowns _ h.maxDrawdown.1⟩

/-- The same runs in another order have the same figures by rank, as far as values go. -/
theorem Summary.ranks_eq (hv : Scalar.Valued Numeric value) (h : Summary metrics low high r)
    (h' : Summary metrics' low high r') (hperm : metrics.Perm metrics')
    (hreturns : ∀ x ∈ metrics.map (·.totalReturn), Numeric x)
    (hdrawdowns : ∀ x ∈ metrics.map (·.maxDrawdown), Numeric x) :
    r.ranks.map value = r'.ranks.map value := by
  obtain ⟨rising, hrising, hlow, hmiddle, hhigh⟩ := h.returns
  obtain ⟨rising', hrising', hlow', hmiddle', hhigh'⟩ := h'.returns
  obtain ⟨ranked, hranked, hcenter⟩ := h.drawdowns
  obtain ⟨ranked', hranked', hcenter'⟩ := h'.drawdowns
  have hreturn := fun {i : Nat} {x y : R} => hrising.value_eq hv hrising' (hperm.map _) hreturns
    (i := i) (x := x) (y := y)
  rw [← hperm.length_eq] at hmiddle' hcenter'
  have hdrawdown := hranked.value_eq hv hranked' (hperm.map _) hdrawdowns hcenter hcenter'
  have hmem := (hperm.map (·.maxDrawdown)).mem_iff.2 h'.maxDrawdown.1
  have hmem' := (hperm.map (·.maxDrawdown)).mem_iff.1 h.maxDrawdown.1
  have hnumeric := hdrawdowns _ h.maxDrawdown.1
  have hnumeric' := hdrawdowns _ hmem
  have hmax : value r.maxDrawdown = value r'.maxDrawdown :=
    le_antisymm ((hv.atMost hnumeric hnumeric').1 (h'.maxDrawdown.2 _ hmem'))
      ((hv.atMost hnumeric' hnumeric).1 (h.maxDrawdown.2 _ hmem))
  simp only [MonteCarloResult.ranks, List.map_cons, List.map_nil, hreturn hlow hlow',
    hreturn hmiddle hmiddle', hreturn hhigh hhigh', hdrawdown, hmax]

/-- They are equal one by one, zeros of both signs included. -/
theorem Summary.ranks_equal (hv : Scalar.Valued Numeric value) (h : Summary metrics low high r)
    (h' : Summary metrics' low high r') (hperm : metrics.Perm metrics')
    (hreturns : ∀ x ∈ metrics.map (·.totalReturn), Numeric x)
    (hdrawdowns : ∀ x ∈ metrics.map (·.maxDrawdown), Numeric x) :
    List.Forall₂ (fun x y => Scalar.equal x y = true) r.ranks r'.ranks :=
  hv.forall₂_equal (h.numeric hreturns hdrawdowns)
    (h'.numeric (fun x hx => hreturns x ((hperm.map _).mem_iff.2 hx))
      fun x hx => hdrawdowns x ((hperm.map _).mem_iff.2 hx))
    (h.ranks_eq hv h' hperm hreturns hdrawdowns)

end Valued

/-! ## Means -/

/-- A mean of exact numbers lies between the extremes. -/
theorem mean_between {xs : List Rat} {least most : Rat} (h : Extremes least most xs) :
    least ≤ xs.sum / xs.length ∧ xs.sum / xs.length ≤ most := by
  have hpos : (0 : Rat) < xs.length := Nat.cast_pos.2 (List.length_pos_of_mem h.least_mem)
  rw [le_div_iff₀ hpos, div_le_iff₀ hpos, mul_comm least, mul_comm most, ← nsmul_eq_mul, ← nsmul_eq_mul]
  exact ⟨List.card_nsmul_le_sum _ _ fun x hx => of_decide_eq_true (h.between x hx).1,
    List.sum_le_card_nsmul _ _ fun x hx => of_decide_eq_true (h.between x hx).2⟩

theorem exactMean_rat (xs : List Rat) : exactMean xs = .ok (xs.sum / xs.length) := rfl

theorem withMeans_rat (metrics : List (Metrics Rat)) (r : MonteCarloResult Rat) :
    withMeans metrics r = .ok { r with
      avgReturn := (metrics.map (·.totalReturn)).sum / metrics.length,
      avgSharpe := (metrics.map (·.sharpeRatio)).sum / metrics.length } := by
  have hperm : (sorted (metrics.map (·.totalReturn))).Perm (metrics.map (·.totalReturn)) :=
    (sorted_rising Rational.valued fun _ _ => trivial).perm
  rw [withMeans, exactMean_rat, exactMean_rat, hperm.sum_eq, hperm.length_eq, List.length_map,
    List.length_map]
  rfl

/-- A share in exact numbers, rounded down. -/
theorem floor_share_rat (n digits places : Nat) :
    Scalar.floor? (Scalar.nat n * Scalar.decimal digits places : Rat) =
      .ok ((digits * n / 10 ^ places : Nat) : Int) := by
  have hshare : (n * (digits / 10 ^ places) : Rat) = ((digits * n : Nat) : Rat) / (10 ^ places : Nat) := by
    push_cast
    ring
  show Except.ok (n * (digits / 10 ^ places) : Rat).floor = _
  rw [hshare]
  exact congrArg Except.ok (Rat.floor_natCast_div_natCast _ _)

/-- The figures by rank of exact numbers are there, at a twentieth and at nineteen of them. -/
theorem exists_summary_rat {metrics : List (Metrics Rat)} (hne : metrics ≠ [])
    (results : List (BacktestResult Rat)) :
    ∃ r : MonteCarloResult Rat, r.results = results ∧
      Summary metrics (metrics.length / 20)
        (min (19 * metrics.length / 20) (metrics.length - 1)) r ∧
      aggregate metrics results = withMeans metrics r := by
  have hlow := floor_share_rat metrics.length 5 2
  have hhigh := floor_share_rat metrics.length 95 2
  rw [show 5 * metrics.length / 10 ^ 2 = metrics.length / 20 by omega] at hlow
  rw [show 95 * metrics.length / 10 ^ 2 = 19 * metrics.length / 20 by omega] at hhigh
  exact exists_summary Rational.valued hne (fun _ _ => trivial) (fun _ _ => trivial) hlow hhigh
    (by omega) (by omega) results

/-! ## Doubles -/

/-- Every return and every drawdown of some runs is a number. -/
def AllNumbers (metrics : List (Metrics Float)) : Prop :=
  ∀ m ∈ metrics, Double.IsNumber m.totalReturn ∧ Double.IsNumber m.maxDrawdown

instance (metrics : List (Metrics Float)) : Decidable (AllNumbers metrics) :=
  inferInstanceAs (Decidable (∀ m ∈ metrics, _))

theorem exists_summary_float {metrics : List (Metrics Float)} (hne : metrics ≠ [])
    (hnumbers : AllNumbers metrics) (hfinite : Double.isFinite (Float.ofNat metrics.length) = true) :
    ∃ low high : Nat,
      Double.floor (Float.ofNat metrics.length * Scalar.decimal 5 2) = .ok (low : Int) ∧
      Double.floor (Float.ofNat metrics.length * Scalar.decimal 95 2) = .ok (high : Int) ∧
      (metrics.length < 2 ^ 46 →
        low = metrics.length / 20 ∧ high = 19 * metrics.length / 20) ∧
      ∀ results, ∃ r : MonteCarloResult Float, r.results = results ∧
        Summary metrics low (min high (metrics.length - 1)) r ∧
        aggregate metrics results = withMeans metrics r := by
  have hpos : 0 < metrics.length := List.length_pos_iff.2 hne
  obtain ⟨low, hlow, hlow_le, hsmall⟩ := Double.floor_twentieth hpos hfinite
  obtain ⟨high, hhigh, hle_high, hsmall'⟩ := Double.floor_nineteenTwentieths hpos hfinite
  refine ⟨low, high, hlow, hhigh, fun h => ⟨hsmall h, hsmall' h⟩, fun results => ?_⟩
  exact exists_summary Double.valued hne (List.forall_mem_map.2 fun m hm => (hnumbers m hm).1)
    (List.forall_mem_map.2 fun m hm => (hnumbers m hm).2) hlow hhigh hlow_le hle_high results

/-- So many runs that their number is infinite as a double leave no place for a percentile. -/
theorem aggregate_of_not_finite {metrics : List (Metrics Float)} (hnumbers : AllNumbers metrics)
    (h : Double.isFinite (Float.ofNat metrics.length) = false) (results : List (BacktestResult Float)) :
    ∃ f, aggregate metrics results = .error f := by
  have hrising := sorted_rising Double.valued
    (List.forall_mem_map.2 fun m hm => (hnumbers m hm).1)
  have hlength : (sorted (metrics.map (·.totalReturn))).length = metrics.length := by
    rw [hrising.perm.length_eq, List.length_map]
  obtain ⟨f, hfloor, -⟩ := Double.floor_of_not_finite (Double.not_finite_share h)
  have hlow : percentile (sorted (metrics.map (·.totalReturn))) (Scalar.decimal 5 2) = .error f := by
    have hplace : Scalar.floor? (Scalar.nat metrics.length * Scalar.decimal 5 2 : Float) = .error f :=
      hfloor
    rw [percentile, hlength, hplace]
  unfold aggregate
  dsimp only
  rw [hlow]
  cases median (sorted (metrics.map (·.totalReturn))) with
  | error f => exact ⟨f, rfl⟩
  | ok middle =>
    cases exactMean (sorted (metrics.map (·.totalReturn))) with
    | error f => exact ⟨f, rfl⟩
    | ok avg => exact ⟨f, rfl⟩

/-! ## Both arithmetics -/

/-- Figures are the same if they are by rank and as means. -/
theorem eq_of_ranks_eq {R : Type} {r r' : MonteCarloResult R} (hruns : r.runs = r'.runs)
    (hranks : r.ranks = r'.ranks) (havg : r.avgReturn = r'.avgReturn)
    (hsharpe : r.avgSharpe = r'.avgSharpe) (hresults : r.results = r'.results) : r = r' := by
  obtain ⟨runs, median, avg, low, high, medianDrawdown, maxDrawdown, sharpe, results⟩ := r
  obtain ⟨runs', median', avg', low', high', medianDrawdown', maxDrawdown', sharpe', results'⟩ := r'
  simp only [MonteCarloResult.ranks, List.cons.injEq, and_true] at hranks
  obtain ⟨rfl, rfl, rfl, rfl, rfl⟩ := hranks
  cases hruns
  cases havg
  cases hsharpe
  cases hresults
  rfl

/-- Of runs in another order, exact figures are the same. -/
theorem aggregate_perm_rat {results results' : List (BacktestResult Rat)} (hne : results ≠ [])
    (hperm : results'.Perm results) {r : MonteCarloResult Rat}
    (h : aggregate (results.map (·.metrics)) results = .ok r) :
    aggregate (results'.map (·.metrics)) results' = .ok { r with results := results' } := by
  have hmetrics : (results'.map (·.metrics)).Perm (results.map (·.metrics)) := hperm.map _
  have hne' : results' ≠ [] := fun hnil => hne (List.Perm.eq_nil (hnil ▸ hperm.symm))
  have hne₁ : results.map (·.metrics) ≠ [] := by rwa [Ne, List.map_eq_nil_iff]
  have hne₁' : results'.map (·.metrics) ≠ [] := by rwa [Ne, List.map_eq_nil_iff]
  obtain ⟨s, hs, hsummary, haggregate⟩ := exists_summary_rat hne₁ results
  obtain ⟨s', hs', hsummary', haggregate'⟩ := exists_summary_rat hne₁' results'
  rw [hmetrics.length_eq] at hsummary'
  have hranks := hsummary'.ranks_eq Rational.valued hsummary hmetrics (fun _ _ => trivial)
    (fun _ _ => trivial)
  rw [List.map_id, List.map_id] at hranks
  rw [haggregate, withMeans_rat] at h
  cases h
  rw [haggregate', withMeans_rat]
  have hmean (f : Metrics Rat → Rat) :
      ((results'.map (·.metrics)).map f).sum / (results'.map (·.metrics)).length =
        ((results.map (·.metrics)).map f).sum / (results.map (·.metrics)).length := by
    rw [(hmetrics.map f).sum_eq, hmetrics.length_eq]
  refine congrArg Except.ok (eq_of_ranks_eq ?_ hranks (hmean _) (hmean _) hs')
  show s'.runs = s.runs
  rw [hsummary.runs, hsummary'.runs, hmetrics.length_eq]

/-- Of runs in another order, doubles by rank are equal. -/
theorem aggregate_perm_float {results results' : List (BacktestResult Float)} (hne : results ≠ [])
    (hnumbers : AllNumbers (results.map (·.metrics)))
    (hfinite : Double.isFinite (Float.ofNat results.length) = true) (hperm : results'.Perm results)
    {low high : Nat} {r : MonteCarloResult Float}
    (hlow : Double.floor (Float.ofNat results.length * Scalar.decimal 5 2) = .ok (low : Int))
    (hhigh : Double.floor (Float.ofNat results.length * Scalar.decimal 95 2) = .ok (high : Int))
    (hsummary : Summary (results.map (·.metrics)) low (min high (results.length - 1)) r) :
    ∃ r' : MonteCarloResult Float, r'.results = results' ∧ r'.runs = r.runs ∧
      List.Forall₂ (fun x y => Scalar.equal x y = true) r'.ranks r.ranks ∧
      aggregate (results'.map (·.metrics)) results' = withMeans (results'.map (·.metrics)) r' := by
  have hmetrics : (results'.map (·.metrics)).Perm (results.map (·.metrics)) := hperm.map _
  have hlength : (results'.map (·.metrics)).length = results.length := by
    rw [List.length_map, hperm.length_eq]
  have hne' : results' ≠ [] := fun hnil => hne (List.Perm.eq_nil (hnil ▸ hperm.symm))
  have hnumbers' : AllNumbers (results'.map (·.metrics)) := fun m hm =>
    hnumbers m (hmetrics.mem_iff.1 hm)
  obtain ⟨low', high', hlow', hhigh', -, hfigures⟩ := exists_summary_float
    (by rwa [Ne, List.map_eq_nil_iff]) hnumbers' (by rwa [hlength])
  obtain ⟨r', hresults, hsummary', haggregate⟩ := hfigures results'
  rw [hlength] at hlow' hhigh' hsummary'
  obtain rfl : low' = low := Int.ofNat_inj.1 (Except.ok.inj (hlow'.symm.trans hlow))
  obtain rfl : high' = high := Int.ofNat_inj.1 (Except.ok.inj (hhigh'.symm.trans hhigh))
  refine ⟨r', hresults, ?_, ?_, haggregate⟩
  · rw [hsummary'.runs, hsummary.runs, hmetrics.length_eq]
  · exact hsummary'.ranks_equal Double.valued hsummary hmetrics
      (List.forall_mem_map.2 fun m hm => (hnumbers' m hm).1)
      (List.forall_mem_map.2 fun m hm => (hnumbers' m hm).2)

/-- Returns, drawdowns and risk-adjusted returns of some runs, put together.

In doubles, as long as no return and no drawdown is NaN: the percentiles are the returns at a twentieth
and at nineteen twentieths of the number of runs, both taken in doubles and rounded down, and at the last
place at most; the medians are the figures in the middle; the largest drawdown is the maximum. These
places are in order, so the figures are. Only the means can fail, unless the number of runs is infinite
as a double. In another order of the runs, figures by rank are equal.

In exact arithmetic there are all of them, the mean of the returns lies between the extremes, and nothing
changes in another order but the list of the runs itself. -/
theorem aggregate_order_statistics :
    (∀ results : List (BacktestResult Float), results ≠ [] → AllNumbers (results.map (·.metrics)) →
      (Double.isFinite (Float.ofNat results.length) = false →
        ∃ f, aggregate (results.map (·.metrics)) results = .error f) ∧
      (Double.isFinite (Float.ofNat results.length) = true →
        ∃ (low high : Nat) (r : MonteCarloResult Float),
          Double.floor (Float.ofNat results.length * Scalar.decimal 5 2) = .ok (low : Int) ∧
          Double.floor (Float.ofNat results.length * Scalar.decimal 95 2) = .ok (high : Int) ∧
          (results.length < 2 ^ 46 → low = results.length / 20 ∧ high = 19 * results.length / 20) ∧
          r.results = results ∧
          Summary (results.map (·.metrics)) low (min high (results.length - 1)) r ∧
          aggregate (results.map (·.metrics)) results = withMeans (results.map (·.metrics)) r ∧
          ∀ results', results'.Perm results → ∃ r' : MonteCarloResult Float,
            r'.results = results' ∧ r'.runs = r.runs ∧
            List.Forall₂ (fun x y => Scalar.equal x y = true) r'.ranks r.ranks ∧
            aggregate (results'.map (·.metrics)) results' = withMeans (results'.map (·.metrics)) r')) ∧
    ∀ results : List (BacktestResult Rat), results ≠ [] →
      ∃ r : MonteCarloResult Rat, aggregate (results.map (·.metrics)) results = .ok r ∧
        r.results = results ∧
        Summary (results.map (·.metrics)) (results.length / 20)
          (min (19 * results.length / 20) (results.length - 1)) r ∧
        (∃ least most, Extremes least most (results.map (·.metrics.totalReturn)) ∧
          least ≤ r.avgReturn ∧ r.avgReturn ≤ most) ∧
        r.avgReturn = (results.map (·.metrics.totalReturn)).sum / results.length ∧
        r.avgSharpe = (results.map (·.metrics.sharpeRatio)).sum / results.length ∧
        ∀ results', results'.Perm results →
          aggregate (results'.map (·.metrics)) results' = .ok { r with results := results' } := by
  constructor
  · intro results hne hnumbers
    have hmetrics : results.map (·.metrics) ≠ [] := by rwa [Ne, List.map_eq_nil_iff]
    constructor
    · intro hinfinite
      exact aggregate_of_not_finite hnumbers (by rwa [List.length_map]) results
    · intro hfinite
      obtain ⟨low, high, hlow, hhigh, hsmall, hfigures⟩ :=
        exists_summary_float hmetrics hnumbers (by rwa [List.length_map])
      obtain ⟨r, hresults, hsummary, haggregate⟩ := hfigures results
      rw [List.length_map] at hlow hhigh hsmall hsummary
      exact ⟨low, high, r, hlow, hhigh, hsmall, hresults, hsummary, haggregate, fun results' hperm =>
        aggregate_perm_float hne hnumbers hfinite hperm hlow hhigh hsummary⟩
  · intro results hne
    have hmetrics : results.map (·.metrics) ≠ [] := by rwa [Ne, List.map_eq_nil_iff]
    obtain ⟨r, hresults, hsummary, haggregate⟩ := exists_summary_rat hmetrics results
    obtain ⟨least, most, hextremes, -⟩ := hsummary.returns_ordered
    rw [List.length_map] at hsummary
    rw [withMeans_rat, List.length_map, List.map_map, List.map_map] at haggregate
    rw [List.map_map] at hextremes
    have hbetween := mean_between hextremes
    rw [List.length_map] at hbetween
    exact ⟨_, haggregate, hresults, { hsummary with }, ⟨least, most, hextremes, hbetween⟩, rfl, rfl,
      fun results' hperm => aggregate_perm_rat hne hperm haggregate⟩

/-- A run of which only the figures that are put together are told. -/
def runOf (change drawdown : R) : BacktestResult R where
  id := "r"
  strategyId := "s"
  config := Engine.oneHour
  startedAt := ⟨0⟩
  completedAt := ⟨0⟩
  status := .completed
  metrics := ⟨change, Scalar.nat 0, Scalar.nat 0, Scalar.nat 0, drawdown, Scalar.nat 0, Scalar.nat 0, 0,
    Scalar.nat 0, Scalar.nat 0, Scalar.nat 0, 0⟩
  trades := []
  equityCurve := []
  drawdownCurve := []
  monthlyReturns := []

theorem sorted_gain_and_loss :
    sorted [2, -1] = [-1, (2 : Float)] ∧ sorted [-1, 2] = [-1, (2 : Float)] := by
  constructor
  · rw [sorted, if_pos (by decide +kernel), Engine.mergeSort_pair, if_neg (by decide +kernel)]
  · rw [sorted, if_pos (by decide +kernel), Engine.mergeSort_pair, if_pos (by decide +kernel)]

theorem exists_exactMean (xs : List Float) (h : (exactMean xs).toBool = true) :
    ∃ mean, exactMean xs = .ok mean := by
  cases hmean : exactMean xs with
  | error f =>
    rw [hmean] at h
    cases h
  | ok mean => exact ⟨mean, rfl⟩

/-- The means of the two runs do not fail. -/
theorem exists_withMeans {metrics : List (Metrics Float)} {returns : List Float}
    (hreturns : metrics.map (·.totalReturn) = returns) (hsorted : sorted returns = [-1, 2])
    (hsharpe : metrics.map (·.sharpeRatio) = [Scalar.nat 0, Scalar.nat 0]) (r : MonteCarloResult Float) :
    ∃ avg sharpe, withMeans metrics r = .ok { r with avgReturn := avg, avgSharpe := sharpe } := by
  obtain ⟨avg, havg⟩ := exists_exactMean [-1, 2] (by decide +kernel)
  obtain ⟨sharpe, hmean⟩ := exists_exactMean [Scalar.nat 0, Scalar.nat 0] (by decide +kernel)
  refine ⟨avg, sharpe, ?_⟩
  rw [withMeans, hreturns, hsorted, hsharpe, havg, hmean]
  rfl

/-- A gain of two percent and a loss of one, in either order: equal figures in doubles, and the same ones
in exact arithmetic, with a mean of a half. -/
theorem gain_and_loss :
    (∃ r r' : MonteCarloResult Float,
      aggregate ([runOf 2 1, runOf (-1) 3].map (·.metrics)) [runOf 2 1, runOf (-1) 3] = .ok r ∧
      aggregate ([runOf (-1) 3, runOf 2 1].map (·.metrics)) [runOf (-1) 3, runOf 2 1] = .ok r' ∧
      r.runs = 2 ∧ List.Forall₂ (fun x y => Scalar.equal x y = true) r'.ranks r.ranks ∧
      Scalar.atMost r.percentile5Return r.medianReturn = true ∧
      Scalar.atMost r.medianReturn r.percentile95Return = true) ∧
    ∃ r : MonteCarloResult Rat,
      aggregate ([runOf 2 1, runOf (-1) 3].map (·.metrics)) [runOf 2 1, runOf (-1) 3] = .ok r ∧
      aggregate ([runOf (-1) 3, runOf 2 1].map (·.metrics)) [runOf (-1) 3, runOf 2 1] =
        .ok { r with results := [runOf (-1) 3, runOf 2 1] } ∧
      r.avgReturn = 1 / 2 := by
  constructor
  · obtain ⟨-, hfinite⟩ := aggregate_order_statistics.1 [runOf 2 1, runOf (-1) 3]
      (List.cons_ne_nil _ _) (by decide +kernel)
    obtain ⟨low, high, r, -, -, -, -, hsummary, haggregate, hperm⟩ := hfinite (by decide +kernel)
    obtain ⟨r', -, -, hequal, haggregate'⟩ := hperm [runOf (-1) 3, runOf 2 1] (List.Perm.swap ..)
    have hgain : ([runOf 2 1, runOf (-1) 3].map (·.metrics) : List (Metrics Float)).map
        (·.totalReturn) = [2, -1] := rfl
    have hloss : ([runOf (-1) 3, runOf 2 1].map (·.metrics) : List (Metrics Float)).map
        (·.totalReturn) = [-1, 2] := rfl
    obtain ⟨avg, sharpe, hmeans⟩ := exists_withMeans hgain sorted_gain_and_loss.1 rfl r
    obtain ⟨avg', sharpe', hmeans'⟩ := exists_withMeans hloss sorted_gain_and_loss.2 rfl r'
    obtain ⟨least, most, -, -, hlow, hhigh, -⟩ := hsummary.returns_ordered
    exact ⟨_, _, haggregate.trans hmeans, haggregate'.trans hmeans', hsummary.runs, hequal,
      hlow, hhigh⟩
  · obtain ⟨r, haggregate, -, -, -, hmean, -, hperm⟩ := aggregate_order_statistics.2
      [runOf 2 1, runOf (-1) 3] (List.cons_ne_nil _ _)
    refine ⟨r, haggregate, hperm _ (List.Perm.swap ..), ?_⟩
    rw [hmean]
    decide +kernel

end MonteCarlo

end Tradeflow
