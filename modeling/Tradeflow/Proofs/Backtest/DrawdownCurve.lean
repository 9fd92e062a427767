/-
  The drawdown curve of a run and the largest drawdown among its figures. A run keeps a peak of its own
  and records at every tick how far the equity is below it, cut off at 0 and 100; the figure is computed
  afterwards from the equity curve, and is cut off once. Both start from the initial capital, so both see
  the same peaks and the same falls (`falls`), and what is left to show is that cutting off at the end is
  as good as cutting off at every tick.

  With doubles this needs that no fall is incomparable. From finite values and a finite capital, a fall
  is the positive zero or above it, infinity included: a difference from a positive peak, divided by it
  (`upward_fall`). Of such numbers the larger one can be picked before or after the cut.

  `maxDrawdown_tops_curve`: every point of the curve lies between 0 and 100, and the figure is the largest
  of them, or zero where there is none.
-/
import Tradeflow.Proofs.Backtest.Foresight
import Tradeflow.Proofs.Backtest.Stopping
import Tradeflow.Proofs.Number.Extent

namespace Tradeflow

/-! ## Falls from the peak -/

namespace Performance

variable {R : Type} [Scalar R]

/-- The decline from a peak in percent; zero from one that is not positive. -/
def fall (peak value : R) : R :=
  if Scalar.positive peak then decline peak value else Scalar.nat 0

/-- The falls to values from the peaks up to them. -/
def falls (peak : R) : List R → List R
  | [] => []
  | v :: vs => fall (Scalar.larger peak v) v :: falls (Scalar.larger peak v) vs

/-- A figure in percent, none above 100. -/
def capped (x : R) : R := Scalar.smaller x (Scalar.nat 100)

end Performance

namespace Double

open Performance

theorem upward_fall {peak value : Float} (hpeak : isFinite peak = true)
    (hvalue : isFinite value = true) (h : Scalar.less peak value = false) :
    Upward (fall peak value) := by
  unfold fall
  split
  case isTrue hpositive =>
    have hhundred : isFinite (Scalar.nat 100) = true ∧ Scalar.positive (Scalar.nat 100 : Float) = true := by
      decide +kernel
    have hquotient := (upward_sub hpeak hvalue hpositive h).div hpeak hpositive
    exact hquotient.mul hhundred.1 hhundred.2
  case isFalse => exact upward_zero

theorem upward_falls (values : List Float) : ∀ {peak : Float}, isFinite peak = true →
    (∀ v ∈ values, isFinite v = true) → ∀ f ∈ falls peak values, Upward f := by
  induction values with
  | nil => exact fun _ _ f hf => absurd hf List.not_mem_nil
  | cons v values ih =>
    intro peak hpeak hvalues
    obtain ⟨hv, hrest⟩ := List.forall_mem_cons.1 hvalues
    have hlarger := isFinite_larger hpeak hv
    refine List.forall_mem_cons.2 ⟨upward_fall hlarger hv (not_larger_less _ hv), ?_⟩
    exact ih hlarger hrest

/-! ## The larger before and after the cut -/

theorem upward_hundred : Upward (Scalar.nat 100) := upward_of_positive (by decide +kernel)

theorem Upward.capped {x : Float} (hx : Upward x) :
    Upward (capped x) ∧ extent (Performance.capped x) = min (extent x) (extent (Scalar.nat 100)) :=
  hx.smaller upward_hundred

/-- A loop that starts from zero loses nothing where a peak is not positive. -/
theorem foldl_take_worst (values : List Float) : ∀ {t : Trough Float}, isFinite t.peak = true →
    (∀ v ∈ values, isFinite v = true) → Upward t.worst →
    (values.foldl Trough.take t).worst = (falls t.peak values).foldl Scalar.larger t.worst := by
  induction values with
  | nil => exact fun _ _ _ => rfl
  | cons v values ih =>
    intro t hpeak hvalues hworst
    obtain ⟨hv, hrest⟩ := List.forall_mem_cons.1 hvalues
    have hlarger := isFinite_larger hpeak hv
    have hfall := upward_fall hlarger hv (not_larger_less _ hv)
    have hstep : (t.take v).worst = Scalar.larger t.worst (fall (Scalar.larger t.peak v) v) := by
      simp only [Trough.take, fall]
      split
      · rfl
      · exact hworst.larger_zero.symm
    have hworst' : Upward (t.take v).worst := by
      rw [hstep]
      exact (hworst.larger hfall).1
    have hloop := ih (t := t.take v) hlarger hrest hworst'
    rw [List.foldl_cons, hloop, hstep]
    rfl

/-- The figure is the largest of the falls with a cap, or zero. -/
theorem maxDrawdown_falls {values : List Float} {peak : Float} (hpeak : isFinite peak = true)
    (hvalues : ∀ v ∈ values, isFinite v = true) :
    (values = [] → maxDrawdown values peak = Scalar.nat 0) ∧
    (values ≠ [] → maxDrawdown values peak ∈ (falls peak values).map capped) ∧
    ∀ d ∈ (falls peak values).map capped, Scalar.atMost (Scalar.nat 0) d = true ∧
      Scalar.atMost d (Scalar.nat 100) = true ∧
      Scalar.atMost d (maxDrawdown values peak) = true := by
  have hfalls := upward_falls values hpeak hvalues
  have hworst : maxDrawdown values peak =
      capped ((falls peak values).foldl Scalar.larger (Scalar.nat 0)) := by
    have hloop := foldl_take_worst values (t := ⟨peak, Scalar.nat 0⟩) hpeak hvalues upward_zero
    dsimp only at hloop
    unfold maxDrawdown
    dsimp only
    rw [hloop, capped]
  obtain ⟨hupward, hmem, hmost⟩ := foldl_larger _ upward_zero hfalls
  generalize (falls peak values).foldl Scalar.larger (Scalar.nat 0) = worst at *
  refine ⟨?_, fun hne => ?_, fun d hd => ?_⟩
  · rintro rfl
    rw [hworst, List.mem_singleton.1 hmem]
    decide +kernel
  · rw [hworst]
    refine List.mem_map_of_mem ?_
    rcases List.mem_cons.1 hmem with hzero | hmem
    · -- No fall is above zero, so the first one is zero too.
      obtain ⟨v, values, rfl⟩ := List.exists_cons_of_ne_nil hne
      have hfirst := hfalls _ List.mem_cons_self
      have hle := hmost _ (List.mem_cons_of_mem _ List.mem_cons_self)
      rw [hzero] at hle ⊢
      rw [← hfirst.eq_zero]
      · exact List.mem_cons_self
      · rw [Bool.eq_false_iff]
        intro hpositive
        exact absurd ((upward_zero.less_iff hfirst).1 hpositive) (not_lt.2 hle)
    · exact hmem
  · obtain ⟨f, hf, rfl⟩ := List.mem_map.1 hd
    obtain ⟨hcapped, hextent⟩ := (hfalls f hf).capped
    obtain ⟨hcapped', hextent'⟩ := hupward.capped
    refine ⟨hcapped.zero_le, ?_, ?_⟩
    · rw [hcapped.atMost_iff upward_hundred, hextent]
      exact min_le_right _ _
    · rw [hworst, hcapped.atMost_iff hcapped', hextent, hextent']
      exact min_le_min_right _ (hmost f (List.mem_cons_of_mem _ hf))

end Double

/-! ## Runs -/

namespace Backtest

open Performance Double

section Trace

variable {R : Type} [Scalar R] {config : EngineConfig} {plan : Plan} {s s' : State R}
  {ticks : List (PriceTick R)} {steps : List (Step R)}

/-- What a run records of the falls of its equity from its peak. -/
def recorded (x : R) : R := capped (Scalar.larger x (Scalar.nat 0))

/-- The drawdowns of a trace are the falls of its equity from the peak it started with. -/
theorem Trace.drawdowns (h : Trace config plan s ticks steps s') :
    steps.map (·.drawdown.drawdown) = (falls s.peak (steps.map (·.equity.value))).map recorded := by
  induction h with
  | nil => rfl
  | @cons s s' s'' t step ticks steps first rest ih =>
    obtain ⟨fired, hticked⟩ := tick_cases first
    have hpoint : step.drawdown.drawdown = recorded (fall s'.peak step.equity.value) := by
      rw [hticked.drawdown]
      rfl
    rw [List.map_cons, ih, hpoint, hticked.peak]
    rfl

/-- The figure of a run is read off its curve, if there is any. -/
theorem maxDrawdown_metrics {trades : List (Trade R)} {curve : List (EquityPoint R)} {capital : R}
    {start stop : Instant} {firings : Int} (hne : curve ≠ []) :
    (metrics trades curve capital start stop firings).maxDrawdown =
      maxDrawdown (curve.map (·.value)) capital := by
  have hlast : (curve.map (·.value)).getLast? ≠ none := by simp [hne]
  obtain ⟨final, hfinal⟩ := Option.ne_none_iff_exists'.1 hlast
  unfold metrics
  rw [hfinal]

end Trace

/-- A run with finite equity and a finite initial capital, also one that was stopped. Every point of its
drawdown curve lies between 0 and 100, and the largest drawdown among its figures is the largest of these
points, or zero if there is none. -/
theorem maxDrawdown_tops_curve {sim : Simulator} {watch : Watch} {entropy : Nat} {strategy : Strategy}
    {cfg : SimulationConfig} {o : Outcome Float} (h : run Float sim watch entropy strategy cfg = .ok o)
    (hcapital : isFinite cfg.initialCapital = true)
    (hvalues : ∀ p ∈ o.equityCurve, isFinite p.value = true) :
    (∀ p ∈ o.drawdownCurve, Scalar.atMost (Scalar.nat 0) p.drawdown = true ∧
      Scalar.atMost p.drawdown (Scalar.nat 100) = true) ∧
    (o.drawdownCurve = [] → o.metrics.maxDrawdown = Scalar.nat 0) ∧
    (o.drawdownCurve ≠ [] → (∃ p ∈ o.drawdownCurve, p.drawdown = o.metrics.maxDrawdown) ∧
      ∀ p ∈ o.drawdownCurve, Scalar.atMost p.drawdown o.metrics.maxDrawdown = true) := by
  obtain ⟨seeded, ticks, g, p, -, -, hreplay, rfl⟩ := run_cases h
  obtain ⟨-, htrace⟩ := trace_of_replay hreplay
  have hfinite : ∀ v ∈ p.steps.map (·.equity.value), isFinite v = true := by
    intro v hv
    obtain ⟨step, hstep, rfl⟩ := List.mem_map.1 hv
    exact hvalues _ (List.mem_map_of_mem hstep)
  have hfalls := upward_falls _ hcapital hfinite
  have hcurve : p.steps.map (·.drawdown.drawdown) =
      (falls cfg.initialCapital (p.steps.map (·.equity.value))).map capped := by
    rw [htrace.drawdowns]
    exact List.map_congr_left fun f hf => congrArg capped (hfalls f hf).larger_zero
  obtain ⟨hnone, hsome, hbounds⟩ := maxDrawdown_falls hcapital hfinite
  rw [← hcurve] at hsome hbounds
  have hpoint : ∀ q ∈ (p.outcome cfg).drawdownCurve, q.drawdown ∈
      p.steps.map (·.drawdown.drawdown) := by
    intro q hq
    obtain ⟨step, hstep, rfl⟩ := List.mem_map.1 hq
    exact List.mem_map_of_mem hstep
  have hempty : ∀ {steps : List (Step Float)}, steps.map (·.drawdown) = [] ↔ steps = [] :=
    List.map_eq_nil_iff
  refine ⟨fun q hq => ?_, fun hnil => ?_, fun hne => ?_⟩
  · obtain ⟨hlow, hhigh, -⟩ := hbounds _ (hpoint q hq)
    exact ⟨hlow, hhigh⟩
  · show (metrics _ (p.steps.map (·.equity)) _ _ _ _).maxDrawdown = _
    rw [hempty.1 hnil]
    rfl
  · have hsteps : p.steps ≠ [] := mt hempty.2 hne
    have hmetrics : (p.outcome cfg).metrics.maxDrawdown =
        maxDrawdown (p.steps.map (·.equity.value)) cfg.initialCapital := by
      refine (maxDrawdown_metrics (mt List.map_eq_nil_iff.1 hsteps)).trans ?_
      rw [List.map_map]
      rfl
    rw [hmetrics]
    refine ⟨?_, fun q hq => (hbounds _ (hpoint q hq)).2.2⟩
    obtain ⟨step, hstep, hmax⟩ := List.mem_map.1 (hsome (by simpa using hsteps))
    exact ⟨step.drawdown, List.mem_map_of_mem hstep, hmax⟩

/-- The price halves: the run loses almost half of its capital in the second hour, and that is the point
that the figure stands for. -/
theorem fall_tops_curve :
    ∃ o : Outcome Float,
      run Float ⟨.standard, .empty, some (twoBars 1)⟩ .idle 0 buyHourly twoHours = .ok o ∧
      (o.equityCurve.all fun p => isFinite p.value) = true ∧
      Scalar.positive o.metrics.maxDrawdown = true ∧
      (∃ p ∈ o.drawdownCurve, p.drawdown = o.metrics.maxDrawdown) ∧
      ∀ p ∈ o.drawdownCurve, Scalar.atMost p.drawdown o.metrics.maxDrawdown = true := by
  obtain ⟨o, hrun, hfigures⟩ : ∃ o : Outcome Float,
      run Float ⟨.standard, .empty, some (twoBars 1)⟩ .idle 0 buyHourly twoHours = .ok o ∧
      ((o.equityCurve.all fun p => isFinite p.value), Scalar.positive o.metrics.maxDrawdown,
        o.drawdownCurve.length) = (true, true, 2) :=
    Except.exists_of_map (by decide +kernel)
  obtain ⟨hfinite, hfigures⟩ := Prod.mk.inj hfigures
  obtain ⟨hpositive, hlength⟩ := Prod.mk.inj hfigures
  obtain ⟨-, -, hlargest⟩ := maxDrawdown_tops_curve hrun (by decide +kernel)
    (fun p hp => List.all_eq_true.1 hfinite p hp)
  obtain ⟨hpoint, hmost⟩ := hlargest (by
    intro hnil
    rw [hnil] at hlength
    cases hlength)
  exact ⟨o, hrun, hfinite, hpositive, hpoint, hmost⟩

end Backtest

end Tradeflow
