/-
  Runs in many markets, each compared with a backtest of its own. The configuration of a run is drawn
  from the master seed and the number of the run alone, so a smaller number of runs draws the first of
  those that a larger one does (`drawConfigs_take`), and it has the market and the seed of the run in
  place of those it was drawn from (`drawn_drawConfig`).
  A run whose configuration has a seed depends on nothing else but what its watch says
  (`run_alike`), and leaves the same but for the name of its result and the times it was made at:
  results are compared without these marks (`BacktestResult.unmarked`).
  `runs_independent`: the figures of many runs are those of as many backtests on their own, on whatever
  engine with the same simulator and whatever its cache holds.
-/
import Tradeflow.Proofs.Backtest.History
import Tradeflow.Proofs.Backtest.Stopping
import Tradeflow.Proofs.Interchange.Behaviour
import Tradeflow.Proofs.Random.Draws

namespace Tradeflow

/-! ## What is drawn -/

namespace MonteCarlo

open Tradeflow.Random

/-- The retries are never used up. -/
theorem retries_enough {g : Generator} (h : g.Fit) (more : Nat) :
    g.belowThree (retries + more) = g.belowThree retries := by
  have hretries : retries = 9 + 119 := rfl
  rw [hretries, Nat.add_assoc, Generator.belowThree_enough h, Generator.belowThree_enough h]

end MonteCarlo

/-- A configuration in place of another one: for a synthetic market in one of the regimes there are,
with a seed of 32 bits. -/
def SimulationConfig.DrawnFrom (c base : SimulationConfig) : Prop :=
  ∃ volatility trend liquidity seed : Nat,
    volatility < 3 ∧ trend < 3 ∧ liquidity < 3 ∧ seed < 2 ^ 32 ∧
    c = { base with
      priceDataSource := .synthetic
      marketConditions := some ⟨MonteCarlo.pick .low .medium .high volatility,
        MonteCarlo.pick .bull .bear .sideways trend,
        MonteCarlo.pick .low .medium .high liquidity⟩
      seed := some seed }

namespace MonteCarlo

open Tradeflow.Random

/-- A market is drawn from the three of each kind, and a seed of 32 bits after it. -/
theorem exists_drawMarket {g : Generator} (h : g.Fit) :
    ∃ volatility trend liquidity seed : Nat,
      volatility < 3 ∧ trend < 3 ∧ liquidity < 3 ∧ seed < 2 ^ 32 ∧
      drawMarket g = (⟨pick .low .medium .high volatility, pick .bull .bear .sideways trend,
        pick .low .medium .high liquidity⟩, seed) := by
  unfold drawMarket
  obtain ⟨hvolatility, hfit⟩ := Generator.belowThree_lt h retries
  generalize g.belowThree retries = first at hvolatility hfit ⊢
  obtain ⟨volatility, g⟩ := first
  obtain ⟨htrend, hfit⟩ := Generator.belowThree_lt hfit retries
  dsimp only at htrend hfit ⊢
  generalize g.belowThree retries = second at htrend hfit ⊢
  obtain ⟨trend, g⟩ := second
  obtain ⟨hliquidity, hfit⟩ := Generator.belowThree_lt hfit retries
  dsimp only at hliquidity hfit ⊢
  generalize g.belowThree retries = third at hliquidity hfit ⊢
  obtain ⟨liquidity, g⟩ := third
  exact ⟨volatility, trend, liquidity, _, hvolatility, htrend, hliquidity,
    (Generator.next32_lt hfit).1, rfl⟩

theorem drawn_drawConfig (base : SimulationConfig) (master i : Nat) :
    (drawConfig base master i).DrawnFrom base := by
  obtain ⟨volatility, trend, liquidity, seed, hvolatility, htrend, hliquidity, hseed, hmarket⟩ :=
    exists_drawMarket (Generator.fit_ofSeed (Seed.child ⟨master, []⟩ i))
  refine ⟨volatility, trend, liquidity, seed, hvolatility, htrend, hliquidity, hseed, ?_⟩
  rw [drawConfig, hmarket]

/-- The configurations of some runs, drawn from a master seed. -/
theorem drawConfigs_seed (base : SimulationConfig) (n master entropy : Nat) :
    drawConfigs base n (some (master : Int)) entropy =
      .ok ((List.range n).map (drawConfig base master)) := by
  unfold drawConfigs
  dsimp only
  rw [if_neg (Int.not_lt.2 (Int.natCast_nonneg master))]
  dsimp only
  rw [if_neg (Int.not_lt.2 (Int.natCast_nonneg n)), Int.toNat_natCast, Int.toNat_natCast]

theorem drawConfigs_take (base : SimulationConfig) (master : Nat) {n m : Nat} (hle : n ≤ m) :
    (List.range n).map (drawConfig base master) =
      ((List.range m).map (drawConfig base master)).take n := by
  rw [← List.map_take, List.take_range, Nat.min_eq_left hle]

end MonteCarlo

variable {R : Type} [Scalar R]

/-! ## What a run depends on -/

/-- Two watches that stop a run before the same ticks for the same reasons. -/
def Watch.Alike (limit : Float) (w w' : Watch) : Prop :=
  ∀ index, w.cancelled index = w'.cancelled index ∧
    (limit < w.elapsed index ↔ limit < w'.elapsed index)

namespace Backtest

theorem replay_alike {config : EngineConfig} {w w' : Watch}
    (h : w.Alike config.maxDurationSeconds w') (plan : Plan) (index : Nat) (s : State R)
    (ticks : List (PriceTick R)) :
    replay config plan w index s ticks = replay config plan w' index s ticks := by
  induction ticks generalizing index s with
  | nil => rfl
  | cons t ticks ih =>
    obtain ⟨hcancelled, helapsed⟩ := h index
    rw [replay, replay, hcancelled, if_congr helapsed rfl rfl]
    simp only [ih]

/-- A run with a seed depends on its watch, but not on the entropy at hand. -/
theorem run_alike {sim : Simulator} {w w' : Watch} (h : w.Alike sim.config.maxDurationSeconds w')
    {cfg : SimulationConfig} {seed : Int} (hseed : cfg.seed = some seed) (entropy entropy' : Nat)
    (s : Strategy) : run R sim w entropy s cfg = run R sim w' entropy' s cfg := by
  unfold run
  simp only [generatorOf_seed hseed entropy entropy', replay_alike h]

end Backtest

/-- A result without its name and the times at which it was made. -/
def BacktestResult.unmarked (r : BacktestResult R) : BacktestResult R :=
  { r with id := "", startedAt := ⟨0⟩, completedAt := ⟨0⟩ }

/-- The figures of many runs with their results unmarked. -/
def MonteCarloResult.unmarked (r : MonteCarloResult R) : MonteCarloResult R :=
  { r with results := r.results.map (·.unmarked) }

namespace Engine

/-- What a backtest of its own gives, without the cache and without marks. -/
def alone (e : Engine R) (o : Occasion) (s : Strategy) (cfg : SimulationConfig) :
    Except Fault (BacktestResult R) :=
  (e.backtest o false s cfg).map (·.1.unmarked)

/-- Without marks, a run is what a backtest of its own gives. -/
theorem compute_unmarked {e : Engine R} {o o' : Occasion}
    (halike : o.watch.Alike e.sim.config.maxDurationSeconds o'.watch) {cfg : SimulationConfig}
    {seed : Int} (hseed : cfg.seed = some seed) (serial : Nat) (s : Strategy) :
    (compute e.sim serial o s cfg).map BacktestResult.unmarked = e.alone o' s cfg := by
  rw [alone, backtest_uncached, compute, compute,
    Backtest.run_alike halike hseed o.entropy o'.entropy]
  cases Backtest.run R e.sim o'.watch o'.entropy s cfg <;> rfl

theorem computeAll_unmarked {e : Engine R} {o o' : Occasion}
    (halike : o.watch.Alike e.sim.config.maxDurationSeconds o'.watch) {cfgs : List SimulationConfig}
    (hseeds : ∀ cfg ∈ cfgs, ∃ seed : Int, cfg.seed = some seed) (serial : Nat) (s : Strategy) :
    (computeAll e.sim o s serial cfgs).map (List.map BacktestResult.unmarked) =
      cfgs.mapM (e.alone o' s) := by
  induction cfgs generalizing serial with
  | nil => rfl
  | cons cfg cfgs ih =>
    obtain ⟨⟨seed, hseed⟩, hrest⟩ := List.forall_mem_cons.1 hseeds
    rw [List.mapM_cons, ← compute_unmarked halike hseed serial s, ← ih hrest (serial + 1), computeAll]
    cases (compute e.sim serial o s cfg : Except Fault (BacktestResult R)) with
    | error f => rfl
    | ok r =>
      dsimp only
      cases (computeAll e.sim o s (serial + 1) cfgs : Except Fault (List (BacktestResult R))) <;> rfl

/-- The figures of results do not depend on their marks. -/
theorem aggregate_unmarked (results : List (BacktestResult R)) :
    (MonteCarlo.aggregate (results.map (·.metrics)) results).map MonteCarloResult.unmarked =
      MonteCarlo.aggregate ((results.map BacktestResult.unmarked).map (·.metrics))
        (results.map BacktestResult.unmarked) := by
  have hmetrics : (results.map BacktestResult.unmarked).map (·.metrics) =
      results.map (·.metrics) := by
    rw [List.map_map]
    rfl
  rw [hmetrics]
  unfold MonteCarlo.aggregate
  show MonteCarloResult.unmarked <$> (_ : Except Fault (MonteCarloResult R)) = _
  simp only [map_bind, map_pure]
  rfl

/-- Many runs, as many as asked for and drawn from a seed. -/
theorem monteCarlo_of_seed (e : Engine R) (o : Occasion) (s : Strategy) (base : SimulationConfig)
    {n : Nat} (hpos : 0 < n) (master : Nat) :
    e.monteCarlo o s base (some n) (some (master : Int)) =
      (computeAll e.sim { o with watch := o.watch.clockOnly } s e.issued
        ((List.range n).map (MonteCarlo.drawConfig base master))).bind fun results =>
          (MonteCarlo.aggregate (results.map (·.metrics)) results).map fun r =>
            (r, { e with issued := e.issued + results.length }) := by
  unfold monteCarlo
  rw [runCount]
  dsimp only
  rw [if_neg (by omega), Option.some_or, MonteCarlo.drawConfigs_seed]
  dsimp only
  cases (computeAll e.sim { o with watch := o.watch.clockOnly } s e.issued
      ((List.range n).map (MonteCarlo.drawConfig base master)) :
      Except Fault (List (BacktestResult R))) with
  | error f => rfl
  | ok results =>
    dsimp only [Except.bind]
    cases MonteCarlo.aggregate (results.map (·.metrics)) results <;> rfl

/-- The number of runs and the seed may as well come from the configuration or the engine. -/
theorem monteCarlo_of_defaults (e : Engine R) (o : Occasion) (s : Strategy) {base : SimulationConfig}
    {runs seed : Option Int} {n master : Int} (hruns : e.runCount base runs = n)
    (hseed : seed.or base.seed = some master) :
    e.monteCarlo o s base runs seed = e.monteCarlo o s base (some n) (some master) := by
  unfold monteCarlo
  rw [hruns, hseed]
  rfl

/-- Without marks, many runs give the figures of as many backtests on their own, or the fault of the
first of these that fails. -/
theorem monteCarlo_alone {e e₁ : Engine R} {o o₁ : Occasion} (hsim : e₁.sim = e.sim)
    (halike : o.watch.clockOnly.Alike e.sim.config.maxDurationSeconds o₁.watch) (s : Strategy)
    (base : SimulationConfig) {n : Nat} (hpos : 0 < n) (master : Nat) :
    (e.monteCarlo o s base (some n) (some (master : Int))).map (·.1.unmarked) =
      (((List.range n).map (MonteCarlo.drawConfig base master)).mapM (e₁.alone o₁ s)).bind fun bs =>
        MonteCarlo.aggregate (bs.map (·.metrics)) bs := by
  have hseeds : ∀ cfg ∈ (List.range n).map (MonteCarlo.drawConfig base master),
      ∃ seed : Int, cfg.seed = some seed :=
    List.forall_mem_map.2 fun i _ => ⟨_, rfl⟩
  rw [← hsim] at halike
  rw [monteCarlo_of_seed e o s base hpos master, ← hsim,
    ← computeAll_unmarked (o := { o with watch := o.watch.clockOnly }) halike hseeds e.issued s]
  cases (computeAll e₁.sim { o with watch := o.watch.clockOnly } s e.issued
      ((List.range n).map (MonteCarlo.drawConfig base master)) :
      Except Fault (List (BacktestResult R))) with
  | error f => rfl
  | ok results =>
    dsimp only [Except.bind, Except.map]
    rw [← aggregate_unmarked]
    cases MonteCarlo.aggregate (results.map (·.metrics)) results <;> rfl

theorem map_of_mapM {α β : Type} {f : α → Except Fault β} {xs : List α} {ys : List β}
    (h : xs.mapM f = .ok ys) : xs.map f = ys.map .ok := by
  induction xs generalizing ys with
  | nil =>
    cases h
    rfl
  | cons x xs ih =>
    rw [List.mapM_cons] at h
    obtain ⟨y, hy, h⟩ := exists_of_bind h
    obtain ⟨rest, hrest, h⟩ := exists_of_bind h
    cases h
    rw [List.map_cons, List.map_cons, hy, ih hrest]

/-- Without marks, the results of many runs are those of backtests on their own. -/
theorem results_alone {e e' e₁ : Engine R} {o o₁ : Occasion} (hsim : e₁.sim = e.sim)
    (halike : o.watch.clockOnly.Alike e.sim.config.maxDurationSeconds o₁.watch) {s : Strategy}
    {base : SimulationConfig} {n : Nat} (hpos : 0 < n) {master : Nat} {r : MonteCarloResult R}
    (h : e.monteCarlo o s base (some n) (some (master : Int)) = .ok (r, e')) :
    (r.results.map BacktestResult.unmarked).map .ok =
      ((List.range n).map (MonteCarlo.drawConfig base master)).map (e₁.alone o₁ s) := by
  have hfigures := monteCarlo_alone hsim halike s base hpos master
  rw [h] at hfigures
  obtain ⟨bs, hbs, hfigures⟩ := exists_of_bind hfigures.symm
  have hresults : r.results.map BacktestResult.unmarked = bs := results_aggregate hfigures
  rw [hresults, map_of_mapM hbs]

/-- Many runs, drawn from a base configuration and a master seed. Fewer runs are the first of more runs,
each is drawn from the base, and the answer, be it figures or a fault, is what as many backtests on
their own lead to. So the results of fewer runs are the first of those of more runs, whatever else the
engines have answered, and no run changes what an engine's cache holds. -/
theorem runs_independent (base : SimulationConfig) (master n m entropy entropy' : Nat) (hpos : 0 < n)
    (hle : n ≤ m) :
    ∃ drawn longer : List SimulationConfig,
      MonteCarlo.drawConfigs base n (some (master : Int)) entropy = .ok drawn ∧
      MonteCarlo.drawConfigs base m (some (master : Int)) entropy' = .ok longer ∧
      longer.length = m ∧ drawn = longer.take n ∧ (∀ c ∈ longer, c.DrawnFrom base) ∧
      ∀ (e : Engine R) (o : Occasion) (s : Strategy),
        (e.after (.monteCarlo o s base (some n) (some (master : Int)))).cache = e.cache ∧
        ∀ (e₁ : Engine R) (o₁ : Occasion), e₁.sim = e.sim →
          o.watch.clockOnly.Alike e.sim.config.maxDurationSeconds o₁.watch →
          (e.monteCarlo o s base (some n) (some (master : Int))).map (·.1.unmarked) =
            ((drawn.mapM (e₁.alone o₁ s)).bind fun bs =>
              MonteCarlo.aggregate (bs.map (·.metrics)) bs) ∧
          ∀ r e', e.monteCarlo o s base (some n) (some (master : Int)) = .ok (r, e') →
            (r.results.map BacktestResult.unmarked).map .ok = drawn.map (e₁.alone o₁ s) ∧
            ∀ r₁ e₁', e₁.monteCarlo o₁ s base (some m) (some (master : Int)) = .ok (r₁, e₁') →
              r.results.map BacktestResult.unmarked =
                (r₁.results.map BacktestResult.unmarked).take n := by
  refine ⟨_, _, MonteCarlo.drawConfigs_seed base n master entropy,
    MonteCarlo.drawConfigs_seed base m master entropy', ?_, MonteCarlo.drawConfigs_take base master hle,
    ?_, fun e o s => ⟨(after_of_none e rfl).2, fun e₁ o₁ hsim halike => ?_⟩⟩
  · rw [List.length_map, List.length_range]
  · exact List.forall_mem_map.2 fun i _ => MonteCarlo.drawn_drawConfig base master i
  refine ⟨monteCarlo_alone hsim halike s base hpos master, fun r e' h => ?_⟩
  have hfewer := results_alone hsim halike hpos h
  refine ⟨hfewer, fun r₁ e₁' h₁ => ?_⟩
  -- the watch of the other occasion never cancels, so its clock alone is no other watch
  have hclock : o₁.watch.clockOnly.Alike e₁.sim.config.maxDurationSeconds o₁.watch := fun index =>
    ⟨(halike index).1, Iff.rfl⟩
  have hmore := results_alone (rfl : e₁.sim = e₁.sim) hclock (Nat.lt_of_lt_of_le hpos hle) h₁
  rw [MonteCarlo.drawConfigs_take base master hle, List.map_take, ← hmore, ← List.map_take] at hfewer
  exact List.map_injective_iff.2 (fun _ _ => Except.ok.inj) hfewer

/-- The engine that has answered a backtest of the hour. -/
def afterOneHour : Engine Float :=
  (start ⟨.standard, .core, none⟩ : Engine Float).after
    (.backtest ⟨⟨⟨0⟩, 0, .idle⟩, true, pair hourly halfSwap, oneHour⟩)

/-- The two runs of the hour that the seed seven gives. -/
def twoRuns : List SimulationConfig := (List.range 2).map (MonteCarlo.drawConfig oneHour 7)

/-- What the figures of many runs are made of. -/
def figures (b : BacktestResult Float) : Float × Float × Float :=
  (b.metrics.totalReturn, b.metrics.maxDrawdown, b.metrics.sharpeRatio)

/-- The swap loses something in both of the runs. -/
def twoLosses : List (Float × Float × Float) :=
  [(-0.04633850065411025, 0.04633850065411025, 0), (-0.49576887378989337, 0.49576887378989337, 0)]

theorem mergeSort_pair {α : Type} (le : α → α → Bool) (x y : α) :
    [x, y].mergeSort le = if le x y then [x, y] else [y, x] := by
  simp [List.mergeSort, List.MergeSort.Internal.splitInTwo, List.merge]

theorem exists_aggregate_twoRuns {results : List (BacktestResult Float)}
    (h : results.map figures = twoLosses) :
    ∃ r, MonteCarlo.aggregate (results.map (·.metrics)) results = .ok r ∧ r.runs = 2 := by
  have hlength := congrArg List.length h
  have hreturns := congrArg (List.map (·.1)) h
  have hdrawdowns := congrArg (List.map (·.2.1)) h
  have hsharpe := congrArg (List.map (·.2.2)) h
  simp only [figures, twoLosses, List.map_map, List.map_cons, List.map_nil, List.length_map,
    List.length_cons, List.length_nil, Function.comp_def] at hlength hreturns hdrawdowns hsharpe
  refine Except.exists_of_map ?_
  unfold MonteCarlo.aggregate
  simp only [List.map_map, List.length_map, Function.comp_def, hlength, hreturns, hdrawdowns, hsharpe,
    Distribution.sorted, mergeSort_pair]
  show (MonteCarloResult.runs <$> (_ : Except Fault (MonteCarloResult Float))).toOption = _
  simp only [map_bind, map_pure]
  decide +kernel

/-- One run on that engine is the first of two runs on a new one. -/
theorem one_run_of_two :
    ∃ (r r₁ : MonteCarloResult Float) (e' e₁' : Engine Float),
      afterOneHour.cache.size = 1 ∧
      afterOneHour.monteCarlo ⟨⟨1⟩, 5, .idle⟩ (pair hourly halfSwap) oneHour (some (1 : Nat))
        (some (7 : Nat)) = .ok (r, e') ∧
      (start ⟨.standard, .core, none⟩).monteCarlo ⟨⟨0⟩, 0, .idle⟩ (pair hourly halfSwap) oneHour
        (some (2 : Nat)) (some (7 : Nat)) = .ok (r₁, e₁') ∧
      r.results.length = 1 ∧ r₁.runs = 2 ∧
      r.results.map BacktestResult.unmarked = (r₁.results.map BacktestResult.unmarked).take 1 := by
  obtain ⟨⟨r, e'⟩, hone, hlength⟩ : ∃ made,
      afterOneHour.monteCarlo ⟨⟨1⟩, 5, .idle⟩ (pair hourly halfSwap) oneHour (some (1 : Nat))
        (some (7 : Nat)) = .ok made ∧ made.1.results.length = 1 :=
    Except.exists_of_map (by decide +kernel)
  obtain ⟨results, htwo, hfigures⟩ : ∃ results : List (BacktestResult Float),
      computeAll ⟨.standard, .core, none⟩ ⟨⟨0⟩, 0, Watch.idle.clockOnly⟩ (pair hourly halfSwap) 0
        twoRuns = .ok results ∧
      results.map figures = twoLosses :=
    Except.exists_of_map (by decide +kernel)
  obtain ⟨r₁, hr₁, hruns₁⟩ := exists_aggregate_twoRuns hfigures
  obtain ⟨e₁', htwo₁⟩ : ∃ e₁', (start ⟨.standard, .core, none⟩ : Engine Float).monteCarlo
      ⟨⟨0⟩, 0, .idle⟩ (pair hourly halfSwap) oneHour (some (2 : Nat)) (some (7 : Nat)) =
        .ok (r₁, e₁') := by
    rw [monteCarlo_of_seed _ _ _ _ Nat.two_pos]
    show ∃ e₁', (computeAll ⟨.standard, .core, none⟩ ⟨⟨0⟩, 0, Watch.idle.clockOnly⟩
      (pair hourly halfSwap) 0 twoRuns).bind _ = .ok (r₁, e₁')
    rw [htwo]
    show ∃ e₁', (MonteCarlo.aggregate (results.map (·.metrics)) results).map _ = .ok (r₁, e₁')
    rw [hr₁]
    exact ⟨_, rfl⟩
  obtain ⟨_, _, -, -, -, -, -, hruns⟩ :=
    runs_independent (R := Float) oneHour 7 1 2 0 0 Nat.one_pos (Nat.le_succ 1)
  have hsim : afterOneHour.sim = ⟨.standard, .core, none⟩ := sim_after _ _
  obtain ⟨-, hanswer⟩ := hruns afterOneHour ⟨⟨1⟩, 5, .idle⟩ (pair hourly halfSwap)
  obtain ⟨-, hresults⟩ := hanswer (start ⟨.standard, .core, none⟩) ⟨⟨0⟩, 0, .idle⟩ hsim.symm
    fun _ => ⟨rfl, Iff.rfl⟩
  exact ⟨r, r₁, e', e₁', by decide +kernel, hone, htwo₁, hlength, hruns₁,
    (hresults r e' hone).2 r₁ e₁' htwo₁⟩

end Engine

end Tradeflow
