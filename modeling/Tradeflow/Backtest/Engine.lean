/-
  The engine: a simulator with a cache. Single backtests may be answered from the cache; runs that
  belong to many, or that were stopped, are neither taken from it nor put into it. Quick checks and
  estimates are backtests over the time up to now.
-/
import Tradeflow.Backtest.Cache
import Tradeflow.Backtest.MonteCarlo
import Tradeflow.Performance.Metrics

namespace Tradeflow

/-- The time and the randomness that a call is given. -/
structure Occasion where
  now : Instant
  entropy : Nat
  watch : Watch

structure Engine (R : Type) where
  sim : Simulator
  cache : Cache R
  /-- How many results were made. -/
  issued : Nat

namespace Engine

variable {R : Type} [Scalar R]

def start (sim : Simulator) : Engine R := ⟨sim, .empty, 0⟩

/-- A result for the outcome of a run. -/
def file (serial : Nat) (o : Occasion) (strategy : Strategy) (run : SimulationConfig)
    (outcome : Backtest.Outcome R) : BacktestResult R where
  id := "run_" ++ String.ofList (Text.hexPadded 12 serial)
  strategyId := strategy.id
  config := run
  startedAt := o.now
  completedAt := o.now
  status := outcome.status
  metrics := outcome.metrics
  trades := outcome.trades
  equityCurve := outcome.equityCurve
  drawdownCurve := outcome.drawdownCurve
  monthlyReturns := outcome.monthlyReturns

/-- Runs a strategy without the cache. -/
def compute (sim : Simulator) (serial : Nat) (o : Occasion) (strategy : Strategy)
    (run : SimulationConfig) : Except Fault (BacktestResult R) :=
  (Backtest.run R sim o.watch o.entropy strategy run).map (file serial o strategy run)

/-- The cached result of a call, if the call may use one. -/
def lookup (e : Engine R) (useCache : Bool) (strategy : Strategy) (run : SimulationConfig) :
    Option (BacktestResult R) :=
  if e.sim.config.enableCache && useCache then e.cache.get? (.of strategy run) else none

/-- Keeps the result of a call, if the call may and the run was completed. -/
def store (e : Engine R) (useCache : Bool) (strategy : Strategy) (run : SimulationConfig)
    (r : BacktestResult R) : Engine R :=
  if e.sim.config.enableCache && useCache && r.status == .completed then
    { e with cache := e.cache.put (.of strategy run) r }
  else e

/-- Runs a backtest, or answers from the cache. -/
def backtest (e : Engine R) (o : Occasion) (useCache : Bool) (strategy : Strategy)
    (run : SimulationConfig) : Except Fault (BacktestResult R × Engine R) :=
  match e.lookup useCache strategy run with
  | some r => .ok (r, e)
  | none =>
    match compute e.sim e.issued o strategy run with
    | .error f => .error f
    | .ok r => .ok (r, { e with issued := e.issued + 1 }.store useCache strategy run r)

/-- Runs each of some configurations without the cache. -/
def computeAll (sim : Simulator) (o : Occasion) (strategy : Strategy) :
    (serial : Nat) → List SimulationConfig → Except Fault (List (BacktestResult R))
  | _, [] => .ok []
  | serial, run :: runs =>
    match compute sim serial o strategy run with
    | .error f => .error f
    | .ok r => (computeAll sim o strategy (serial + 1) runs).map (r :: ·)

/-- How many runs are made: as many as asked for, else as the configuration or the engine say. -/
def runCount (e : Engine R) (run : SimulationConfig) (runs : Option Int) : Int :=
  match runs, run.monteCarloRuns with
  | some n, _ => n
  | none, some n => if n = 0 then e.sim.config.defaultMonteCarloRuns else n
  | none, none => e.sim.config.defaultMonteCarloRuns

/-- Runs a strategy in many markets. -/
def monteCarlo (e : Engine R) (o : Occasion) (strategy : Strategy) (run : SimulationConfig)
    (runs seed : Option Int) : Except Fault (MonteCarloResult R × Engine R) :=
  let count := e.runCount run runs
  if count ≤ 0 then .error .runsNotPositive
  else
    match MonteCarlo.drawConfigs run count (seed.or run.seed) o.entropy with
    | .error f => .error f
    | .ok configs =>
      match computeAll e.sim { o with watch := o.watch.clockOnly } strategy e.issued configs with
      | .error f => .error f
      | .ok results =>
        match MonteCarlo.aggregate (results.map (·.metrics)) results with
        | .error f => .error f
        | .ok r => .ok (r, { e with issued := e.issued + results.length })

/-- The configuration of a run over the days and hours up to now. -/
def trailing (now : Instant) (hours : Int) (capital : Float) (seed : Option Int) :
    Except Fault SimulationConfig :=
  let days := Int.fdiv hours 24
  if 999999999 < days ∨ days < -999999999 then .error (.tooManyDays days)
  else
    let start := now.micros - hours * microsPerHour
    if Instant.inRange start then .ok
      { startDate := ⟨start⟩, endDate := now, initialCapital := capital
        priceDataSource := .historical, slippageModel := .realistic, gasModel := .historical
        marketConditions := none, monteCarloRuns := none, seed := seed }
    else .error (.date .outOfRange)

/-- The capital of a quick check. -/
def sandboxCapital : Float := 1000

/-- What a quick check tells of a backtest. -/
def quickReport (r : BacktestResult R) : SandboxResult R where
  success := true
  trades := r.trades.length
  finalEquity :=
    match r.equityCurve.getLast? with
    | some p => p.value
    | none => Scalar.ofFloat sandboxCapital
  pnl := r.metrics.totalReturn
  issues := r.metrics.issues (r.trades.map (·.slippage))

/-- Checks a strategy quickly over the hours up to now. -/
def sandbox (e : Engine R) (o : Occasion) (strategy : Strategy) (hours : Int) (seed : Option Int) :
    Except Fault (SandboxResult R × Engine R) :=
  if hours ≤ 0 then .error .durationNotPositive
  else
    match trailing o.now hours sandboxCapital seed with
    | .error f => .error f
    | .ok run =>
      match e.backtest o true strategy run with
      | .error f => .error f
      | .ok (r, e) => .ok (quickReport r, e)

/-- The days that an estimate looks back over. -/
def horizonDays? : String → Option Int
  | "short" => some 7
  | "medium" => some 30
  | "long" => some 90
  | _ => none

/-- The runs that an estimate makes. -/
def estimateRuns : Int := 50

/-- The capital of an estimate. -/
def estimateCapital : Float := 10000

/-- The backtest over a horizon that an estimate begins with, and its configuration. -/
def estimateBacktest (e : Engine R) (o : Occasion) (strategy : Strategy) (horizon : String)
    (seed : Option Int) : Except Fault (SimulationConfig × BacktestResult R × Engine R) :=
  match horizonDays? horizon with
  | none => .error (.unknownHorizon horizon)
  | some days =>
    match trailing o.now (days * 24) estimateCapital seed with
    | .error f => .error f
    | .ok run => (e.backtest o true strategy run).map (run, ·)

/-- Estimates how a strategy performs over a horizon. -/
def estimate (e : Engine R) (o : Occasion) (strategy : Strategy) (horizon : String)
    (seed : Option Int) : Except Fault (PerformanceEstimate R × Engine R) :=
  match e.estimateBacktest o strategy horizon seed with
  | .error f => .error f
  | .ok (run, b, e) =>
    match e.monteCarlo o strategy run (some estimateRuns) seed with
    | .error f => .error f
    | .ok (m, e) => .ok (
      { expectedReturn := m.medianReturn
        bestCase := m.percentile95Return
        worstCase := m.percentile5Return
        confidence := b.metrics.confidence m.percentile5Return m.percentile95Return
        sharpeRatio := b.metrics.sharpeRatio
        maxDrawdown := b.metrics.maxDrawdown
        winRate := b.metrics.winRate }, e)

/-- The engine after an estimate. The backtest that it began with stays, also if the runs that came
after it failed. -/
def afterEstimate (e : Engine R) (o : Occasion) (strategy : Strategy) (horizon : String)
    (seed : Option Int) : Engine R :=
  match e.estimateBacktest o strategy horizon seed with
  | .error _ => e
  | .ok (run, _, e) =>
    match e.monteCarlo o strategy run (some estimateRuns) seed with
    | .error _ => e
    | .ok (_, e) => e

end Engine

end Tradeflow
