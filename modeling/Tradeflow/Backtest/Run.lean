/-
  One run: a plan replayed over the ticks of a price series. At each tick the triggers are asked; if one
  fires, the actions are executed; then equity and drawdown are recorded. The run stops before a tick
  when it is cancelled or its time is up, and what was recorded so far stands.
-/
import Tradeflow.Backtest.Action
import Tradeflow.Backtest.Result
import Tradeflow.Backtest.Trigger
import Tradeflow.Performance.Monthly

namespace Tradeflow

open Tradeflow.Random

/-- What runs are made with. -/
structure Simulator where
  config : EngineConfig
  catalog : Catalog
  feed : Option PriceFeed

/-- What is asked before each tick, given how many came before: whether the run was cancelled, and the
seconds since it began. -/
structure Watch where
  cancelled : Nat → Bool
  elapsed : Nat → Float

/-- Never cancelled, and no time passes. -/
def Watch.idle : Watch := ⟨fun _ => false, fun _ => 0⟩

/-- The same clock without the cancelling. -/
def Watch.clockOnly (w : Watch) : Watch := ⟨fun _ => false, w.elapsed⟩

namespace Backtest

variable {R : Type} [Scalar R]

/-- The state of a run between ticks. -/
structure State (R : Type) where
  action : Action.State R
  clocks : Trigger.Clocks
  previous : Assoc R
  firings : Nat
  peak : R

def State.start (capital : R) (g : Generator) : State R :=
  ⟨⟨.start capital, Scalar.nat 0, g, 0⟩, [], [], 0, capital⟩

/-- What one tick leaves behind. -/
structure Step (R : Type) where
  trades : List (Trade R)
  equity : EquityPoint R
  drawdown : DrawdownPoint R

/-- The decline from the peak in percent, kept between 0 and 100. -/
def drawdownOf (peak equity : R) : R :=
  let raw := if Scalar.positive peak then Performance.decline peak equity else Scalar.nat 0
  Scalar.smaller (Scalar.larger raw (Scalar.nat 0)) (Scalar.nat 100)

/-- One tick. -/
def tick (config : EngineConfig) (plan : Plan) (s : State R) (t : PriceTick R) :
    Except Fault (State R × Step R) :=
  let view : Trigger.View R := ⟨config.defaultPrices, t, s.previous, s.action.ledger⟩
  match Trigger.anyFires view s.clocks plan.triggers with
  | .error e => .error e
  | .ok (fired, clocks) =>
    let done :=
      if fired then Action.executeAll ⟨config.quoteToken, config.defaultPrices, t⟩ s.action plan.actions
      else .ok (s.action, [])
    match done with
    | .error e => .error e
    | .ok (action, trades) =>
      let equity := action.ledger.equity config.defaultPrices t
      let peak := Scalar.larger s.peak equity
      .ok (⟨action, clocks, t.prices, if fired then s.firings + 1 else s.firings, peak⟩,
        ⟨trades, ⟨t.timestamp, equity⟩, ⟨t.timestamp, drawdownOf peak equity⟩⟩)

/-- How a sequence of ticks ended. -/
structure Progress (R : Type) where
  state : State R
  steps : List (Step R)
  status : BacktestStatus

/-- Replays ticks until they end or the run is stopped. -/
def replay (config : EngineConfig) (plan : Plan) (watch : Watch) :
    (index : Nat) → State R → List (PriceTick R) → Except Fault (Progress R)
  | _, s, [] => .ok ⟨s, [], .completed⟩
  | i, s, t :: ts =>
    if watch.cancelled i then .ok ⟨s, [], .cancelled⟩
    else if config.maxDurationSeconds < watch.elapsed i then .ok ⟨s, [], .timedOut⟩
    else
      match tick config plan s t with
      | .error e => .error e
      | .ok (s, step) =>
        match replay config plan watch (i + 1) s ts with
        | .error e => .error e
        | .ok p => .ok { p with steps := step :: p.steps }

/-- What a run leaves behind. -/
structure Outcome (R : Type) where
  status : BacktestStatus
  metrics : Metrics R
  trades : List (Trade R)
  equityCurve : List (EquityPoint R)
  drawdownCurve : List (DrawdownPoint R)
  monthlyReturns : List (MonthlyReturn R)

/-- The outcome of a run that made some progress. -/
def Progress.outcome (run : SimulationConfig) (p : Progress R) : Outcome R :=
  let trades := p.steps.flatMap (·.trades)
  let curve := p.steps.map (·.equity)
  { status := p.status
    metrics := Performance.metrics trades curve (Scalar.ofFloat run.initialCapital) run.startDate
      run.endDate p.state.firings
    trades := trades
    equityCurve := curve
    drawdownCurve := p.steps.map (·.drawdown)
    monthlyReturns := monthlyReturns curve }

/-- The generator of a run. A run without a seed takes the entropy it is given. -/
def generatorOf (run : SimulationConfig) (entropy : Nat) : Except Fault Generator :=
  match run.seed with
  | none => .ok (Generator.ofSeed ⟨entropy, []⟩)
  | some n => if n < 0 then .error .negativeSeed else .ok (Generator.ofSeed ⟨n.toNat, []⟩)

/-- Runs a strategy once. -/
def run (R : Type) [Scalar R] (sim : Simulator) (watch : Watch) (entropy : Nat)
    (strategy : Strategy) (run : SimulationConfig) : Except Fault (Outcome R) :=
  match generatorOf run entropy with
  | .error e => .error e
  | .ok g =>
    let plan := strategy.plan sim.catalog sim.config.quoteToken
    let (ticks, g) := PriceSeries.build sim.config sim.feed plan.tokens run g
    match replay sim.config plan watch 0
        (State.start (Scalar.ofFloat run.initialCapital : R) g) ticks with
    | .error e => .error e
    | .ok p => .ok (p.outcome run)

end Backtest

end Tradeflow
