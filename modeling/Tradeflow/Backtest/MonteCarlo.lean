/-
  Many runs of one strategy in different markets. A master seed gives every run a seed and a regime of
  its own; the figures of the runs are put together by rank, without interpolation.
-/
import Tradeflow.Backtest.Run
import Tradeflow.Performance.Distribution

namespace Tradeflow

open Tradeflow.Random

namespace MonteCarlo

/-- One of three, by a number below three. -/
def pick {α : Type} (a b c : α) : Nat → α
  | 0 => a
  | 1 => b
  | _ => c

/-- How often a number that falls into the odd remainder is drawn again. -/
def retries : Nat := 128

/-- The regime and the seed that a generator gives to a run. -/
def drawMarket (g : Generator) : MarketConditions × Nat :=
  let (v, g) := g.belowThree retries
  let (t, g) := g.belowThree retries
  let (l, g) := g.belowThree retries
  (⟨pick .low .medium .high v, pick .bull .bear .sideways t, pick .low .medium .high l⟩,
    g.next32.1)

/-- Run number `i` of a master seed. -/
def drawConfig (base : SimulationConfig) (master i : Nat) : SimulationConfig :=
  let drawn := drawMarket (Generator.ofSeed (Seed.child ⟨master, []⟩ i))
  { base with
    priceDataSource := .synthetic
    marketConditions := some drawn.1
    seed := some drawn.2 }

/-- The runs of a master seed; without one, of the entropy given. -/
def drawConfigs (base : SimulationConfig) (runs : Int) (seed : Option Int) (entropy : Nat) :
    Except Fault (List SimulationConfig) :=
  let master : Except Fault Nat := match seed with
    | none => .ok entropy
    | some n => if n < 0 then .error .negativeSeed else .ok n.toNat
  match master with
  | .error e => .error e
  | .ok master =>
    if runs < 0 then .error .negativeCount
    else .ok ((List.range runs.toNat).map (drawConfig base master))

variable {R : Type} [Scalar R]

/-- The figures of many runs put together. -/
def aggregate (metrics : List (Metrics R)) (results : List (BacktestResult R)) :
    Except Fault (MonteCarloResult R) := do
  let returns := Distribution.sorted (metrics.map (·.totalReturn))
  let drawdowns := Distribution.sorted (metrics.map (·.maxDrawdown))
  let medianReturn ← Distribution.median returns
  let avgReturn ← Distribution.exactMean returns
  let low ← Distribution.percentile returns (Scalar.decimal 5 2)
  let high ← Distribution.percentile returns (Scalar.decimal 95 2)
  let medianDrawdown ← Distribution.median drawdowns
  let maxDrawdown ← Distribution.largest drawdowns
  let avgSharpe ← Distribution.exactMean (metrics.map (·.sharpeRatio))
  return {
    runs := metrics.length
    medianReturn := medianReturn
    avgReturn := avgReturn
    percentile5Return := low
    percentile95Return := high
    medianDrawdown := medianDrawdown
    maxDrawdown := maxDrawdown
    avgSharpe := avgSharpe
    results := results }

end MonteCarlo

end Tradeflow
