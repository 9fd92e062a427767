/-
  The figures of a run: return, risk and trade statistics from its equity curve and its trades; and
  judgements on them: what is worth pointing out after a quick check, and how much confidence an
  estimate deserves.
-/
import Tradeflow.Number.Sum
import Tradeflow.Performance.Basic

namespace Tradeflow

namespace Performance

variable {R : Type} [Scalar R]

/-- The return that is free of risk, per day. -/
def riskFreeRate : R := Scalar.decimal 3 2 / Scalar.nat 365

/-- Turns a figure per day into one per year. -/
def annualizing : R := Scalar.sqrt (Scalar.nat 365)

/-- A span of time in seconds. -/
def seconds (micros : Int) : R :=
  if micros < 0 then -(Scalar.decimal micros.natAbs 6) else Scalar.decimal micros.natAbs 6

/-- The decline from a peak in percent. -/
def decline (peak value : R) : R := (peak - value) / peak * Scalar.nat 100

/-- The peak so far and the worst decline so far. -/
structure Trough (R : Type) where
  peak : R
  worst : R

/-- Takes in one more value. Without a positive peak there is no decline. -/
def Trough.take (t : Trough R) (value : R) : Trough R :=
  let peak := Scalar.larger t.peak value
  ⟨peak, if Scalar.positive peak then Scalar.larger t.worst (decline peak value) else t.worst⟩

/-- The largest decline from a peak to a later value in percent, at most 100. -/
def maxDrawdown (values : List R) (initialPeak : R) : R :=
  let t := values.foldl Trough.take ⟨initialPeak, Scalar.nat 0⟩
  Scalar.smaller t.worst (Scalar.nat 100)

/-- Gains over losses; without losses there is no bound to it, and without either it is zero. -/
def profitFactor (pnls : List R) : R :=
  let gains := Sum.pairwise (pnls.filter Scalar.positive)
  let losses := Scalar.size (Sum.pairwise (pnls.filter Scalar.negative))
  if Scalar.positive losses then gains / losses
  else if Scalar.positive gains then Scalar.infinite
  else Scalar.nat 0

/-- The relative changes between consecutive values, as far as they are finite. -/
def returns : List R → List R
  | x :: y :: rest =>
    match Scalar.ratio? (y - x) x with
    | some r => r :: returns (y :: rest)
    | none => returns (y :: rest)
  | _ => []

/-- The mean, zero for no values. -/
def meanOrZero (xs : List R) : R := if xs.isEmpty then Scalar.nat 0 else Sum.mean xs

/-- The standard deviation, zero for no values. -/
def deviation (xs : List R) : R :=
  if xs.isEmpty then Scalar.nat 0
  else
    let m := Sum.mean xs
    Scalar.sqrt (Sum.mean (xs.map fun x => (x - m) * (x - m)))

/-- The root of the mean square of the negative values, zero if there are none. -/
def downside (xs : List R) : R :=
  let losses := xs.filter Scalar.negative
  if losses.isEmpty then Scalar.nat 0 else Scalar.sqrt (Sum.mean (losses.map fun x => x * x))

/-- The yearly return above the risk free one per unit of risk, zero without risk. -/
def perRisk (mean risk : R) : R :=
  if Scalar.positive risk then (mean - riskFreeRate) / risk * annualizing else Scalar.nat 0

/-- The differences between consecutive time stamps in hours. -/
def gaps : List Instant → List R
  | s :: t :: rest => seconds (t.micros - s.micros) / Scalar.nat 3600 :: gaps (t :: rest)
  | _ => []

/-- The mean number of hours between consecutive trades. -/
def averageHours (stamps : List Instant) : R := meanOrZero (gaps stamps)

/-- The share of trades with a gain. -/
def winRate (pnls : List R) : R :=
  if pnls.isEmpty then Scalar.nat 0
  else Scalar.nat (pnls.filter Scalar.positive).length / Scalar.nat pnls.length

/-- The figures of a run without equity. -/
def none (triggerFirings : Int) : Metrics R :=
  let zero : R := Scalar.nat 0
  ⟨zero, zero, zero, zero, zero, zero, zero, 0, zero, zero, zero, triggerFirings⟩

/-- The figures of a run. A return over a period that has no length is not carried over to a year. -/
def metrics (trades : List (Trade R)) (curve : List (EquityPoint R)) (capital : R)
    (start stop : Instant) (triggerFirings : Int) : Metrics R :=
  match (curve.map (·.value)).getLast? with
  | Option.none => none triggerFirings
  | some final =>
    let values := curve.map (·.value)
    let total := (final - capital) / capital * Scalar.nat 100
    let days : R := seconds (stop.micros - start.micros) / Scalar.nat 86400
    let rs := returns values
    let mean := meanOrZero rs
    let volatility := deviation rs
    let pnls := trades.map (·.pnl)
    { totalReturn := total
      annualizedReturn :=
        if Scalar.positive days then total * (Scalar.nat 365 / days) else Scalar.nat 0
      sharpeRatio := perRisk mean volatility
      sortinoRatio := perRisk mean (downside rs)
      maxDrawdown := maxDrawdown values capital
      winRate := winRate pnls
      profitFactor := profitFactor pnls
      totalTrades := trades.length
      avgTradeReturn := meanOrZero pnls
      avgHoldingPeriod := averageHours (trades.map (·.timestamp))
      volatility := volatility * annualizing * Scalar.nat 100
      triggerFirings := triggerFirings }

end Performance

/-! ## Judgements -/

variable {R : Type} [Scalar R]

/-- What is worth pointing out about a run. -/
def Metrics.issues (m : Metrics R) (slippages : List R) : List String :=
  (if slippages.isEmpty then ["No trades executed - check trigger conditions"] else [])
  ++ (if Scalar.less m.winRate (Scalar.decimal 3 1) then
    ["Low win rate - consider adjusting entry conditions"] else [])
  ++ (if Scalar.less (Scalar.nat 30) m.maxDrawdown then
    ["High drawdown - consider tighter risk controls"] else [])
  ++ (if slippages.any (Scalar.less (Scalar.nat 5)) then
    ["Some trades had high slippage - consider lower position sizes"] else [])

/-- Adds to a score if a condition holds. -/
def scoreIf (condition : Bool) (points score : R) : R := if condition then score + points else score

/-- The confidence in an estimate, from the figures of one run and the spread of many; at most 0.95. -/
def Metrics.confidence (m : Metrics R) (low high : R) : R :=
  let score : R := Scalar.decimal 5 1
  let score := scoreIf (Scalar.less (Scalar.nat 1) m.sharpeRatio) (Scalar.decimal 1 1) score
  let score := scoreIf (Scalar.less (Scalar.nat 2) m.sharpeRatio) (Scalar.decimal 1 1) score
  let score := scoreIf (Scalar.less (Scalar.decimal 5 1) m.winRate) (Scalar.decimal 5 2) score
  let score := scoreIf (Scalar.less (Scalar.decimal 6 1) m.winRate) (Scalar.decimal 5 2) score
  let score := scoreIf (Scalar.less m.maxDrawdown (Scalar.nat 20)) (Scalar.decimal 1 1) score
  let score := scoreIf (Scalar.less m.maxDrawdown (Scalar.nat 10)) (Scalar.decimal 5 2) score
  let score := scoreIf (Scalar.less (high - low) (Scalar.nat 50)) (Scalar.decimal 1 1) score
  Scalar.smaller score (Scalar.decimal 95 2)

end Tradeflow
