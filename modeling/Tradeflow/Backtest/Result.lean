/-
  The results that are handed out: of one backtest, of many with aggregate figures, of a quick check
  and of an estimate.
-/
import Tradeflow.Backtest.Config
import Tradeflow.Performance.Basic

namespace Tradeflow

inductive BacktestStatus where
  | completed
  | timedOut
  | cancelled
  deriving DecidableEq, Repr

def BacktestStatus.all : List BacktestStatus := [.completed, .timedOut, .cancelled]

def BacktestStatus.word : BacktestStatus → String
  | .completed => "completed"
  | .timedOut => "timed_out"
  | .cancelled => "cancelled"

structure BacktestResult (R : Type) where
  id : String
  strategyId : String
  config : SimulationConfig
  startedAt : Instant
  completedAt : Instant
  status : BacktestStatus
  metrics : Metrics R
  trades : List (Trade R)
  equityCurve : List (EquityPoint R)
  drawdownCurve : List (DrawdownPoint R)
  monthlyReturns : List (MonthlyReturn R)

structure MonteCarloResult (R : Type) where
  runs : Int
  medianReturn : R
  avgReturn : R
  percentile5Return : R
  percentile95Return : R
  medianDrawdown : R
  maxDrawdown : R
  avgSharpe : R
  results : List (BacktestResult R)

structure SandboxResult (R : Type) where
  success : Bool
  trades : Int
  finalEquity : R
  pnl : R
  issues : List String

structure PerformanceEstimate (R : Type) where
  expectedReturn : R
  bestCase : R
  worstCase : R
  confidence : R
  sharpeRatio : R
  maxDrawdown : R
  winRate : R

def BacktestStatus.codec : Codec BacktestStatus := .oneOf .notALiteral all word

def BacktestResult.codec : Codec (BacktestResult Float) :=
  .record (.fixed "BacktestResult") <| Fields.start (BacktestResult Float) BacktestResult.mk
    |>.req "id" .text (·.id)
    |>.req ⟨"strategy_id", "strategyId"⟩ .text (·.strategyId)
    |>.req "config" SimulationConfig.codec (·.config)
    |>.req ⟨"started_at", "startedAt"⟩ .stamp (·.startedAt)
    |>.req ⟨"completed_at", "completedAt"⟩ .stamp (·.completedAt)
    |>.opt "status" BacktestStatus.codec .completed (·.status)
    |>.req "metrics" Metrics.codec (·.metrics)
    |>.opt "trades" (.list Trade.codec) [] (·.trades)
    |>.opt ⟨"equity_curve", "equityCurve"⟩ (.list EquityPoint.codec) [] (·.equityCurve)
    |>.opt ⟨"drawdown_curve", "drawdownCurve"⟩ (.list DrawdownPoint.codec) [] (·.drawdownCurve)
    |>.opt ⟨"monthly_returns", "monthlyReturns"⟩ (.list MonthlyReturn.codec) [] (·.monthlyReturns)

def MonteCarloResult.codec : Codec (MonteCarloResult Float) :=
  .record (.fixed "MonteCarloResult") <| Fields.start (MonteCarloResult Float) MonteCarloResult.mk
    |>.req "runs" .int (·.runs)
    |>.req ⟨"median_return", "medianReturn"⟩ .float (·.medianReturn)
    |>.req ⟨"avg_return", "avgReturn"⟩ .float (·.avgReturn)
    |>.req ⟨"percentile5_return", "percentile5Return"⟩ .float (·.percentile5Return)
    |>.req ⟨"percentile95_return", "percentile95Return"⟩ .float (·.percentile95Return)
    |>.req ⟨"median_drawdown", "medianDrawdown"⟩ .float (·.medianDrawdown)
    |>.req ⟨"max_drawdown", "maxDrawdown"⟩ .float (·.maxDrawdown)
    |>.req ⟨"avg_sharpe", "avgSharpe"⟩ .float (·.avgSharpe)
    |>.opt "results" (.list BacktestResult.codec) [] (·.results)

def SandboxResult.codec : Codec (SandboxResult Float) :=
  .record (.plain "SandboxResult") <| Fields.start (SandboxResult Float) SandboxResult.mk
    |>.req "success" .bool (·.success)
    |>.req "trades" .int (·.trades)
    |>.req ⟨"final_equity", "finalEquity"⟩ .float (·.finalEquity)
    |>.req "pnl" .float (·.pnl)
    |>.opt "issues" (.list .text) [] (·.issues)

def PerformanceEstimate.codec : Codec (PerformanceEstimate Float) :=
  .record (.plain "PerformanceEstimate") <|
      Fields.start (PerformanceEstimate Float) PerformanceEstimate.mk
    |>.req ⟨"expected_return", "expectedReturn"⟩ .float (·.expectedReturn)
    |>.req ⟨"best_case", "bestCase"⟩ .float (·.bestCase)
    |>.req ⟨"worst_case", "worstCase"⟩ .float (·.worstCase)
    |>.req "confidence" .float (·.confidence)
    |>.req ⟨"sharpe_ratio", "sharpeRatio"⟩ .float (·.sharpeRatio)
    |>.req ⟨"max_drawdown", "maxDrawdown"⟩ .float (·.maxDrawdown)
    |>.req ⟨"win_rate", "winRate"⟩ .float (·.winRate)

end Tradeflow
