/-
  What a simulated run leaves behind: its trades, its equity and drawdown over time, and the figures
  computed from them. Percentages run from 0 to 100, the win rate from 0 to 1.
-/
import Tradeflow.Strategy.Wire

namespace Tradeflow

/-- One executed action. -/
structure Trade (R : Type) where
  id : String
  timestamp : Instant
  kind : ActionKind
  fromToken : String
  toToken : String
  fromAmount : R
  toAmount : R
  price : R
  slippage : R
  gas : R
  pnl : R
  cumPnl : R

structure EquityPoint (R : Type) where
  timestamp : Instant
  value : R

structure DrawdownPoint (R : Type) where
  timestamp : Instant
  drawdown : R

/-- The percent change over one calendar month. -/
structure MonthlyReturn (R : Type) where
  year : Int
  month : Int
  change : R

structure Metrics (R : Type) where
  totalReturn : R
  annualizedReturn : R
  sharpeRatio : R
  sortinoRatio : R
  maxDrawdown : R
  winRate : R
  profitFactor : R
  totalTrades : Int
  avgTradeReturn : R
  avgHoldingPeriod : R
  volatility : R
  triggerFirings : Int

def Trade.codec : Codec (Trade Float) :=
  .record (.plain "SimulatedTrade") <| Fields.start (Trade Float) Trade.mk
    |>.req "id" .text (·.id)
    |>.req "timestamp" .stamp (·.timestamp)
    |>.req "type" ActionKind.codec (·.kind)
    |>.req ⟨"from_token", "fromToken"⟩ .text (·.fromToken)
    |>.req ⟨"to_token", "toToken"⟩ .text (·.toToken)
    |>.req ⟨"from_amount", "fromAmount"⟩ .float (·.fromAmount)
    |>.req ⟨"to_amount", "toAmount"⟩ .float (·.toAmount)
    |>.req "price" .float (·.price)
    |>.req "slippage" .float (·.slippage)
    |>.req "gas" .float (·.gas)
    |>.req "pnl" .float (·.pnl)
    |>.req ⟨"cum_pnl", "cumPnl"⟩ .float (·.cumPnl)

def EquityPoint.codec : Codec (EquityPoint Float) :=
  .record (.plain "EquityPoint") <| Fields.start (EquityPoint Float) EquityPoint.mk
    |>.req "timestamp" .stamp (·.timestamp)
    |>.req "value" .float (·.value)

def DrawdownPoint.codec : Codec (DrawdownPoint Float) :=
  .record (.plain "DrawdownPoint") <| Fields.start (DrawdownPoint Float) DrawdownPoint.mk
    |>.req "timestamp" .stamp (·.timestamp)
    |>.req "drawdown" .float (·.drawdown)

def MonthlyReturn.codec : Codec (MonthlyReturn Float) :=
  .record (.plain "MonthlyReturn") <| Fields.start (MonthlyReturn Float) MonthlyReturn.mk
    |>.req "year" .int (·.year)
    |>.req "month" .int (·.month)
    |>.req ⟨"return_", "return"⟩ .float (·.change)

def Metrics.codec : Codec (Metrics Float) :=
  .record (.plain "StrategyMetrics") <| Fields.start (Metrics Float) Metrics.mk
    |>.opt ⟨"total_return", "totalReturn"⟩ .float 0 (·.totalReturn)
    |>.opt ⟨"annualized_return", "annualizedReturn"⟩ .float 0 (·.annualizedReturn)
    |>.opt ⟨"sharpe_ratio", "sharpeRatio"⟩ .float 0 (·.sharpeRatio)
    |>.opt ⟨"sortino_ratio", "sortinoRatio"⟩ .float 0 (·.sortinoRatio)
    |>.opt ⟨"max_drawdown", "maxDrawdown"⟩ .float 0 (·.maxDrawdown)
    |>.opt ⟨"win_rate", "winRate"⟩ .float 0 (·.winRate)
    |>.opt ⟨"profit_factor", "profitFactor"⟩ .float 0 (·.profitFactor)
    |>.opt ⟨"total_trades", "totalTrades"⟩ .int 0 (·.totalTrades)
    |>.opt ⟨"avg_trade_return", "avgTradeReturn"⟩ .float 0 (·.avgTradeReturn)
    |>.opt ⟨"avg_holding_period", "avgHoldingPeriod"⟩ .float 0 (·.avgHoldingPeriod)
    |>.opt "volatility" .float 0 (·.volatility)
    |>.opt ⟨"trigger_firings", "triggerFirings"⟩ .int 0 (·.triggerFirings)

end Tradeflow
