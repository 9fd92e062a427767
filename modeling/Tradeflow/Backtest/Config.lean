/-
  What a backtest is given: the period, the capital and the market of one run, and the settings of the
  engine that runs it.
-/
import Tradeflow.Market.Basic

namespace Tradeflow

inductive SlippageModel where
  | fixed
  | variable
  | realistic
  deriving DecidableEq, Repr

def SlippageModel.all : List SlippageModel := [.fixed, .variable, .realistic]

def SlippageModel.word : SlippageModel → String
  | .fixed => "fixed"
  | .variable => "variable"
  | .realistic => "realistic"

inductive GasModel where
  | fixed
  | historical
  deriving DecidableEq, Repr

def GasModel.all : List GasModel := [.fixed, .historical]

def GasModel.word : GasModel → String
  | .fixed => "fixed"
  | .historical => "historical"

/-- The parameters of one run. -/
structure SimulationConfig where
  startDate : Instant
  endDate : Instant
  initialCapital : Float
  priceDataSource : PriceSource
  slippageModel : SlippageModel
  gasModel : GasModel
  marketConditions : Option MarketConditions
  monteCarloRuns : Option Int
  seed : Option Int

/-- A run may not end before it starts. -/
def SimulationConfig.check (c : SimulationConfig) : List Problem :=
  if c.endDate.before c.startDate then [⟨[], .refused "end_date must not be before start_date"⟩]
  else []

def SimulationConfig.codec : Codec SimulationConfig :=
  .record ⟨"SimulationConfig", false, false, check⟩ <|
      Fields.start SimulationConfig SimulationConfig.mk
    |>.req ⟨"start_date", "startDate"⟩ .date (·.startDate)
    |>.req ⟨"end_date", "endDate"⟩ .date (·.endDate)
    |>.opt ⟨"initial_capital", "initialCapital"⟩ .positiveFloat 10000 (·.initialCapital)
    |>.opt ⟨"price_data_source", "priceDataSource"⟩ PriceSource.codec .synthetic (·.priceDataSource)
    |>.opt ⟨"slippage_model", "slippageModel"⟩
        (.oneOf .notALiteral SlippageModel.all SlippageModel.word) .realistic (·.slippageModel)
    |>.opt ⟨"gas_model", "gasModel"⟩
        (.oneOf .notALiteral GasModel.all GasModel.word) .historical (·.gasModel)
    |>.opt ⟨"market_conditions", "marketConditions"⟩ (.optional MarketConditions.codec) none
        (·.marketConditions)
    |>.opt ⟨"monte_carlo_runs", "monteCarloRuns"⟩ (.optional .int) none (·.monteCarloRuns)
    |>.opt "seed" (.optional .int) none (·.seed)

/-- The settings of an engine. -/
structure EngineConfig where
  dataSource : PriceSource
  enableCache : Bool
  maxDurationSeconds : Float
  defaultMonteCarloRuns : Int
  maxWorkers : Int
  quoteToken : String
  basePrice : Float
  priceFloor : Float
  volatilityLevels : Assoc Float
  trendDrifts : Assoc Float
  defaultPrices : Assoc Float

def EngineConfig.standard : EngineConfig where
  dataSource := .synthetic
  enableCache := true
  maxDurationSeconds := 300
  defaultMonteCarloRuns := 100
  maxWorkers := 4
  quoteToken := "USDT"
  basePrice := 5
  priceFloor := 0.01
  volatilityLevels := [("low", 0.005), ("medium", 0.015), ("high", 0.03)]
  trendDrifts := [("bull", 0.0005), ("bear", -0.0005), ("sideways", 0)]
  defaultPrices := [("TON", 5), ("USDT", 1), ("USDC", 1), ("ETH", 2500)]

def EngineConfig.codec : Codec EngineConfig :=
  let usual := EngineConfig.standard
  .record (.strict "SimulationEngineConfig") <| Fields.start EngineConfig EngineConfig.mk
    |>.opt ⟨"data_source", "dataSource"⟩ PriceSource.codec usual.dataSource (·.dataSource)
    |>.opt ⟨"enable_cache", "enableCache"⟩ .bool usual.enableCache (·.enableCache)
    |>.opt ⟨"max_duration_seconds", "maxDurationSeconds"⟩ .float usual.maxDurationSeconds
        (·.maxDurationSeconds)
    |>.opt ⟨"default_monte_carlo_runs", "defaultMonteCarloRuns"⟩ (.intAbove 0 none)
        usual.defaultMonteCarloRuns (·.defaultMonteCarloRuns)
    |>.opt ⟨"max_workers", "maxWorkers"⟩ (.intAbove 0 none) usual.maxWorkers (·.maxWorkers)
    |>.opt ⟨"quote_token", "quoteToken"⟩ .text usual.quoteToken (·.quoteToken)
    |>.opt ⟨"base_price", "basePrice"⟩ .float usual.basePrice (·.basePrice)
    |>.opt ⟨"price_floor", "priceFloor"⟩ .float usual.priceFloor (·.priceFloor)
    |>.opt ⟨"volatility_levels", "volatilityLevels"⟩ (.map .float) usual.volatilityLevels
        (·.volatilityLevels)
    |>.opt ⟨"trend_drifts", "trendDrifts"⟩ (.map .float) usual.trendDrifts (·.trendDrifts)
    |>.opt ⟨"default_prices", "defaultPrices"⟩ (.map .float) usual.defaultPrices (·.defaultPrices)

end Tradeflow
