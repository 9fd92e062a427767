/-
  Markets: the regime a synthetic market follows, the bars that a price feed gives, and the ticks of a
  price series, each with a price per token.
-/
import Tradeflow.Record.Fields

namespace Tradeflow

inductive Level where
  | low
  | medium
  | high
  deriving DecidableEq, Repr

def Level.all : List Level := [.low, .medium, .high]

def Level.word : Level → String
  | .low => "low"
  | .medium => "medium"
  | .high => "high"

inductive Trend where
  | bull
  | bear
  | sideways
  deriving DecidableEq, Repr

def Trend.all : List Trend := [.bull, .bear, .sideways]

def Trend.word : Trend → String
  | .bull => "bull"
  | .bear => "bear"
  | .sideways => "sideways"

structure MarketConditions where
  volatility : Level
  trend : Trend
  liquidity : Level
  deriving DecidableEq, Repr

def MarketConditions.standard : MarketConditions := ⟨.medium, .sideways, .medium⟩

inductive PriceSource where
  | historical
  | synthetic
  deriving DecidableEq, Repr

def PriceSource.all : List PriceSource := [.historical, .synthetic]

def PriceSource.word : PriceSource → String
  | .historical => "historical"
  | .synthetic => "synthetic"

/-- A bar of a price feed. -/
structure PricePoint where
  timestamp : Instant
  opening : Float
  high : Float
  low : Float
  close : Float
  volume : Float

/-- One step of a price series. -/
structure PriceTick (R : Type) where
  timestamp : Instant
  prices : Assoc R
  volume : R
  gasPrice : R

def Level.codec : Codec Level := .oneOf .notALiteral all word

def Trend.codec : Codec Trend := .oneOf .notALiteral all word

def PriceSource.codec : Codec PriceSource := .oneOf .notALiteral all word

def MarketConditions.codec : Codec MarketConditions :=
  .record (.plain "MarketConditions") <| Fields.start MarketConditions MarketConditions.mk
    |>.opt "volatility" Level.codec .medium (·.volatility)
    |>.opt "trend" Trend.codec .sideways (·.trend)
    |>.opt "liquidity" Level.codec .medium (·.liquidity)

def PricePoint.codec : Codec PricePoint :=
  .record (.plain "PricePoint") <| Fields.start PricePoint PricePoint.mk
    |>.req "timestamp" .date (·.timestamp)
    |>.req "open" .float (·.opening)
    |>.req "high" .float (·.high)
    |>.req "low" .float (·.low)
    |>.req "close" .float (·.close)
    |>.opt "volume" .float 0 (·.volume)

def PriceTick.codec : Codec (PriceTick Float) :=
  .record (.plain "PriceTick") <| Fields.start (PriceTick Float) PriceTick.mk
    |>.req "timestamp" .stamp (·.timestamp)
    |>.opt "prices" (.map .float) [] (·.prices)
    |>.opt "volume" .float 0 (·.volume)
    |>.opt ⟨"gas_price", "gasPrice"⟩ .float 0.05 (·.gasPrice)

end Tradeflow
