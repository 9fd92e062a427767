/-
  Price series. A synthetic one is an hourly walk whose drift and volatility come from the market
  regime; a historical one joins the bars of a feed for every token, tick by tick, as long as the
  shortest lasts, and there is none if any token fails.
-/
import Tradeflow.Backtest.Config
import Tradeflow.Number.Scalar
import Tradeflow.Random.Generator
import Tradeflow.Text.Basic

namespace Tradeflow

open Tradeflow.Random

/-- A source of bars: what it gives for a token and a period, or nothing if it fails. -/
abbrev PriceFeed := String → Instant → Instant → Option Json

/-- The random draws of a synthetic series, each a multiple of `2 ^ (-53)` below one. -/
structure Draw where
  shock : Nat
  volume : Nat
  gas : Nat
  deriving DecidableEq, Repr

namespace Draw

/-- The draws of a series: all shocks, then all volumes, then all gas prices. -/
def series (count : Nat) (g : Generator) : List Draw × Generator :=
  let (shocks, g) := g.units count
  let (volumes, g) := g.units count
  let (gases, g) := g.units count
  ((shocks.zip (volumes.zip gases)).map fun (s, v, p) => ⟨s, v, p⟩, g)

end Draw

namespace PriceSeries

variable {R : Type} [Scalar R]

/-- The whole hours from `start` to `stop`, none if it comes first. -/
def hours (start stop : Instant) : Nat :=
  (Int.fdiv (stop.micros - start.micros) microsPerHour).toNat

/-- The number between -1 and 1 of a draw. -/
def shock (unit : Nat) : R := -(Scalar.nat 1) + Scalar.nat 2 * Scalar.unit unit

/-- The regime in numbers. -/
structure Regime (R : Type) where
  drift : R
  volatility : R
  floor : R

/-- The regime that an engine's tables give to market conditions. -/
def Regime.of (config : EngineConfig) (m : MarketConditions) : Regime R where
  drift := match Assoc.get? config.trendDrifts m.trend.word with
    | some x => Scalar.ofFloat x
    | none => Scalar.nat 0
  volatility := match Assoc.get? config.volatilityLevels m.volatility.word with
    | some x => Scalar.ofFloat x
    | none => Scalar.decimal 15 3
  floor := Scalar.ofFloat config.priceFloor

/-- The next price: moved by drift and shock, but not below the floor. -/
def Regime.move (r : Regime R) (price : R) (unit : Nat) : R :=
  Scalar.larger (price * (Scalar.nat 1 + r.drift + shock unit * r.volatility)) r.floor

/-- One synthetic tick. -/
def syntheticTick (time : Instant) (price : R) (d : Draw) : PriceTick R where
  timestamp := time
  prices := [("TON", price), ("USDT", Scalar.nat 1), ("USDC", Scalar.nat 1),
    ("ETH", price * Scalar.nat 500)]
  volume := Scalar.unit d.volume * Scalar.nat 1000000
  gasPrice := Scalar.decimal 5 2 + Scalar.unit d.gas * Scalar.decimal 5 2

/-- The walk from a price on, an hour a step. -/
def walk (r : Regime R) (time : Instant) (price : R) : List Draw → List (PriceTick R)
  | [] => []
  | d :: ds =>
    let price := r.move price d.shock
    syntheticTick time price d :: walk r (time.plus microsPerHour) price ds

/-- The synthetic series of a period. -/
def synthetic (config : EngineConfig) (run : SimulationConfig) (g : Generator) :
    List (PriceTick R) × Generator :=
  let regime := Regime.of config (run.marketConditions.getD .standard)
  let (draws, g) := Draw.series (hours run.startDate run.endDate) g
  (walk regime run.startDate (Scalar.ofFloat config.basePrice) draws, g)

/-- What a feed gave, as bars. Empty text and an empty object hold no bars and are none the less
lists of them. -/
def bars? : Json → Option (List PricePoint)
  | .arr items =>
    match Codec.readItems PricePoint.codec.read 0 items with
    | .ok ps => some ps
    | .error _ => none
  | .obj [] => some []
  | .str "" => some []
  | _ => none

/-- The bars of every token; none at all if one fails. -/
def fetch (feed : PriceFeed) (start stop : Instant) :
    List String → Assoc (List PricePoint) → Option (Assoc (List PricePoint))
  | [], found => some found
  | token :: tokens, found =>
    match (feed token start stop).bind bars? with
    | none => none
    | some ps => fetch feed start stop tokens (Assoc.set found token ps)

/-- One historical tick: time and volume of the first token's bar, the closing price of every one. -/
def historicalTick (first : PricePoint) (closes : List (String × PricePoint)) : PriceTick R where
  timestamp := first.timestamp
  prices := closes.map fun p => (p.1, Scalar.ofFloat p.2.close)
  volume := Scalar.ofFloat first.volume
  gasPrice := Scalar.decimal 5 2

/-- The first bar of every token and the bars after it, if every token has one. -/
def heads? : Assoc (List PricePoint) → Option (List (String × PricePoint) × Assoc (List PricePoint))
  | [] => some ([], [])
  | (_, []) :: _ => none
  | (token, p :: ps) :: rest =>
    (heads? rest).map fun (closes, more) => ((token, p) :: closes, (token, ps) :: more)

/-- Joins the bars of all tokens, at most `count` ticks of them. -/
def join : (count : Nat) → Assoc (List PricePoint) → List (PriceTick R)
  | 0, _ => []
  | count + 1, series =>
    match heads? series with
    | some ((token, first) :: closes, more) =>
      historicalTick first ((token, first) :: closes) :: join count more
    | _ => []

/-- The historical series of a period; empty if a token failed or had no bars. -/
def historical (feed : PriceFeed) (tokens : List String) (run : SimulationConfig) :
    List (PriceTick R) :=
  match fetch feed run.startDate run.endDate tokens [] with
  | none => []
  | some series =>
    match series with
    | [] => []
    | (_, ps) :: _ => join ps.length series

/-- The series of a run: historical where asked for and to be had, else synthetic. -/
def build (config : EngineConfig) (feed : Option PriceFeed) (tokens : List String)
    (run : SimulationConfig) (g : Generator) : List (PriceTick R) × Generator :=
  let found : List (PriceTick R) := match run.priceDataSource, feed with
    | .historical, some feed => historical feed tokens run
    | _, _ => []
  if found.isEmpty then synthetic config run g else (found, g)

end PriceSeries

/-- What the name of a staked holding starts with. -/
def stakedPrefix : String := "staked_"

/-- The name of the staked holding of a token. -/
def stakedName (token : String) : String := stakedPrefix ++ token

/-- The token that a holding is priced by: a staked one by what is staked. -/
def underlying (token : String) : String :=
  if Text.startsWith stakedPrefix.toList token.toList then
    String.ofList (token.toList.drop stakedPrefix.length)
  else token

/-- A price that can be used: finite and above zero. -/
def usable? {R : Type} [Scalar R] (p : Option R) : Option R :=
  p.filter fun x => Scalar.isFinite x && Scalar.positive x

/-- The price of a token at a tick: its own, else that of what it is priced by, else the default. -/
def PriceTick.priceOf {R : Type} [Scalar R] (defaults : Assoc Float) (tick : PriceTick R)
    (token : String) : R :=
  match usable? (Assoc.get? tick.prices token) with
  | some p => p
  | none =>
    match usable? (Assoc.get? tick.prices (underlying token)) with
    | some p => p
    | none =>
      match Assoc.get? defaults (underlying token) with
      | some p => Scalar.ofFloat p
      | none => Scalar.nat 1

end Tradeflow
