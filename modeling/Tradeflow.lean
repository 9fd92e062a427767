import Tradeflow.Assoc
import Tradeflow.Backtest.Action
import Tradeflow.Backtest.Cache
import Tradeflow.Backtest.Config
import Tradeflow.Backtest.Engine
import Tradeflow.Backtest.Ledger
import Tradeflow.Backtest.MonteCarlo
import Tradeflow.Backtest.Plan
import Tradeflow.Backtest.Result
import Tradeflow.Backtest.Run
import Tradeflow.Backtest.Traffic
import Tradeflow.Backtest.Trigger
import Tradeflow.Catalog.Basic
import Tradeflow.Catalog.Core
import Tradeflow.Fault
import Tradeflow.Interchange.Compile
import Tradeflow.Interchange.Compiled
import Tradeflow.Json.Basic
import Tradeflow.Json.Display
import Tradeflow.Json.Printer
import Tradeflow.Json.Reader
import Tradeflow.Market.Basic
import Tradeflow.Market.Series
import Tradeflow.Number.Decimal
import Tradeflow.Number.Double
import Tradeflow.Number.Scalar
import Tradeflow.Number.Sum
import Tradeflow.Performance.Basic
import Tradeflow.Performance.Distribution
import Tradeflow.Performance.Metrics
import Tradeflow.Performance.Monthly
import Tradeflow.Random.Generator
import Tradeflow.Random.Seed
import Tradeflow.Record.Assign
import Tradeflow.Record.Codec
import Tradeflow.Record.Fields
import Tradeflow.Record.Numeral
import Tradeflow.Record.Problem
import Tradeflow.Service.Dispatch
import Tradeflow.Service.Message
import Tradeflow.Service.Payload
import Tradeflow.Service.Routes
import Tradeflow.Settings.Directory
import Tradeflow.Settings.Shipped
import Tradeflow.Strategy.Basic
import Tradeflow.Strategy.Wire
import Tradeflow.Text.Basic
import Tradeflow.Text.Casing
import Tradeflow.Text.Casing.Tables
import Tradeflow.Text.Encoding
import Tradeflow.Text.Printable
import Tradeflow.Text.Quoted
import Tradeflow.Text.Units16
import Tradeflow.Time.Calendar
import Tradeflow.Time.Instant
import Tradeflow.Time.Reading
import Tradeflow.Validation.Basic
import Tradeflow.Validation.Graph
import Tradeflow.Validation.Rules
import Tradeflow.Validation.Verdict
import Tradeflow.Validation.Whitelist
import Tradeflow.Yaml.Cursor
import Tradeflow.Yaml.Lexeme
import Tradeflow.Yaml.Node
import Tradeflow.Yaml.Printer
import Tradeflow.Yaml.Scalar
import Tradeflow.Yaml.Token
import Tradeflow.Yaml.Value
import Tradeflow.Proofs.Backtest.Actions
import Tradeflow.Proofs.Backtest.Bookkeeping
import Tradeflow.Proofs.Backtest.CacheSafety
import Tradeflow.Proofs.Backtest.ConfigReading
import Tradeflow.Proofs.Backtest.Crossings
import Tradeflow.Proofs.Backtest.DrawdownCurve
import Tradeflow.Proofs.Backtest.ExactRuns
import Tradeflow.Proofs.Backtest.Fallback
import Tradeflow.Proofs.Backtest.Faults
import Tradeflow.Proofs.Backtest.Foresight
import Tradeflow.Proofs.Backtest.Gains
import Tradeflow.Proofs.Backtest.History
import Tradeflow.Proofs.Backtest.HourlySchedules
import Tradeflow.Proofs.Backtest.ManyRuns
import Tradeflow.Proofs.Backtest.PriceTriggers
import Tradeflow.Proofs.Backtest.Schedules
import Tradeflow.Proofs.Backtest.Sizing
import Tradeflow.Proofs.Backtest.Solvency
import Tradeflow.Proofs.Backtest.Staking
import Tradeflow.Proofs.Backtest.Statistics
import Tradeflow.Proofs.Backtest.Stopping
import Tradeflow.Proofs.Backtest.Trace
import Tradeflow.Proofs.Backtest.Value
import Tradeflow.Proofs.Interchange.Adjacency
import Tradeflow.Proofs.Interchange.Behaviour
import Tradeflow.Proofs.Interchange.HashText
import Tradeflow.Proofs.Interchange.RoundTrip
import Tradeflow.Proofs.Interchange.Text
import Tradeflow.Proofs.Interchange.Validity
import Tradeflow.Proofs.Interchange.WireForm
import Tradeflow.Proofs.Json.Finite
import Tradeflow.Proofs.Json.Lexemes
import Tradeflow.Proofs.Json.RoundTrip
import Tradeflow.Proofs.Market.Fallback
import Tradeflow.Proofs.Market.History
import Tradeflow.Proofs.Market.Prices
import Tradeflow.Proofs.Market.SyntheticRegime
import Tradeflow.Proofs.Market.Walk
import Tradeflow.Proofs.Number.Extent
import Tradeflow.Proofs.Number.Magnitude
import Tradeflow.Proofs.Number.Monotone
import Tradeflow.Proofs.Number.Nearest
import Tradeflow.Proofs.Number.Order
import Tradeflow.Proofs.Number.PairwiseSum
import Tradeflow.Proofs.Number.Rational
import Tradeflow.Proofs.Number.Real
import Tradeflow.Proofs.Number.Rounding
import Tradeflow.Proofs.Number.Shares
import Tradeflow.Proofs.Number.Shortest
import Tradeflow.Proofs.Number.SignedZero
import Tradeflow.Proofs.Number.Values
import Tradeflow.Proofs.Number.Whole
import Tradeflow.Proofs.Performance.Drawdown
import Tradeflow.Proofs.Performance.MonthlyReturns
import Tradeflow.Proofs.Performance.OrderStatistics
import Tradeflow.Proofs.Performance.ScaleFree
import Tradeflow.Proofs.Random.Draws
import Tradeflow.Proofs.Record.Endings
import Tradeflow.Proofs.Record.Lossless
import Tradeflow.Proofs.Service.Envelope
import Tradeflow.Proofs.Text.RollingHash
import Tradeflow.Proofs.Time.Civil
import Tradeflow.Proofs.Time.Range
import Tradeflow.Proofs.Time.WireText
import Tradeflow.Proofs.Validation.Acceptance
import Tradeflow.Proofs.Validation.AddressSearch
import Tradeflow.Proofs.Validation.Codes
import Tradeflow.Proofs.Validation.Presentation
import Tradeflow.Proofs.Validation.Reachability
import Tradeflow.Proofs.Validation.RiskOrder
import Tradeflow.Proofs.Validation.ScoreRange
import Tradeflow.Proofs.Validation.Unreachable
import Tradeflow.Proofs.Validation.Whitelists
