/-
  The block types that every catalog starts with: triggers, conditions, actions, risk limits,
    capital
  and utilities.
-/
import Tradeflow.Catalog.Basic

namespace Tradeflow.Catalog.Core

def inPort (id : String) (type : PortType) (label : String) : Port :=
  ⟨id, .input, type, label, true, false⟩

def outPort (id : String) (type : PortType) (label : String) : Port :=
  ⟨id, .output, type, label, true, false⟩

def optionalPort (p : Port) : Port := { p with required := false }

def triggerOutputs : List Port := [outPort "out" .trigger "Trigger"]

def branchInputs : List Port := [inPort "in" .trigger "Input"]

def branchOutputs : List Port := [outPort "true" .trigger "True", outPort "false" .trigger "False"]

def actionInputs : List Port := [inPort "in" .trigger "Trigger"]

def actionOutputs : List Port :=
  [outPort "success" .trigger "Success", outPort "failure" .trigger "Failure"]

/-- Risk blocks pass on, or leave by a second output. -/
def riskOutputs (id label : String) : List Port :=
  [outPort "pass" .trigger "Pass", outPort id .trigger label]

/-- The description of a setting that says no more than its type and title. -/
def spec (type : SettingType) (title : String) : SettingSpec :=
  ⟨type, title, none, .null, none, none, none⟩

def among (words : List String) (s : SettingSpec) : SettingSpec :=
  { s with choices := some (words.map .str) }

def otherwise (value : Json) (s : SettingSpec) : SettingSpec := { s with fallback := value }

def atLeast (x : Float) (s : SettingSpec) : SettingSpec := { s with least := some x }

def atMost (x : Float) (s : SettingSpec) : SettingSpec := { s with most := some x }

def described (text : String) (s : SettingSpec) : SettingSpec :=
  { s with description := some text }

def amountTypes : List String := ["fixed", "percentage", "all"]

def settings (properties : Assoc SettingSpec) (required : List String) : SettingsSpec :=
  ⟨.object, properties, required⟩

def triggerPriceThreshold : BlockType where
  type := "trigger_price_threshold"
  category := .trigger
  name := "Price Threshold"
  description := "Triggers when a token price crosses a threshold"
  inputs := []
  outputs := triggerOutputs
  settings := settings
    [("token", spec .string "Token"),
     ("threshold", spec .number "Price"),
     ("direction", spec .string "Direction" |> among ["above", "below", "cross"]
       |> otherwise (.str "above")),
     ("currency", spec .string "Currency" |> otherwise (.str "USD"))]
    ["token", "threshold", "direction"]
  defaults :=
    [("token", .str "TON"), ("threshold", .num 5.0), ("direction", .str "above"),
     ("currency", .str "USD")]
  actionKind := none
  triggerKind := some .priceThreshold
  version := "1.0.0"

def triggerPriceChange : BlockType where
  type := "trigger_price_change"
  category := .trigger
  name := "Price Change %"
  description := "Triggers when price changes by a percentage"
  inputs := []
  outputs := triggerOutputs
  settings := settings
    [("token", spec .string "Token"),
     ("percentage", spec .number "Change %" |> atLeast 0.1 |> atMost 100),
     ("direction", spec .string "Direction" |> among ["up", "down", "any"]
       |> otherwise (.str "any")),
     ("timeframe", spec .string "Timeframe" |> among ["1m", "5m", "15m", "1h", "4h", "1d"]
       |> otherwise (.str "1h"))]
    ["token", "percentage"]
  defaults :=
    [("token", .str "TON"), ("percentage", .int 5), ("direction", .str "any"),
     ("timeframe", .str "1h")]
  actionKind := none
  triggerKind := some .priceChange
  version := "1.0.0"

def triggerSchedule : BlockType where
  type := "trigger_schedule"
  category := .trigger
  name := "Schedule"
  description := "Triggers on a time schedule"
  inputs := []
  outputs := triggerOutputs
  settings := settings
    [("scheduleType", spec .string "Type" |> among ["interval", "cron", "daily", "weekly"]
      |> otherwise (.str "interval")),
     ("interval", spec .number "Interval (seconds)" |> atLeast 60),
     ("cron", spec .string "Cron Expression"),
     ("time", spec .string "Time (HH:MM)"),
     ("dayOfWeek", spec .number "Day of Week" |> atLeast 0 |> atMost 6)]
    []
  defaults :=
    [("scheduleType", .str "interval"), ("interval", .int 3600)]
  actionKind := none
  triggerKind := some .schedule
  version := "1.0.0"

def triggerPortfolio : BlockType where
  type := "trigger_portfolio"
  category := .trigger
  name := "Portfolio Change"
  description := "Triggers on portfolio value or allocation changes"
  inputs := []
  outputs := triggerOutputs
  settings := settings
    [("metric", spec .string "Metric" |> among ["total_value", "token_allocation",
      "pnl_percent"] |> otherwise (.str "total_value")),
     ("condition", spec .string "Condition" |> among ["above", "below", "change_by"]
       |> otherwise (.str "above")),
     ("value", spec .number "Value"),
     ("token", spec .string "Token (for allocation)")]
    ["metric", "condition", "value"]
  defaults :=
    [("metric", .str "total_value"), ("condition", .str "above"), ("value", .int 1000)]
  actionKind := none
  triggerKind := some .portfolio
  version := "1.0.0"

def triggerAiSignal : BlockType where
  type := "trigger_ai_signal"
  category := .trigger
  name := "AI Signal"
  description := "Triggers on AI-generated trading signals"
  inputs := []
  outputs := triggerOutputs
  settings := settings
    [("signalType", spec .string "Signal Type" |> among ["buy", "sell", "rebalance",
      "opportunity", "risk"] |> otherwise (.str "opportunity")),
     ("minConfidence", spec .number "Min Confidence" |> atLeast 0 |> atMost 1
       |> otherwise (.num 0.7)),
     ("tokens", spec .array "Filter Tokens")]
    ["signalType", "minConfidence"]
  defaults :=
    [("signalType", .str "opportunity"), ("minConfidence", .num 0.7), ("tokens", .arr [])]
  actionKind := none
  triggerKind := some .aiSignal
  version := "1.0.0"

def conditionPrice : BlockType where
  type := "condition_price"
  category := .condition
  name := "Price Condition"
  description := "Check current token price"
  inputs := branchInputs
  outputs := branchOutputs
  settings := settings
    [("token", spec .string "Token"),
     ("operator", spec .string "Operator" |> among ["gt", "gte", "lt", "lte", "eq"]),
     ("value", spec .number "Price"),
     ("currency", spec .string "Currency" |> otherwise (.str "USD"))]
    ["token", "operator", "value"]
  defaults :=
    [("token", .str "TON"), ("operator", .str "gt"), ("value", .num 5.0),
     ("currency", .str "USD")]
  actionKind := none
  triggerKind := none
  version := "1.0.0"

def conditionBalance : BlockType where
  type := "condition_balance"
  category := .condition
  name := "Balance Check"
  description := "Check wallet balance"
  inputs := branchInputs
  outputs := branchOutputs
  settings := settings
    [("token", spec .string "Token"),
     ("operator", spec .string "Operator" |> among ["gt", "gte", "lt", "lte"]),
     ("value", spec .number "Amount")]
    ["token", "operator", "value"]
  defaults :=
    [("token", .str "TON"), ("operator", .str "gt"), ("value", .int 100)]
  actionKind := none
  triggerKind := none
  version := "1.0.0"

def conditionMarket : BlockType where
  type := "condition_market"
  category := .condition
  name := "Market Condition"
  description := "Check market conditions (trend, volatility)"
  inputs := branchInputs
  outputs := branchOutputs
  settings := settings
    [("metric", spec .string "Metric" |> among ["trend", "volatility", "volume", "sentiment"]),
     ("condition", spec .string "Is" |> among ["bullish", "bearish", "neutral", "high", "low",
       "normal"]),
     ("token", spec .string "Token (optional)"),
     ("timeframe", spec .string "Timeframe" |> among ["1h", "4h", "1d", "7d"]
       |> otherwise (.str "1d"))]
    ["metric", "condition"]
  defaults :=
    [("metric", .str "trend"), ("condition", .str "bullish"), ("timeframe", .str "1d")]
  actionKind := none
  triggerKind := none
  version := "1.0.0"

def conditionTime : BlockType where
  type := "condition_time"
  category := .condition
  name := "Time Condition"
  description := "Check current time/date"
  inputs := branchInputs
  outputs := branchOutputs
  settings := settings
    [("checkType", spec .string "Check" |> among ["hour_range", "day_of_week", "day_of_month"]),
     ("startHour", spec .number "Start Hour (0-23)" |> atLeast 0 |> atMost 23),
     ("endHour", spec .number "End Hour (0-23)" |> atLeast 0 |> atMost 23),
     ("days", spec .array "Days")]
    []
  defaults :=
    [("checkType", .str "hour_range"), ("startHour", .int 9), ("endHour", .int 17)]
  actionKind := none
  triggerKind := none
  version := "1.0.0"

def conditionLogic : BlockType where
  type := "condition_logic"
  category := .condition
  name := "Logic Gate"
  description := "Combine conditions with AND/OR/NOT"
  inputs := [inPort "a" .boolean "A", optionalPort (inPort "b" .boolean "B")]
  outputs := [outPort "result" .boolean "Result"]
  settings := settings
    [("operator", spec .string "Operator" |> among ["and", "or", "not", "xor"]
      |> otherwise (.str "and"))]
    ["operator"]
  defaults :=
    [("operator", .str "and")]
  actionKind := none
  triggerKind := none
  version := "1.0.0"

def actionSwap : BlockType where
  type := "action_swap"
  category := .action
  name := "Swap"
  description := "Swap tokens on DEX"
  inputs := actionInputs
  outputs := actionOutputs
  settings := settings
    [("fromToken", spec .string "From Token"),
     ("toToken", spec .string "To Token"),
     ("amountType", spec .string "Amount Type" |> among amountTypes
       |> otherwise (.str "percentage")),
     ("amount", spec .number "Amount"),
     ("maxSlippage", spec .number "Max Slippage %" |> otherwise (.int 1) |> atLeast 0.1
       |> atMost 10),
     ("dex", spec .string "DEX" |> among ["dedust", "stonfi", "auto"] |> otherwise (.str "auto"))]
    ["fromToken", "toToken", "amountType", "amount"]
  defaults :=
    [("fromToken", .str "USDT"), ("toToken", .str "TON"), ("amountType", .str "percentage"),
     ("amount", .int 50), ("maxSlippage", .int 1), ("dex", .str "auto")]
  actionKind := some .swap
  triggerKind := none
  version := "1.0.0"

def actionTransfer : BlockType where
  type := "action_transfer"
  category := .action
  name := "Transfer"
  description := "Transfer tokens to address"
  inputs := actionInputs
  outputs := actionOutputs
  settings := settings
    [("token", spec .string "Token"),
     ("destination", spec .string "Destination Address"),
     ("amountType", spec .string "Amount Type" |> among amountTypes),
     ("amount", spec .number "Amount"),
     ("memo", spec .string "Memo (optional)")]
    ["token", "destination", "amountType", "amount"]
  defaults :=
    [("token", .str "TON"), ("amountType", .str "fixed"), ("amount", .int 10)]
  actionKind := some .transfer
  triggerKind := none
  version := "1.0.0"

def actionStake : BlockType where
  type := "action_stake"
  category := .action
  name := "Stake"
  description := "Stake tokens in validator/pool"
  inputs := actionInputs
  outputs := actionOutputs
  settings := settings
    [("token", spec .string "Token" |> otherwise (.str "TON")),
     ("protocol", spec .string "Protocol" |> among ["tonstakers", "bemo", "whales", "auto"]
       |> otherwise (.str "auto")),
     ("amountType", spec .string "Amount Type" |> among amountTypes),
     ("amount", spec .number "Amount")]
    ["token", "amountType", "amount"]
  defaults :=
    [("token", .str "TON"), ("protocol", .str "auto"), ("amountType", .str "percentage"),
     ("amount", .int 50)]
  actionKind := some .stake
  triggerKind := none
  version := "1.0.0"

def actionProvideLiquidity : BlockType where
  type := "action_provide_liquidity"
  category := .action
  name := "Provide Liquidity"
  description := "Add liquidity to DEX pool"
  inputs := actionInputs
  outputs := actionOutputs
  settings := settings
    [("tokenA", spec .string "Token A"),
     ("tokenB", spec .string "Token B"),
     ("amountType", spec .string "Amount Type" |> among ["fixed", "percentage"]),
     ("amount", spec .number "Amount (Token A)"),
     ("dex", spec .string "DEX" |> among ["dedust", "stonfi"]),
     ("range", spec .object "Price Range" |> described "For concentrated liquidity")]
    ["tokenA", "tokenB", "amountType", "amount", "dex"]
  defaults :=
    [("tokenA", .str "TON"), ("tokenB", .str "USDT"), ("amountType", .str "percentage"),
     ("amount", .int 50), ("dex", .str "dedust")]
  actionKind := some .provideLiquidity
  triggerKind := none
  version := "1.0.0"

def actionDca : BlockType where
  type := "action_dca"
  category := .action
  name := "DCA Order"
  description := "Dollar cost averaging order"
  inputs := actionInputs
  outputs := actionOutputs
  settings := settings
    [("direction", spec .string "Direction" |> among ["buy", "sell"]),
     ("fromToken", spec .string "From Token"),
     ("toToken", spec .string "To Token"),
     ("amountPerOrder", spec .number "Amount Per Order"),
     ("totalOrders", spec .number "Total Orders"),
     ("intervalSeconds", spec .number "Interval (seconds)")]
    ["direction", "fromToken", "toToken", "amountPerOrder", "totalOrders", "intervalSeconds"]
  defaults :=
    [("direction", .str "buy"), ("fromToken", .str "USDT"), ("toToken", .str "TON"),
     ("amountPerOrder", .int 100), ("totalOrders", .int 10), ("intervalSeconds", .int 86400)]
  actionKind := some .dca
  triggerKind := none
  version := "1.0.0"

def actionRebalance : BlockType where
  type := "action_rebalance"
  category := .action
  name := "Rebalance Portfolio"
  description := "Rebalance portfolio to target allocations"
  inputs := actionInputs
  outputs := actionOutputs
  settings := settings
    [("allocations", spec .array "Target Allocations"),
     ("threshold", spec .number "Drift Threshold %" |> otherwise (.int 5) |> atLeast 1
       |> atMost 20),
     ("maxSlippage", spec .number "Max Slippage %" |> otherwise (.int 1))]
    ["allocations"]
  defaults :=
    [("allocations", .arr [.obj [("token", .str "TON"), ("target", .int 50)], .obj [("token",
      .str "USDT"), ("target", .int 30)], .obj [("token", .str "ETH"), ("target", .int 20)]]),
     ("threshold", .int 5), ("maxSlippage", .int 1)]
  actionKind := some .rebalance
  triggerKind := none
  version := "1.0.0"

def actionNotification : BlockType where
  type := "action_notification"
  category := .action
  name := "Send Notification"
  description := "Send notification to user"
  inputs := [inPort "in" .trigger "Trigger"]
  outputs := [outPort "out" .trigger "Continue"]
  settings := settings
    [("channel", spec .string "Channel" |> among ["telegram", "email", "webhook"]
      |> otherwise (.str "telegram")),
     ("message", spec .string "Message"),
     ("priority", spec .string "Priority" |> among ["low", "normal", "high"]
       |> otherwise (.str "normal"))]
    ["channel", "message"]
  defaults :=
    [("channel", .str "telegram"), ("message", .str "Strategy notification"),
     ("priority", .str "normal")]
  actionKind := some .notification
  triggerKind := none
  version := "1.0.0"

def riskStopLoss : BlockType where
  type := "risk_stop_loss"
  category := .risk
  name := "Stop Loss"
  description := "Exit position on loss threshold"
  inputs := branchInputs
  outputs := riskOutputs "triggered" "Triggered"
  settings := settings
    [("type", spec .string "Type" |> among ["percentage", "fixed", "trailing"]
      |> otherwise (.str "percentage")),
     ("value", spec .number "Loss Limit"),
     ("trailingDistance", spec .number "Trailing Distance %")]
    ["type", "value"]
  defaults :=
    [("type", .str "percentage"), ("value", .int 5)]
  actionKind := none
  triggerKind := none
  version := "1.0.0"

def riskTakeProfit : BlockType where
  type := "risk_take_profit"
  category := .risk
  name := "Take Profit"
  description := "Exit position on profit target"
  inputs := branchInputs
  outputs := riskOutputs "triggered" "Triggered"
  settings := settings
    [("type", spec .string "Type" |> among ["percentage", "fixed", "trailing"]),
     ("value", spec .number "Profit Target"),
     ("partial", spec .boolean "Partial Exit" |> otherwise (.bool false)),
     ("partialPercent", spec .number "Exit %" |> otherwise (.int 50))]
    ["type", "value"]
  defaults :=
    [("type", .str "percentage"), ("value", .int 10), ("partial", .bool false)]
  actionKind := none
  triggerKind := none
  version := "1.0.0"

def riskMaxPosition : BlockType where
  type := "risk_max_position"
  category := .risk
  name := "Max Position Size"
  description := "Limit maximum position size"
  inputs := branchInputs
  outputs := riskOutputs "blocked" "Blocked"
  settings := settings
    [("maxType", spec .string "Limit Type" |> among ["percentage", "fixed"]),
     ("maxValue", spec .number "Maximum"),
     ("token", spec .string "Token (optional)")]
    ["maxType", "maxValue"]
  defaults :=
    [("maxType", .str "percentage"), ("maxValue", .int 25)]
  actionKind := none
  triggerKind := none
  version := "1.0.0"

def riskDailyLimit : BlockType where
  type := "risk_daily_limit"
  category := .risk
  name := "Daily Limits"
  description := "Limit daily trading activity"
  inputs := branchInputs
  outputs := riskOutputs "blocked" "Blocked"
  settings := settings
    [("maxTrades", spec .number "Max Trades" |> atLeast 1),
     ("maxVolume", spec .number "Max Volume (USD)"),
     ("maxLoss", spec .number "Max Loss %"),
     ("resetTime", spec .string "Reset Time (UTC)" |> otherwise (.str "00:00"))]
    []
  defaults :=
    [("maxTrades", .int 20), ("maxVolume", .int 10000), ("maxLoss", .int 5),
     ("resetTime", .str "00:00")]
  actionKind := none
  triggerKind := none
  version := "1.0.0"

def riskCooldown : BlockType where
  type := "risk_cooldown"
  category := .risk
  name := "Cooldown"
  description := "Enforce minimum time between actions"
  inputs := branchInputs
  outputs := riskOutputs "blocked" "Blocked"
  settings := settings
    [("seconds", spec .number "Cooldown (seconds)" |> atLeast 1),
     ("scope", spec .string "Scope" |> among ["strategy", "action", "token"]
       |> otherwise (.str "strategy"))]
    ["seconds"]
  defaults :=
    [("seconds", .int 60), ("scope", .str "strategy")]
  actionKind := none
  triggerKind := none
  version := "1.0.0"

def capitalAllocate : BlockType where
  type := "capital_allocate"
  category := .capital
  name := "Allocate Capital"
  description := "Allocate capital to strategy"
  inputs := [inPort "in" .trigger "Trigger"]
  outputs := [outPort "out" .amount "Amount"]
  settings := settings
    [("type", spec .string "Type" |> among ["fixed", "percentage", "dynamic"]),
     ("amount", spec .number "Amount"),
     ("reserve", spec .number "Reserve %" |> otherwise (.int 10))]
    ["type", "amount"]
  defaults :=
    [("type", .str "percentage"), ("amount", .int 50), ("reserve", .int 10)]
  actionKind := none
  triggerKind := none
  version := "1.0.0"

def capitalSplit : BlockType where
  type := "capital_split"
  category := .capital
  name := "Split Capital"
  description := "Split capital into multiple streams"
  inputs := [inPort "in" .amount "Input"]
  outputs := [outPort "out1" .amount "Output 1", outPort "out2" .amount "Output 2",
    optionalPort (outPort "out3" .amount "Output 3")]
  settings := settings
    [("splits", spec .array "Splits (%)")]
    ["splits"]
  defaults :=
    [("splits", .arr [.int 50, .int 50])]
  actionKind := none
  triggerKind := none
  version := "1.0.0"

def utilityDelay : BlockType where
  type := "utility_delay"
  category := .utility
  name := "Delay"
  description := "Wait before continuing"
  inputs := [inPort "in" .trigger "Input"]
  outputs := [outPort "out" .trigger "Output"]
  settings := settings
    [("seconds", spec .number "Delay (seconds)" |> atLeast 1),
     ("randomize", spec .boolean "Randomize" |> otherwise (.bool false)),
     ("maxSeconds", spec .number "Max Delay (seconds)")]
    ["seconds"]
  defaults :=
    [("seconds", .int 60), ("randomize", .bool false)]
  actionKind := none
  triggerKind := none
  version := "1.0.0"

def utilityLoop : BlockType where
  type := "utility_loop"
  category := .utility
  name := "Loop"
  description := "Repeat actions multiple times"
  inputs := [inPort "in" .trigger "Input"]
  outputs := [outPort "iteration" .trigger "Each", outPort "complete" .trigger "Done"]
  settings := settings
    [("count", spec .number "Iterations" |> atLeast 1 |> atMost 100),
     ("delayBetween", spec .number "Delay Between (seconds)" |> otherwise (.int 0))]
    ["count"]
  defaults :=
    [("count", .int 5), ("delayBetween", .int 0)]
  actionKind := none
  triggerKind := none
  version := "1.0.0"

def utilityParallel : BlockType where
  type := "utility_parallel"
  category := .utility
  name := "Parallel"
  description := "Execute multiple branches in parallel"
  inputs := [inPort "in" .trigger "Input"]
  outputs := [outPort "branch1" .trigger "Branch 1", outPort "branch2" .trigger "Branch 2",
    optionalPort (outPort "branch3" .trigger "Branch 3")]
  settings := settings
    [("waitForAll", spec .boolean "Wait for All" |> otherwise (.bool true))]
    []
  defaults :=
    [("waitForAll", .bool true)]
  actionKind := none
  triggerKind := none
  version := "1.0.0"

def utilityComment : BlockType where
  type := "utility_comment"
  category := .utility
  name := "Comment"
  description := "Add notes to the strategy (no execution)"
  inputs := []
  outputs := []
  settings := settings
    [("text", spec .string "Comment"),
     ("color", spec .string "Color" |> otherwise (.str "#FFEB3B"))]
    ["text"]
  defaults :=
    [("text", .str "Add your notes here"), ("color", .str "#FFEB3B")]
  actionKind := none
  triggerKind := none
  version := "1.0.0"

/-- All of them, in order. -/
def types : List BlockType :=
  [triggerPriceThreshold, triggerPriceChange, triggerSchedule, triggerPortfolio,
   triggerAiSignal, conditionPrice, conditionBalance, conditionMarket, conditionTime,
   conditionLogic, actionSwap, actionTransfer, actionStake, actionProvideLiquidity, actionDca,
   actionRebalance, actionNotification, riskStopLoss, riskTakeProfit, riskMaxPosition,
   riskDailyLimit, riskCooldown, capitalAllocate, capitalSplit, utilityDelay, utilityLoop,
   utilityParallel, utilityComment]

end Tradeflow.Catalog.Core

namespace Tradeflow.Catalog

/-- The catalog with the core block types. -/
def core : Catalog := Core.types.foldl register empty

end Tradeflow.Catalog
