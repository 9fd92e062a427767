/-
  Strategies: blocks with typed ports, connections between ports, and the settings and limits that
  apply when the strategy runs. The free-form parts of a block are documents.
-/
import Tradeflow.Json.Basic

namespace Tradeflow

inductive BlockCategory where
  | trigger
  | condition
  | action
  | risk
  | capital
  | data
  | utility
  deriving DecidableEq, Repr

def BlockCategory.all : List BlockCategory :=
  [.trigger, .condition, .action, .risk, .capital, .data, .utility]

def BlockCategory.word : BlockCategory → String
  | .trigger => "trigger"
  | .condition => "condition"
  | .action => "action"
  | .risk => "risk"
  | .capital => "capital"
  | .data => "data"
  | .utility => "utility"

inductive PortType where
  | trigger
  | boolean
  | number
  | string
  | token
  | amount
  | address
  | transaction
  | any
  deriving DecidableEq, Repr

def PortType.all : List PortType :=
  [.trigger, .boolean, .number, .string, .token, .amount, .address, .transaction, .any]

def PortType.word : PortType → String
  | .trigger => "trigger"
  | .boolean => "boolean"
  | .number => "number"
  | .string => "string"
  | .token => "token"
  | .amount => "amount"
  | .address => "address"
  | .transaction => "transaction"
  | .any => "any"

inductive PortSide where
  | input
  | output
  deriving DecidableEq, Repr

def PortSide.all : List PortSide := [.input, .output]

def PortSide.word : PortSide → String
  | .input => "input"
  | .output => "output"

inductive StrategyCategory where
  | trading
  | yieldFarming
  | liquidityManagement
  | arbitrage
  | portfolioAutomation
  | daoGovernance
  | custom
  deriving DecidableEq, Repr

def StrategyCategory.all : List StrategyCategory :=
  [.trading, .yieldFarming, .liquidityManagement, .arbitrage, .portfolioAutomation, .daoGovernance,
    .custom]

def StrategyCategory.word : StrategyCategory → String
  | .trading => "trading"
  | .yieldFarming => "yield_farming"
  | .liquidityManagement => "liquidity_management"
  | .arbitrage => "arbitrage"
  | .portfolioAutomation => "portfolio_automation"
  | .daoGovernance => "dao_governance"
  | .custom => "custom"

inductive StrategyStatus where
  | draft
  | testing
  | pending
  | active
  | paused
  | stopped
  | error
  | archived
  deriving DecidableEq, Repr

def StrategyStatus.all : List StrategyStatus :=
  [.draft, .testing, .pending, .active, .paused, .stopped, .error, .archived]

def StrategyStatus.word : StrategyStatus → String
  | .draft => "draft"
  | .testing => "testing"
  | .pending => "pending"
  | .active => "active"
  | .paused => "paused"
  | .stopped => "stopped"
  | .error => "error"
  | .archived => "archived"

/-- What an action block does when it runs. -/
inductive ActionKind where
  | swap
  | transfer
  | stake
  | unstake
  | provideLiquidity
  | removeLiquidity
  | dca
  | rebalance
  | notification
  | other
  deriving DecidableEq, Repr

def ActionKind.all : List ActionKind :=
  [.swap, .transfer, .stake, .unstake, .provideLiquidity, .removeLiquidity, .dca, .rebalance,
    .notification, .other]

def ActionKind.word : ActionKind → String
  | .swap => "swap"
  | .transfer => "transfer"
  | .stake => "stake"
  | .unstake => "unstake"
  | .provideLiquidity => "provide_liquidity"
  | .removeLiquidity => "remove_liquidity"
  | .dca => "dca"
  | .rebalance => "rebalance"
  | .notification => "notification"
  | .other => "other"

/-- What makes a trigger block fire. -/
inductive TriggerKind where
  | priceThreshold
  | priceChange
  | schedule
  | portfolio
  | aiSignal
  | manual
  deriving DecidableEq, Repr

def TriggerKind.all : List TriggerKind :=
  [.priceThreshold, .priceChange, .schedule, .portfolio, .aiSignal, .manual]

def TriggerKind.word : TriggerKind → String
  | .priceThreshold => "price_threshold"
  | .priceChange => "price_change_percent"
  | .schedule => "time_schedule"
  | .portfolio => "portfolio_threshold"
  | .aiSignal => "ai_signal"
  | .manual => "manual"

def TriggerKind.ofWord? (s : String) : Option TriggerKind := TriggerKind.all.find? (·.word == s)

inductive Channel where
  | telegram
  | email
  | webhook
  deriving DecidableEq, Repr

def Channel.all : List Channel := [.telegram, .email, .webhook]

def Channel.word : Channel → String
  | .telegram => "telegram"
  | .email => "email"
  | .webhook => "webhook"

/-- Where a block is drawn. -/
structure Position where
  x : Float
  y : Float

def Position.origin : Position := ⟨0, 0⟩

/-- A typed port of a block. -/
structure Port where
  id : String
  side : PortSide
  dataType : PortType
  label : String
  required : Bool
  multiple : Bool

structure Block where
  id : String
  category : BlockCategory
  name : String
  type : Option String
  description : String
  version : String
  config : Assoc Json
  position : Position
  inputs : List Port
  outputs : List Port
  enabled : Bool
  actionKind : Option ActionKind
  metadata : Assoc Json

namespace Block

def input? (b : Block) (id : String) : Option Port := b.inputs.find? (·.id == id)

def output? (b : Block) (id : String) : Option Port := b.outputs.find? (·.id == id)

/-- A value of the block's configuration. -/
def setting? (b : Block) (key : String) : Option Json := Assoc.get? b.config key

/-- The type of the block, if it is not the empty text. -/
def givenType? (b : Block) : Option String := b.type.filter (· != "")

end Block

/-- An edge from an output port to an input port. -/
structure Connection where
  id : String
  sourceBlock : String
  sourceOutput : String
  targetBlock : String
  targetInput : String
  label : Option String

structure RetryPolicy where
  maxRetries : Int
  backoffMs : Int
  backoffMultiplier : Float

structure NotificationSettings where
  onExecution : Bool
  onError : Bool
  onProfitTarget : Bool
  onLossLimit : Bool
  channels : List Channel

/-- How a strategy is executed. -/
structure StrategySettings where
  maxGasPerExecution : Float
  executionTimeout : Int
  retryPolicy : RetryPolicy
  notifications : NotificationSettings
  tokenWhitelist : List String
  protocolWhitelist : List String

/-- Limits of a strategy; shares are given in percent. -/
structure RiskParams where
  maxPositionSize : Float
  maxDailyLoss : Float
  maxDrawdown : Float
  stopLossPercent : Float
  takeProfitPercent : Float
  maxSlippage : Float
  maxTradesPerDay : Int
  cooldownSeconds : Int

structure Strategy where
  id : String
  name : String
  description : String
  category : StrategyCategory
  version : String
  status : StrategyStatus
  blocks : List Block
  connections : List Connection
  settings : StrategySettings
  riskParams : RiskParams
  tags : List String
  metadata : Assoc Json

def RetryPolicy.standard : RetryPolicy := ⟨3, 1000, 2⟩

def NotificationSettings.standard : NotificationSettings := ⟨true, true, true, true, [.telegram]⟩

def StrategySettings.standard : StrategySettings :=
  ⟨1, 60000, .standard, .standard, [], []⟩

def RiskParams.standard : RiskParams := ⟨30, 5, 15, 5, 10, 2, 20, 300⟩

namespace Strategy

/-- The first block with an id. -/
def block? (s : Strategy) (id : String) : Option Block := s.blocks.find? (·.id == id)

def blocksOf (s : Strategy) (category : BlockCategory) : List Block :=
  s.blocks.filter (·.category == category)

def triggers (s : Strategy) : List Block := s.blocksOf .trigger

/-- The targets of the connections that leave a block, in order. -/
def successors (s : Strategy) (id : String) : List String :=
  (s.connections.filter (·.sourceBlock == id)).map (·.targetBlock)

end Strategy

end Tradeflow
