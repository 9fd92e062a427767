/-
  The passes over a strategy, each a list of findings: structure, connections, settings of blocks, risk
  limits, compliance; and the security checks.
-/
import Tradeflow.Catalog.Core
import Tradeflow.Json.Display
import Tradeflow.Json.Printer
import Tradeflow.Number.Scalar
import Tradeflow.Validation.Graph
import Tradeflow.Validation.Whitelist

namespace Tradeflow

/-- May an output of one type feed an input of another, the types given by name? -/
def typesCompatible (source target : String) : Bool :=
  source == target || target == "any" || (source == "trigger" && target == "boolean")

/-- May an output of one type feed an input of another? -/
def PortType.feeds (source target : PortType) : Bool := typesCompatible source.word target.word

namespace Issue

/-- A finding about the strategy as a whole. -/
def general (severity : Severity) (code : IssueCode) (message : String) : Issue :=
  ⟨severity, code, message, none, none, none⟩

/-- A finding about a connection, which is always an error. -/
def ofConnection (c : Connection) (code : IssueCode) (message : String) : Issue :=
  ⟨.error, code, message, none, some c.id, none⟩

/-- A finding about a setting or a port of a block. -/
def ofBlock (b : Block) (severity : Severity) (code : IssueCode) (message field : String) : Issue :=
  ⟨severity, code, message, some b.id, none, some field⟩

end Issue

namespace Strategy

def structureIssues (s : Strategy) : List Issue :=
  let cycle := s.findCycle
  (if (s.blocksOf .trigger).isEmpty then
    [Issue.general .error .missingTrigger "Strategy must have at least one trigger block"] else [])
  ++ (if (s.blocksOf .action).isEmpty then
    [Issue.general .warning .missingRequiredInput "Strategy must have at least one action block"]
    else [])
  ++ (if cycle.isEmpty then [] else
    [Issue.general .error .circularDependency
      ("Circular dependency detected: " ++ String.intercalate " -> " cycle)])
  ++ s.findUnreachable.filterMap fun id =>
    match s.block? id with
    | some b =>
      if b.category == .utility then none
      else some ⟨.warning, .unreachableBlock,
        "Block \"" ++ b.name ++ "\" is not connected and will not execute", some id, none, none⟩
    | none => none

/-- What is wrong with a connection, if anything: the first of a missing source, target, output or
input, or types that do not fit. -/
def connectionIssue? (s : Strategy) (c : Connection) : Option Issue :=
  match s.block? c.sourceBlock with
  | none => some (.ofConnection c .invalidConnection ("Source block not found: " ++ c.sourceBlock))
  | some source =>
    match s.block? c.targetBlock with
    | none => some (.ofConnection c .invalidConnection ("Target block not found: " ++ c.targetBlock))
    | some target =>
      match source.output? c.sourceOutput with
      | none => some (.ofConnection c .invalidConnection
          ("Output not found: " ++ c.sourceOutput ++ " on " ++ source.name))
      | some output =>
        match target.input? c.targetInput with
        | none => some (.ofConnection c .invalidConnection
            ("Input not found: " ++ c.targetInput ++ " on " ++ target.name))
        | some input =>
          if output.dataType.feeds input.dataType then none
          else some (.ofConnection c .typeMismatch
            ("Type mismatch: " ++ output.dataType.word ++ " -> " ++ input.dataType.word))

/-- Does a connection lead to this input? -/
def wired (s : Strategy) (block input : String) : Bool :=
  s.connections.any fun c => c.targetBlock == block && c.targetInput == input

/-- The required inputs of a block to which nothing is connected. -/
def openInputIssues (s : Strategy) (b : Block) : List Issue :=
  if b.category == .trigger then []
  else
    (b.inputs.filter fun p => p.required && !s.wired b.id p.id).map fun p =>
      .ofBlock b .error .missingRequiredInput
        ("Required input \"" ++ (if p.label = "" then p.id else p.label)
          ++ "\" is not connected on \"" ++ b.name ++ "\"") p.id

def connectionIssues (s : Strategy) : List Issue :=
  s.connections.filterMap s.connectionIssue? ++ s.blocks.flatMap s.openInputIssues

end Strategy

namespace Json

/-- Is the value a number above `n`? Truth values are no numbers. -/
def numberAbove (n : Nat) : Json → Bool
  | .int k => decide ((n : Int) < k)
  | .num x => decide (Float.ofNat n < x)
  | _ => false

/-- Is the value a number that is not above zero? -/
def numberNotPositive : Json → Bool
  | .int k => decide (k ≤ 0)
  | .num x => decide (x ≤ 0)
  | _ => false

end Json

def comparisonOperators : List String := ["eq", "neq", "gt", "gte", "lt", "lte", "in", "nin"]

def logicOperators : List String := ["and", "or", "not", "xor"]

/-- The settings of a risk block that have to be positive. -/
def positiveRiskKeys : List String := ["value", "maxValue", "seconds", "maxTrades", "maxLoss"]

namespace Block

def isLogicGate (b : Block) : Bool := b.type == some "condition_logic" || b.name == "Logic Gate"

/-- The operators that a condition block may have. -/
def allowedOperators (b : Block) : List String :=
  if b.isLogicGate then logicOperators else comparisonOperators

/-- Is a value one of some words? -/
def isWordOf (words : List String) : Json → Bool
  | .str s => words.contains s
  | _ => false

/-- An interval is set to something. -/
def hasInterval (b : Block) : Bool := (b.setting? "interval").any Json.truthy

/-- Does the block run at intervals? -/
def wantsInterval (b : Block) : Bool :=
  (b.setting? "scheduleType").bind Json.text? == some "interval"

def scheduleIssues (b : Block) : List Issue :=
  if b.category == .trigger && b.wantsInterval && !b.hasInterval then
    [.ofBlock b .error .missingRequiredInput "Interval is required for scheduled triggers" "interval"]
  else []

def tokenIssues (config : ValidationConfig) (b : Block) : List Issue :=
  tokenKeys.filterMap fun key => (b.name? key).bind fun t =>
    if Text.isPlaceholder t || config.tokenAllowed t then none
    else some (.ofBlock b .warning .unsupportedToken
      ("Token \"" ++ t ++ "\" is not in the whitelist") key)

def protocolIssues (config : ValidationConfig) (b : Block) : List Issue :=
  protocolKeys.filterMap fun key => (b.name? key).bind fun p =>
    if config.protocolAllowed p then none
    else some (.ofBlock b .warning .unsupportedProtocol
      ("Protocol \"" ++ p ++ "\" is not in the whitelist") key)

/-- Tokens and protocols are looked at in triggers, conditions and actions. -/
def whitelistIssues (config : ValidationConfig) (b : Block) : List Issue :=
  match b.category with
  | .trigger | .condition | .action => b.tokenIssues config ++ b.protocolIssues config
  | _ => []

def slippageIssues (b : Block) : List Issue :=
  if (b.setting? "maxSlippage").any (Json.numberAbove 10) then
    [.ofBlock b .warning .riskExceeded "Slippage tolerance is very high (>10%)" "maxSlippage"]
  else []

def limitIssues (b : Block) : List Issue :=
  (positiveRiskKeys.filter fun key => (b.setting? key).any Json.numberNotPositive).map fun key =>
    .ofBlock b .error .invalidConfig "Risk limit value must be positive" key

def operatorIssues (b : Block) : List Issue :=
  match b.setting? "operator" with
  | none => []
  | some operator =>
    if operator.truthy && !isWordOf b.allowedOperators operator then
      [.ofBlock b .error .invalidConfig ("Invalid operator: " ++ operator.display) "operator"]
    else []

/-- Findings that only one category of blocks can have. -/
def categoryIssues (b : Block) : List Issue :=
  match b.category with
  | .action => b.slippageIssues
  | .risk => b.limitIssues
  | .condition => b.operatorIssues
  | _ => []

def settingIssues (config : ValidationConfig) (b : Block) : List Issue :=
  b.scheduleIssues ++ b.whitelistIssues config ++ b.categoryIssues

/-- The type of the block, or one made of its name. -/
def typeName (b : Block) : String :=
  b.givenType?.getD (Text.replaceChar ' ' '_' (Text.lower b.name))

def typeIssues (catalog : Catalog) (b : Block) : List Issue :=
  if (catalog.get? b.typeName).isNone && b.typeName != "utility_comment" && b.name != "Comment" then
    [⟨.info, .invalidConfig, "Unknown block type: " ++ b.givenType?.getD b.name, some b.id, none,
      none⟩]
  else []

/-- All findings about a block by itself. -/
def issues (config : ValidationConfig) (catalog : Catalog) (b : Block) : List Issue :=
  b.typeIssues catalog ++ b.settingIssues config

end Block

/-- One limit that is exceeded under a condition. -/
def riskIssue (exceeded : Bool) (severity : Severity) (message : String) (field : Option String) :
    List Issue :=
  if exceeded then [⟨severity, .riskExceeded, message, none, none, field⟩] else []

/-- Is a setting above a number? -/
def exceeds (R : Type) [Scalar R] (x : Float) (n : Nat) : Bool :=
  Scalar.less (Scalar.nat n : R) (Scalar.ofFloat x)

/-- Findings about the risk limits, which are compared in the arithmetic `R`. -/
def Strategy.riskIssues (R : Type) [Scalar R] (s : Strategy) : List Issue :=
  let p := s.riskParams
  riskIssue (exceeds R p.maxPositionSize 100) .error
      "Maximum position size cannot exceed 100%" (some "maxPositionSize")
    ++ riskIssue (exceeds R p.maxPositionSize 50) .warning
      "High position concentration (>50%) increases risk" (some "maxPositionSize")
    ++ riskIssue (exceeds R p.maxDailyLoss 20) .warning
      "Daily loss limit exceeds 20% - very high risk" (some "maxDailyLoss")
    ++ riskIssue (exceeds R p.maxDrawdown 50) .warning
      "Maximum drawdown exceeds 50% - extreme risk" (some "maxDrawdown")
    ++ riskIssue (Scalar.isZero (Scalar.ofFloat p.stopLossPercent : R) && s.category == .trading)
      .warning "No stop loss configured for trading strategy" (some "stopLossPercent")
    ++ riskIssue (exceeds R p.maxSlippage 5) .warning
      "High slippage tolerance may result in poor execution" (some "maxSlippage")
    ++ riskIssue (decide (100 < p.maxTradesPerDay)) .info
      "Very high trade frequency may incur excessive gas costs" (some "maxTradesPerDay")
    ++ riskIssue (s.blocksOf .risk).isEmpty .info
      "No risk control blocks - consider adding stop loss or position limits" none

/-- The gas that an action costs. -/
def ActionKind.gas (R : Type) [Scalar R] : ActionKind → R
  | .swap => Scalar.decimal 15 2
  | .stake | .unstake => Scalar.decimal 1 1
  | .transfer => Scalar.decimal 5 2
  | .provideLiquidity | .removeLiquidity => Scalar.decimal 2 1
  | .rebalance => Scalar.decimal 3 1
  | _ => Scalar.decimal 5 2

/-- The gas that a block costs, if it costs any. -/
def Block.gas? (R : Type) [Scalar R] (catalog : Catalog) (b : Block) : Option R :=
  match b.category with
  | .action => some ((catalog.actionOf b).gas R)
  | .condition | .risk => some (Scalar.decimal 1 2)
  | _ => none

/-- The gas of all blocks, to six places. -/
def Strategy.estimateGas (R : Type) [Scalar R] (catalog : Catalog) (s : Strategy) : R :=
  Scalar.round 6 ((s.blocks.filterMap (Block.gas? R catalog)).foldl (· + ·) (Scalar.nat 0))

/-- Findings about the gas budget and about tokens and protocols anywhere in the strategy. -/
def Strategy.complianceIssues (R : Type) [Scalar R] (config : ValidationConfig) (catalog : Catalog)
    (s : Strategy) : List Issue :=
  let gas := s.estimateGas R catalog
  let budget : R := Scalar.ofFloat config.maxGasBudget
  (if !Scalar.isZero budget && Scalar.less budget gas then
    [Issue.general .warning .invalidConfig ("Estimated gas (" ++ Scalar.fixed 2 gas
      ++ " TON) exceeds budget (" ++ Decimal.plain.text config.maxGasBudget ++ " TON)")] else [])
  ++ (s.usedTokens.filter fun t => !config.tokenAllowed t).map (fun t =>
    .general .warning .unsupportedToken ("Token \"" ++ t ++ "\" is not in the allowed list"))
  ++ (s.usedProtocols.filter fun p => !config.protocolAllowed p).map fun p =>
    .general .warning .unsupportedProtocol ("Protocol \"" ++ p ++ "\" is not in the allowed list")

/-- May the character stand in an address? -/
def isAddressChar (c : Char) : Bool :=
  ('A' ≤ c && c ≤ 'Z') || ('a' ≤ c && c ≤ 'z') || ('0' ≤ c && c ≤ '9') || c == '_' || c == '-'

/-- Do the first characters form an address: `EQ` and 46 characters more? -/
def startsAddress : List Char → Bool
  | 'E' :: 'Q' :: rest =>
    let body := rest.take 46
    body.length == 46 && body.all isAddressChar
  | _ => false

/-- Is there an address anywhere? -/
def holdsAddress : List Char → Bool
  | [] => false
  | c :: cs => startsAddress (c :: cs) || holdsAddress cs

/-- Is there an address in the text of the block's settings? -/
def Block.holdsAddress (b : Block) : Bool :=
  Tradeflow.holdsAddress (Json.write .line 0 (.obj b.config))

/-- Does a block or a limit stop losses? -/
def Strategy.hasStopLoss (R : Type) [Scalar R] (s : Strategy) : Bool :=
  Scalar.positive (Scalar.ofFloat s.riskParams.stopLossPercent : R)
    || s.blocks.any fun b =>
      b.type == some "risk_stop_loss" || Text.contains (Text.lower b.name) "stop loss"

/-- A check that says why it failed. -/
def SecurityCheck.make (name : String) (passed : Bool) (failure : String) : SecurityCheck :=
  ⟨name, passed, if passed then none else some failure⟩

def Strategy.securityChecks (R : Type) [Scalar R] (config : ValidationConfig) (s : Strategy) :
    List SecurityCheck :=
  [.make "No hardcoded addresses" (!s.blocks.any Block.holdsAddress)
      "Strategy contains hardcoded addresses - use variables instead",
   .make "Risk controls present" (!(s.blocksOf .risk).isEmpty) "Add risk control blocks for safety",
   .make "Reasonable position sizes"
      (Scalar.atMost (Scalar.ofFloat s.riskParams.maxPositionSize : R) (Scalar.nat 50))
      "Position size exceeds 50% - high concentration risk",
   .make "Stop loss configured" (s.hasStopLoss R) "Consider adding a stop loss for protection",
   .make "Notifications enabled"
      (s.settings.notifications.onExecution || s.settings.notifications.onError)
      "Enable notifications to stay informed",
   .make "Whitelisted tokens only" (s.usedTokens.all config.tokenAllowed)
      "Some tokens are not in the whitelist",
   .make "Whitelisted protocols only" (s.usedProtocols.all config.protocolAllowed)
      "Some protocols are not in the whitelist",
   .make "No infinite loops" s.findCycle.isEmpty
      "Circular dependencies detected - may cause infinite loops"]

end Tradeflow
