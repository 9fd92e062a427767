/-
  Strategies as documents.
-/
import Tradeflow.Record.Fields
import Tradeflow.Strategy.Basic

namespace Tradeflow

def BlockCategory.codec : Codec BlockCategory := .oneOf .notALiteral all word

def PortType.codec : Codec PortType := .oneOf .notALiteral all word

def PortSide.codec : Codec PortSide := .oneOf .notALiteral all word

def StrategyCategory.codec : Codec StrategyCategory := .oneOf .notALiteral all word

def StrategyStatus.codec : Codec StrategyStatus := .oneOf .notALiteral all word

def ActionKind.codec : Codec ActionKind := .oneOf .notAMember all word

def TriggerKind.codec : Codec TriggerKind := .oneOf .notAMember all word

def Channel.codec : Codec Channel := .oneOf .notALiteral all word

def Position.codec : Codec Position :=
  .record (.plain "Position") <| Fields.start Position Position.mk
    |>.opt "x" .float 0 (·.x)
    |>.opt "y" .float 0 (·.y)

def Port.codec : Codec Port :=
  .record (.plain "ConnectionPoint") <| Fields.start Port Port.mk
    |>.req "id" .text (·.id)
    |>.req "type" PortSide.codec (·.side)
    |>.req ⟨"data_type", "dataType"⟩ PortType.codec (·.dataType)
    |>.opt "label" .text "" (·.label)
    |>.opt "required" .bool true (·.required)
    |>.opt "multiple" .bool false (·.multiple)

def Block.codec : Codec Block :=
  .record (.plain "Block") <| Fields.start Block Block.mk
    |>.req "id" .text (·.id)
    |>.req "category" BlockCategory.codec (·.category)
    |>.req "name" .text (·.name)
    |>.opt "type" (.optional .text) none (·.type)
    |>.opt "description" .text "" (·.description)
    |>.opt "version" .text "1.0.0" (·.version)
    |>.opt "config" .object [] (·.config)
    |>.opt "position" Position.codec .origin (·.position)
    |>.opt "inputs" (.list Port.codec) [] (·.inputs)
    |>.opt "outputs" (.list Port.codec) [] (·.outputs)
    |>.opt "enabled" .bool true (·.enabled)
    |>.opt ⟨"action_kind", "actionKind"⟩ (.optional ActionKind.codec) none (·.actionKind)
    |>.opt "metadata" .object [] (·.metadata)

def Connection.codec : Codec Connection :=
  .record (.plain "Connection") <| Fields.start Connection Connection.mk
    |>.req "id" .text (·.id)
    |>.req ⟨"source_block_id", "sourceBlockId"⟩ .text (·.sourceBlock)
    |>.req ⟨"source_output_id", "sourceOutputId"⟩ .text (·.sourceOutput)
    |>.req ⟨"target_block_id", "targetBlockId"⟩ .text (·.targetBlock)
    |>.req ⟨"target_input_id", "targetInputId"⟩ .text (·.targetInput)
    |>.opt "label" (.optional .text) none (·.label)

def RetryPolicy.codec : Codec RetryPolicy :=
  .record (.plain "RetryPolicy") <| Fields.start RetryPolicy RetryPolicy.mk
    |>.opt ⟨"max_retries", "maxRetries"⟩ .int 3 (·.maxRetries)
    |>.opt ⟨"backoff_ms", "backoffMs"⟩ .int 1000 (·.backoffMs)
    |>.opt ⟨"backoff_multiplier", "backoffMultiplier"⟩ .float 2 (·.backoffMultiplier)

def NotificationSettings.codec : Codec NotificationSettings :=
  .record (.plain "NotificationSettings") <| Fields.start NotificationSettings NotificationSettings.mk
    |>.opt ⟨"on_execution", "onExecution"⟩ .bool true (·.onExecution)
    |>.opt ⟨"on_error", "onError"⟩ .bool true (·.onError)
    |>.opt ⟨"on_profit_target", "onProfitTarget"⟩ .bool true (·.onProfitTarget)
    |>.opt ⟨"on_loss_limit", "onLossLimit"⟩ .bool true (·.onLossLimit)
    |>.opt "channels" (.list Channel.codec) [.telegram] (·.channels)

def StrategySettings.codec : Codec StrategySettings :=
  .record (.plain "StrategyConfig") <| Fields.start StrategySettings StrategySettings.mk
    |>.opt ⟨"max_gas_per_execution", "maxGasPerExecution"⟩ .float 1 (·.maxGasPerExecution)
    |>.opt ⟨"execution_timeout", "executionTimeout"⟩ .int 60000 (·.executionTimeout)
    |>.opt ⟨"retry_policy", "retryPolicy"⟩ RetryPolicy.codec .standard (·.retryPolicy)
    |>.opt "notifications" NotificationSettings.codec .standard (·.notifications)
    |>.opt ⟨"token_whitelist", "tokenWhitelist"⟩ (.list .text) [] (·.tokenWhitelist)
    |>.opt ⟨"protocol_whitelist", "protocolWhitelist"⟩ (.list .text) [] (·.protocolWhitelist)

def RiskParams.codec : Codec RiskParams :=
  .record (.plain "StrategyRiskParams") <| Fields.start RiskParams RiskParams.mk
    |>.opt ⟨"max_position_size", "maxPositionSize"⟩ .float 30 (·.maxPositionSize)
    |>.opt ⟨"max_daily_loss", "maxDailyLoss"⟩ .float 5 (·.maxDailyLoss)
    |>.opt ⟨"max_drawdown", "maxDrawdown"⟩ .float 15 (·.maxDrawdown)
    |>.opt ⟨"stop_loss_percent", "stopLossPercent"⟩ .float 5 (·.stopLossPercent)
    |>.opt ⟨"take_profit_percent", "takeProfitPercent"⟩ .float 10 (·.takeProfitPercent)
    |>.opt ⟨"max_slippage", "maxSlippage"⟩ .float 2 (·.maxSlippage)
    |>.opt ⟨"max_trades_per_day", "maxTradesPerDay"⟩ .int 20 (·.maxTradesPerDay)
    |>.opt ⟨"cooldown_seconds", "cooldownSeconds"⟩ .int 300 (·.cooldownSeconds)

def Strategy.codec : Codec Strategy :=
  .record (.plain "Strategy") <| Fields.start Strategy Strategy.mk
    |>.req "id" .text (·.id)
    |>.req "name" .text (·.name)
    |>.opt "description" .text "" (·.description)
    |>.opt "category" StrategyCategory.codec .custom (·.category)
    |>.opt "version" .text "1.0.0" (·.version)
    |>.opt "status" StrategyStatus.codec .draft (·.status)
    |>.opt "blocks" (.list Block.codec) [] (·.blocks)
    |>.opt "connections" (.list Connection.codec) [] (·.connections)
    |>.opt "config" StrategySettings.codec .standard (·.settings)
    |>.opt ⟨"risk_params", "riskParams"⟩ RiskParams.codec .standard (·.riskParams)
    |>.opt "tags" (.list .text) [] (·.tags)
    |>.opt "metadata" .object [] (·.metadata)

end Tradeflow
