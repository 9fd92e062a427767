/-
  Findings about a strategy, the verdict made of them, and the settings of the validator.
-/
import Tradeflow.Strategy.Wire

namespace Tradeflow

inductive Severity where
  | error
  | warning
  | info
  deriving DecidableEq, Repr

def Severity.all : List Severity := [.error, .warning, .info]

def Severity.word : Severity → String
  | .error => "error"
  | .warning => "warning"
  | .info => "info"

inductive IssueCode where
  | missingRequiredInput
  | invalidConnection
  | typeMismatch
  | circularDependency
  | unreachableBlock
  | missingTrigger
  | invalidConfig
  | riskExceeded
  | unsupportedToken
  | unsupportedProtocol
  | invalidExpression
  deriving DecidableEq, Repr

def IssueCode.all : List IssueCode :=
  [.missingRequiredInput, .invalidConnection, .typeMismatch, .circularDependency,
    .unreachableBlock, .missingTrigger, .invalidConfig, .riskExceeded, .unsupportedToken,
    .unsupportedProtocol, .invalidExpression]

def IssueCode.word : IssueCode → String
  | .missingRequiredInput => "missing_required_input"
  | .invalidConnection => "invalid_connection"
  | .typeMismatch => "type_mismatch"
  | .circularDependency => "circular_dependency"
  | .unreachableBlock => "unreachable_block"
  | .missingTrigger => "missing_trigger"
  | .invalidConfig => "invalid_config"
  | .riskExceeded => "risk_exceeded"
  | .unsupportedToken => "unsupported_token"
  | .unsupportedProtocol => "unsupported_protocol"
  | .invalidExpression => "invalid_expression"

/-- A finding. -/
structure Issue where
  severity : Severity
  code : IssueCode
  message : String
  blockId : Option String
  connectionId : Option String
  field : Option String
  deriving DecidableEq, Repr

structure SecurityCheck where
  name : String
  passed : Bool
  message : Option String
  deriving DecidableEq, Repr

/-- The outcome of a validation. -/
structure Verdict (R : Type) where
  valid : Bool
  errors : List Issue
  warnings : List Issue
  riskScore : Int
  estimatedGas : R
  checks : List SecurityCheck

/-- The settings of a validator. Everything is allowed where no list is given. -/
structure ValidationConfig where
  strictMode : Bool
  maxRiskScore : Int
  allowedTokens : Option (List String)
  allowedProtocols : Option (List String)
  maxGasBudget : Float
  enableSecurityChecks : Bool

def ValidationConfig.standard : ValidationConfig where
  strictMode := false
  maxRiskScore := 80
  allowedTokens := some ["TON", "USDT", "USDC", "ETH", "BTC", "stTON", "tsTON"]
  allowedProtocols := some ["dedust", "stonfi", "tonstakers", "bemo", "whales", "evaa"]
  maxGasBudget := 5
  enableSecurityChecks := true

def Issue.codec : Codec Issue :=
  .record (.plain "ValidationIssue") <| Fields.start Issue Issue.mk
    |>.req "severity" (.oneOf .notALiteral Severity.all Severity.word) (·.severity)
    |>.req "code" (.oneOf .notALiteral IssueCode.all IssueCode.word) (·.code)
    |>.req "message" .text (·.message)
    |>.opt ⟨"block_id", "blockId"⟩ (.optional .text) none (·.blockId)
    |>.opt ⟨"connection_id", "connectionId"⟩ (.optional .text) none (·.connectionId)
    |>.opt "field" (.optional .text) none (·.field)

def SecurityCheck.codec : Codec SecurityCheck :=
  .record (.plain "SecurityCheck") <| Fields.start SecurityCheck SecurityCheck.mk
    |>.req "name" .text (·.name)
    |>.req "passed" .bool (·.passed)
    |>.opt "message" (.optional .text) none (·.message)

def Verdict.codec : Codec (Verdict Float) :=
  .record (.fixed "ValidationResult") <| Fields.start (Verdict Float) Verdict.mk
    |>.req "valid" .bool (·.valid)
    |>.opt "errors" (.list Issue.codec) [] (·.errors)
    |>.opt "warnings" (.list Issue.codec) [] (·.warnings)
    |>.opt ⟨"risk_score", "riskScore"⟩ .int 0 (·.riskScore)
    |>.opt ⟨"estimated_gas", "estimatedGas"⟩ .float 0 (·.estimatedGas)
    |>.opt ⟨"security_checks", "securityChecks"⟩ (.list SecurityCheck.codec) [] (·.checks)

def ValidationConfig.codec : Codec ValidationConfig :=
  let usual := ValidationConfig.standard
  .record (.strict "ValidationConfig") <| Fields.start ValidationConfig ValidationConfig.mk
    |>.opt ⟨"strict_mode", "strictMode"⟩ .bool usual.strictMode (·.strictMode)
    |>.opt ⟨"max_risk_score", "maxRiskScore"⟩ .int usual.maxRiskScore (·.maxRiskScore)
    |>.opt ⟨"allowed_tokens", "allowedTokens"⟩ (.optional (.list .text)) usual.allowedTokens
        (·.allowedTokens)
    |>.opt ⟨"allowed_protocols", "allowedProtocols"⟩ (.optional (.list .text))
        usual.allowedProtocols (·.allowedProtocols)
    |>.opt ⟨"max_gas_budget", "maxGasBudget"⟩ .float usual.maxGasBudget (·.maxGasBudget)
    |>.opt ⟨"enable_security_checks", "enableSecurityChecks"⟩ .bool usual.enableSecurityChecks
        (·.enableSecurityChecks)

end Tradeflow
