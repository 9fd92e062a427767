/-
  The verdict on a strategy: all findings, a risk score from 0 to 100, the gas estimate and the security
  checks. A strategy is valid if there is no error, and in strict mode no warning either.
-/
import Tradeflow.Validation.Rules

namespace Tradeflow

/-- A validator: its settings, the known block types and further rules. -/
structure Validator where
  config : ValidationConfig
  catalog : Catalog
  rules : List (Strategy → Option Issue)

/-- The risk that comes with the purpose of a strategy. -/
def StrategyCategory.risk : StrategyCategory → Nat
  | .arbitrage => 20
  | .trading | .liquidityManagement => 10
  | .yieldFarming => 5
  | _ => 0

/-- The excess of a setting over a number, zero below it. -/
def excess {R : Type} [Scalar R] (x : Float) (n : Nat) : R :=
  Scalar.larger (Scalar.ofFloat x - Scalar.nat n) (Scalar.nat 0)

/-- The score before it is rounded and cut to the range. -/
def Strategy.rawRisk (R : Type) [Scalar R] (s : Strategy) (findings : List Issue) : R :=
  let p := s.riskParams
  let exceeded := (findings.filter (·.code == .riskExceeded)).length
  let score : R := Scalar.nat 0 + excess p.maxPositionSize 30 * Scalar.decimal 15 1
  let score := score + excess p.maxDailyLoss 5 * Scalar.nat 2
  let score := score + excess p.maxDrawdown 15
  let score :=
    if Scalar.isZero (Scalar.ofFloat p.stopLossPercent : R) then score + Scalar.nat 15 else score
  let score := score + excess p.maxSlippage 2 * Scalar.nat 5
  let score := score + Scalar.nat s.category.risk
  score + Scalar.nat (5 * exceeded)

/-- The score from 0 to 100; a half is rounded up. -/
def Strategy.riskScore (R : Type) [Scalar R] (s : Strategy) (findings : List Issue) :
    Except Fault Int :=
  match Scalar.floor? (s.rawRisk R findings + Scalar.decimal 5 1) with
  | .ok n => .ok (max 0 (min n 100))
  | .error e => .error e

namespace Validator

/-- All findings, pass by pass. -/
def findings (R : Type) [Scalar R] (v : Validator) (s : Strategy) : List Issue :=
  s.structureIssues ++ s.connectionIssues ++ s.blocks.flatMap (Block.issues v.config v.catalog)
    ++ s.riskIssues R ++ s.complianceIssues R v.config v.catalog ++ v.rules.filterMap (· s)

/-- The verdict that some findings lead to. -/
def decide (config : ValidationConfig) (errors warnings : List Issue) : Bool :=
  errors.isEmpty && !(config.strictMode && warnings.any (·.severity == .warning))

/-- The verdict on a strategy, computed in the arithmetic `R`. -/
def validate (R : Type) [Scalar R] (v : Validator) (s : Strategy) : Except Fault (Verdict R) :=
  let findings := v.findings R s
  let errors := findings.filter (·.severity == .error)
  let warnings := findings.filter (·.severity != .error)
  match s.riskScore R findings with
  | .error e => .error e
  | .ok score => .ok
    { valid := decide v.config errors warnings
      errors := errors
      warnings := warnings
      riskScore := score
      estimatedGas := s.estimateGas R v.catalog
      checks := if v.config.enableSecurityChecks then s.securityChecks R v.config else [] }

/-- May the strategy with this verdict be deployed? -/
def isDeployable {R : Type} (v : Validator) (r : Verdict R) : Bool :=
  r.valid && Decidable.decide (r.riskScore < v.config.maxRiskScore)

/-- A validator with the usual settings and the core block types. -/
def standard : Validator := ⟨.standard, .core, []⟩

end Validator

/-- Findings under a heading that counts them. -/
def Issue.section (title : String) (issues : List Issue) : List String :=
  if issues.isEmpty then []
  else (title ++ " (" ++ toString issues.length ++ "):") :: issues.map fun i => "- " ++ i.message

/-- A report of a verdict to be read. -/
def Verdict.summary {R : Type} [Scalar R] (r : Verdict R) : String :=
  let passed := (r.checks.filter (·.passed)).length
  String.intercalate "\n"
    ([if r.valid then "Strategy is valid" else "Strategy has errors",
      "Risk Score: " ++ toString r.riskScore ++ "/100"]
    ++ Issue.section "Errors" r.errors ++ Issue.section "Warnings" r.warnings
    ++ ["Security: " ++ toString passed ++ "/" ++ toString r.checks.length ++ " checks passed",
        "Estimated gas: " ++ Scalar.fixed 2 r.estimatedGas ++ " TON"])

end Tradeflow
