/-
  The verdict against the risk that a strategy takes, in exact arithmetic. `NoRiskier` orders risk
  parameters: no limit is wider, and a stop loss is given up by the riskier side only.
  `riskIssues_sublist`: along this order findings of the risk pass are only added, never lost, so
  there are only more errors and more warnings. `rawRisk_mono`: each part of the score grows, the
  points for findings with them. `deployable_antitone` puts the two together: what may be deployed
  may be deployed with less risk too.
-/
import Mathlib.Data.Rat.Floor
import Mathlib.Tactic.GCongr
import Mathlib.Tactic.NormNum
import Tradeflow.Proofs.Number.Rational
import Tradeflow.Proofs.Validation.Acceptance

namespace Tradeflow

/-! ## The order -/

/-- The first parameters take no more risk than the second ones. -/
structure RiskParams.NoRiskier (p q : RiskParams) : Prop where
  positionSize : Double.exact p.maxPositionSize ≤ Double.exact q.maxPositionSize
  dailyLoss : Double.exact p.maxDailyLoss ≤ Double.exact q.maxDailyLoss
  drawdown : Double.exact p.maxDrawdown ≤ Double.exact q.maxDrawdown
  slippage : Double.exact p.maxSlippage ≤ Double.exact q.maxSlippage
  tradesPerDay : p.maxTradesPerDay ≤ q.maxTradesPerDay
  stopLoss : Double.exact p.stopLossPercent = 0 → Double.exact q.stopLossPercent = 0

/-- The strategy with other risk parameters. -/
def Strategy.limitedBy (s : Strategy) (p : RiskParams) : Strategy := { s with riskParams := p }

@[simp]
theorem Strategy.limitedBy_category (s : Strategy) (p : RiskParams) :
    (s.limitedBy p).category = s.category := rfl

@[simp]
theorem Strategy.limitedBy_riskParams (s : Strategy) (p : RiskParams) :
    (s.limitedBy p).riskParams = p := rfl

/-! ## Findings -/

theorem riskIssue_sublist {a b : Bool} (h : a = true → b = true) (severity : Severity)
    (message : String) (field : Option String) :
    (riskIssue a severity message field).Sublist (riskIssue b severity message field) := by
  cases a with
  | false => exact List.nil_sublist _
  | true => rw [h rfl]

theorem exceeds_mono {x y : Float} (h : Double.exact x ≤ Double.exact y) (n : Nat) :
    exceeds Rat x n = true → exceeds Rat y n = true := by
  intro hx
  exact decide_eq_true ((of_decide_eq_true hx).trans_le h)

theorem isZero_exact (x : Float) :
    Scalar.isZero (Scalar.ofFloat x : Rat) = true ↔ Double.exact x = 0 :=
  decide_eq_true_iff

namespace Strategy

/-- With more risk the risk pass reports what it reported, and perhaps more. -/
theorem riskIssues_sublist (s : Strategy) {p q : RiskParams} (h : p.NoRiskier q) :
    ((s.limitedBy p).riskIssues Rat).Sublist ((s.limitedBy q).riskIssues Rat) := by
  have hstop : (Scalar.isZero (Scalar.ofFloat p.stopLossPercent : Rat) &&
      s.category == .trading) = true →
      (Scalar.isZero (Scalar.ofFloat q.stopLossPercent : Rat) && s.category == .trading) = true := by
    simp only [Bool.and_eq_true, isZero_exact]
    exact fun hp => ⟨h.stopLoss hp.1, hp.2⟩
  have htrades : decide (100 < p.maxTradesPerDay) = true →
      decide (100 < q.maxTradesPerDay) = true := by
    simp only [decide_eq_true_eq]
    exact fun hp => hp.trans_le h.tradesPerDay
  exact ((((((((riskIssue_sublist (exceeds_mono h.positionSize 100) ..).append
    (riskIssue_sublist (exceeds_mono h.positionSize 50) ..)).append
    (riskIssue_sublist (exceeds_mono h.dailyLoss 20) ..)).append
    (riskIssue_sublist (exceeds_mono h.drawdown 50) ..)).append
    (riskIssue_sublist hstop ..)).append
    (riskIssue_sublist (exceeds_mono h.slippage 5) ..)).append
    (riskIssue_sublist htrades ..)).append
    (List.Sublist.refl _))

end Strategy

namespace Validator

/-- The other passes do not look at the risk parameters. -/
theorem findings_sublist (v : Validator) (s : Strategy) {p q : RiskParams} (hrules : v.rules = [])
    (h : p.NoRiskier q) :
    (v.findings Rat (s.limitedBy p)).Sublist (v.findings Rat (s.limitedBy q)) := by
  rw [findings, findings, hrules]
  exact (((List.Sublist.refl _).append (s.riskIssues_sublist h)).append (List.Sublist.refl _)).append
    (List.Sublist.refl _)

end Validator

/-! ## The score -/

theorem excess_rat (x : Float) (n : Nat) : (excess x n : Rat) = max (Double.exact x - n) 0 := by
  have hsplit : (excess x n : Rat) = if Double.exact x - n < 0 then 0 else Double.exact x - n := by
    simp [excess, Scalar.larger, Scalar.less, Scalar.ofFloat]
  rw [hsplit]
  split
  case isTrue hneg => exact (max_eq_right hneg.le).symm
  case isFalse hpos => exact (max_eq_left (not_lt.1 hpos)).symm

theorem excess_mono {x y : Float} (h : Double.exact x ≤ Double.exact y) (n : Nat) :
    (excess x n : Rat) ≤ excess y n := by
  rw [excess_rat, excess_rat]
  gcongr

/-- The points for having no stop loss. -/
def RiskParams.stopLossPoints (p : RiskParams) : Rat :=
  if Double.exact p.stopLossPercent = 0 then 15 else 0

theorem RiskParams.NoRiskier.stopLossPoints {p q : RiskParams} (h : p.NoRiskier q) :
    p.stopLossPoints ≤ q.stopLossPoints := by
  unfold RiskParams.stopLossPoints
  by_cases hp : Double.exact p.stopLossPercent = 0
  · rw [if_pos hp, if_pos (h.stopLoss hp)]
  · rw [if_neg hp]
    split <;> norm_num

/-- The findings that count for the score. -/
def exceededCount (issues : List Issue) : Nat :=
  (issues.filter (·.code == .riskExceeded)).length

namespace Strategy

/-- The score before rounding, as a sum of its parts. -/
theorem rawRisk_rat (s : Strategy) (issues : List Issue) :
    s.rawRisk Rat issues =
      excess s.riskParams.maxPositionSize 30 * (15 / 10) + excess s.riskParams.maxDailyLoss 5 * 2
        + excess s.riskParams.maxDrawdown 15 + s.riskParams.stopLossPoints
        + excess s.riskParams.maxSlippage 2 * 5 + s.category.risk + 5 * exceededCount issues := by
  by_cases hstop : Double.exact s.riskParams.stopLossPercent = 0
  · have hzero := (isZero_exact _).2 hstop
    simp [rawRisk, hzero, RiskParams.stopLossPoints, hstop, exceededCount]
  · have hzero : Scalar.isZero (Scalar.ofFloat s.riskParams.stopLossPercent : Rat) = false :=
      Bool.eq_false_iff.2 fun h => hstop ((isZero_exact _).1 h)
    simp [rawRisk, hzero, RiskParams.stopLossPoints, hstop, exceededCount]

theorem rawRisk_mono (s : Strategy) {p q : RiskParams} {fp fq : List Issue} (h : p.NoRiskier q)
    (hf : fp.Sublist fq) : (s.limitedBy p).rawRisk Rat fp ≤ (s.limitedBy q).rawRisk Rat fq := by
  have hcount : exceededCount fp ≤ exceededCount fq := (hf.filter _).length_le
  have hposition := excess_mono h.positionSize 30
  have hloss := excess_mono h.dailyLoss 5
  have hdrawdown := excess_mono h.drawdown 15
  have hslippage := excess_mono h.slippage 2
  have hstop := h.stopLossPoints
  rw [rawRisk_rat, rawRisk_rat]
  simp only [limitedBy_riskParams, limitedBy_category]
  gcongr

/-- In exact arithmetic there always is a score. -/
theorem riskScore_rat (s : Strategy) (issues : List Issue) :
    s.riskScore Rat issues = .ok (max 0 (min (s.rawRisk Rat issues + 5 / 10).floor 100)) := by
  simp [riskScore, Scalar.floor?]

end Strategy

/-! ## The verdict -/

namespace Validator

/-- In strict mode and in the lenient one, fewer findings cannot make a strategy invalid. -/
theorem decide_antitone (config : ValidationConfig) {ep eq wp wq : List Issue}
    (herrors : ep.Sublist eq) (hwarnings : wp.Sublist wq) :
    decide config eq wq = true → decide config ep wp = true := by
  simp only [decide, Bool.and_eq_true, Bool.not_eq_true', Bool.and_eq_false_iff, List.isEmpty_iff,
    List.any_eq_false]
  rintro ⟨rfl, hmode⟩
  refine ⟨List.sublist_nil.1 herrors, hmode.imp_right fun hnone i hi => ?_⟩
  exact hnone i (hwarnings.mem hi)

/-- With more risk a strategy gets a score that is no lower, keeps its findings, and may be deployed
only if it could be deployed before. -/
theorem deployable_antitone (v : Validator) (s : Strategy) (p q : RiskParams) (hrules : v.rules = [])
    (h : p.NoRiskier q) :
    ∃ rp rq, v.validate Rat (s.limitedBy p) = .ok rp ∧ v.validate Rat (s.limitedBy q) = .ok rq ∧
      (0 ≤ rp.riskScore ∧ rp.riskScore ≤ rq.riskScore ∧ rq.riskScore ≤ 100) ∧
      (∀ i ∈ (s.limitedBy p).riskIssues Rat, i ∈ (s.limitedBy q).riskIssues Rat ∧
        (i ∈ rq.errors ∨ i ∈ rq.warnings)) ∧
      rp.errors.Sublist rq.errors ∧ rp.warnings.Sublist rq.warnings ∧
      (v.isDeployable rq = true → v.isDeployable rp = true) := by
  have hfindings := v.findings_sublist s hrules h
  have herrors := hfindings.filter (·.severity == .error)
  have hwarnings := hfindings.filter (·.severity != .error)
  have hraw := s.rawRisk_mono h hfindings
  have hfloor : ((s.limitedBy p).rawRisk Rat (v.findings Rat (s.limitedBy p)) + 5 / 10).floor ≤
      ((s.limitedBy q).rawRisk Rat (v.findings Rat (s.limitedBy q)) + 5 / 10).floor :=
    Rat.floor_monotone (by gcongr)
  have hscore := max_le_max (le_refl 0) (min_le_min hfloor (le_refl 100))
  refine ⟨_, _, by rw [validate, Strategy.riskScore_rat], by rw [validate, Strategy.riskScore_rat],
    ⟨le_max_left .., hscore,
      max_le (show (0 : Int) ≤ 100 by decide) (min_le_right ..)⟩, fun i hi => ?_, herrors,
    hwarnings, ?_⟩
  · have hq := (s.riskIssues_sublist h).mem hi
    have hreported : i ∈ v.findings Rat (s.limitedBy q) := by
      simp [findings, hq]
    refine ⟨hq, ?_⟩
    by_cases hsev : i.severity = .error
    · exact .inl (List.mem_filter.2 ⟨hreported, by simp [hsev]⟩)
    · exact .inr (List.mem_filter.2 ⟨hreported, by simp [hsev]⟩)
  · simp only [isDeployable, Bool.and_eq_true, decide_eq_true_eq]
    rintro ⟨hvalid, hlow⟩
    exact ⟨decide_antitone v.config herrors hwarnings hvalid, hscore.trans_lt hlow⟩

/-- Larger positions, and no stop loss. -/
def boldRisk : RiskParams := { RiskParams.standard with maxPositionSize := 40, stopLossPercent := 0 }

set_option maxRecDepth 4000 in
theorem boldRisk_deployable :
    ((standard.validate Rat (hourlySwap.limitedBy boldRisk)).map standard.isDeployable).toOption =
      some true := by
  have hcycle : (hourlySwap.limitedBy boldRisk).findCycle = [] := by cbv
  have hreach : (hourlySwap.limitedBy boldRisk).findUnreachable = [] := by cbv
  rw [validate, findings, Strategy.structureIssues, hcycle, hreach]
  decide +kernel

/-- The hourly swap may be deployed with them, so it may be with the usual parameters. -/
theorem hourlySwap_deployable :
    ∃ r, standard.validate Rat (hourlySwap.limitedBy .standard) = .ok r ∧
      standard.isDeployable r = true := by
  have hless : RiskParams.standard.NoRiskier boldRisk :=
    { positionSize := by decide +kernel
      dailyLoss := le_rfl
      drawdown := le_rfl
      slippage := le_rfl
      tradesPerDay := le_rfl
      stopLoss := by decide +kernel }
  obtain ⟨rp, rq, hp, hq, -, -, -, -, hkept⟩ :=
    deployable_antitone standard hourlySwap .standard boldRisk rfl hless
  refine ⟨rp, hp, hkept ?_⟩
  have hbold := boldRisk_deployable
  rw [hq] at hbold
  exact Option.some.inj hbold

end Validator

end Tradeflow
