/-
  When a validation gives a verdict. Everything but the score is collected without conditions, and the
  score is a sum that is rounded down to a whole number: so there is a verdict exactly if that sum is
  finite, and its score then lies between 0 and 100 (`validate_returns_iff`). The sum is finite for
  limits of any size that makes sense, and not for a limit that is no number or infinite, which the
  parameters of a strategy may be; a large finite limit can overflow on the way.
-/
import Tradeflow.Proofs.Number.Magnitude
import Tradeflow.Proofs.Number.Monotone
import Tradeflow.Proofs.Validation.RiskOrder

namespace Tradeflow

/-- The limits that the score is made of. -/
def RiskParams.scored (p : RiskParams) : List Float :=
  [p.maxPositionSize, p.maxDailyLoss, p.maxDrawdown, p.maxSlippage]

namespace Double

/-- Only what is finite can be rounded down. -/
theorem floor_of_finite {x : Float} (h : isFinite x = true) : ∃ n, Scalar.floor? x = .ok n := by
  show ∃ n, floor x = .ok n
  unfold isFinite at h
  unfold floor
  cases hview : view x with
  | nan | infinite =>
    rw [hview] at h
    cases h
  | finite negative m e => exact ⟨_, rfl⟩

theorem floor_of_not_finite {x : Float} (h : isFinite x = false) :
    ∃ f, Scalar.floor? x = .error f ∧ (f = .floorOfNaN ∨ f = .floorOfInfinity) := by
  show ∃ f, floor x = .error f ∧ _
  unfold isFinite at h
  unfold floor
  cases hview : view x with
  | nan => exact ⟨_, rfl, .inl rfl⟩
  | infinite negative => exact ⟨_, rfl, .inr rfl⟩
  | finite negative m e =>
    rw [hview] at h
    cases h

end Double

open Double

/-! ## When the sum is finite -/

theorem within_zero (k : Int) : Within k (Scalar.nat 0 : Float) := trivial

theorem within_excess {x : Float} {k : Int} {n : Nat} (hx : Within k x)
    (hn : Within k (Scalar.nat n : Float)) (hk : k ≤ 1022) : Within (k + 2) (excess x n : Float) := by
  have hsub : Within (k + 2) (x - Scalar.nat n) := hx.sub hn hk
  unfold excess Scalar.larger
  split
  · exact within_zero _
  · exact hsub

namespace Strategy

theorem within_category (c : StrategyCategory) : Within 1014 (Scalar.nat c.risk : Float) := by
  cases c <;> decide +kernel

/-- Limits and numbers of findings of any sensible size keep the sum finite. -/
theorem rawRisk_within (s : Strategy) {issues : List Issue} (hcount : exceededCount issues ≤ 10 ^ 15)
    (hlimits : ∀ x ∈ s.riskParams.scored, Within 1000 x) :
    Within 1020 (s.rawRisk Float issues + Scalar.decimal 5 1) := by
  simp only [RiskParams.scored, List.forall_mem_cons] at hlimits
  obtain ⟨hposition, hloss, hdrawdown, hslippage, -⟩ := hlimits
  have hposition : Within 1004 (excess s.riskParams.maxPositionSize 30 * Scalar.decimal 15 1) :=
    (within_excess hposition (by decide +kernel) (by decide)).mul
      (show OneTo 1 _ by decide +kernel) (by decide)
  have hloss : Within 1006 (excess s.riskParams.maxDailyLoss 5 * Scalar.nat 2) :=
    ((within_excess hloss (by decide +kernel) (by decide)).mul
      (show OneTo 2 _ by decide +kernel) (by decide)).mono (by decide)
  have hdrawdown : Within 1008 (excess s.riskParams.maxDrawdown 15 : Float) :=
    (within_excess hdrawdown (by decide +kernel) (by decide)).mono (by decide)
  have hslippage : Within 1012 (excess s.riskParams.maxSlippage 2 * Scalar.nat 5) :=
    ((within_excess hslippage (by decide +kernel) (by decide)).mul
      (show OneTo 3 _ by decide +kernel) (by decide)).mono (by decide)
  have hcategory := within_category s.category
  have hfindings : Within 1016 (Scalar.nat (5 * exceededCount issues) : Float) :=
    (within_ofNat (k := 53) (by omega) (by decide)).mono (by decide)
  have hlimits := (((within_zero 1004).add hposition (by decide)).add hloss (by decide)).add
    hdrawdown (by decide)
  have hstop : ∀ b : Bool, ∀ x : Float, Within 1010 x →
      Within 1012 (if b then x + Scalar.nat 15 else x) := by
    intro b x hx
    cases b with
    | false => exact hx.mono (by decide)
    | true => exact hx.add (show Within 1010 (Scalar.nat 15 : Float) by decide +kernel) (by decide)
  exact (((((hstop _ _ hlimits).add hslippage (by decide)).add
    hcategory (by decide)).add hfindings (by decide)).add
    (show Within 1018 (Scalar.decimal 5 1 : Float) by decide +kernel) (by decide))

/-! ## When it is not -/

/-- A part of the score that a limit makes is not finite. -/
def LimitOverflows (p : RiskParams) : Prop :=
  isFinite (excess p.maxPositionSize 30 * Scalar.decimal 15 1 : Float) = false ∨
    isFinite (excess p.maxDailyLoss 5 * Scalar.nat 2 : Float) = false ∨
    isFinite (excess p.maxDrawdown 15 : Float) = false ∨
    isFinite (excess p.maxSlippage 2 * Scalar.nat 5 : Float) = false

/-- Neither no number nor what is infinite upwards leads to a finite part. -/
theorem limitOverflows_of_unbounded {p : RiskParams}
    (h : ∃ x ∈ p.scored, x = Json.notANumber ∨ x = Json.infinity false) : LimitOverflows p := by
  obtain ⟨x, hx, hunbounded⟩ := h
  simp only [RiskParams.scored, List.mem_cons, List.not_mem_nil, or_false] at hx
  unfold LimitOverflows
  rcases hx with rfl | rfl | rfl | rfl
  · left
    rcases hunbounded with h | h <;> rw [h] <;> decide +kernel
  · right; left
    rcases hunbounded with h | h <;> rw [h] <;> decide +kernel
  · right; right; left
    rcases hunbounded with h | h <;> rw [h] <;> decide +kernel
  · right; right; right
    rcases hunbounded with h | h <;> rw [h] <;> decide +kernel

/-- A part that is not finite is not made up for by the others. -/
theorem rawRisk_not_finite (s : Strategy) (issues : List Issue) (h : LimitOverflows s.riskParams) :
    isFinite (s.rawRisk Float issues + Scalar.decimal 5 1) = false := by
  have hstop : ∀ b : Bool, ∀ x : Float, isFinite x = false →
      isFinite (if b then x + Scalar.nat 15 else x) = false := by
    intro b x hx
    cases b with
    | false => exact hx
    | true => exact isFinite_add_left _ hx
  refine isFinite_add_left _ (isFinite_add_left _ (isFinite_add_left _ ?_))
  rcases h with hposition | hloss | hdrawdown | hslippage
  · exact isFinite_add_left _ (hstop _ _ (isFinite_add_left _ (isFinite_add_left _
      (isFinite_add_right _ hposition))))
  · exact isFinite_add_left _ (hstop _ _ (isFinite_add_left _ (isFinite_add_right _ hloss)))
  · exact isFinite_add_left _ (hstop _ _ (isFinite_add_right _ hdrawdown))
  · exact isFinite_add_right _ hslippage

/-! ## With fewer points -/

/-- The part of the score that the limits make. -/
def limitRisk (p : RiskParams) : Float :=
  let score : Float := Scalar.nat 0 + excess p.maxPositionSize 30 * Scalar.decimal 15 1
  let score := score + excess p.maxDailyLoss 5 * Scalar.nat 2
  let score := score + excess p.maxDrawdown 15
  let score :=
    if Scalar.isZero (Scalar.ofFloat p.stopLossPercent : Float) then score + Scalar.nat 15
    else score
  score + excess p.maxSlippage 2 * Scalar.nat 5

theorem rawRisk_eq (s : Strategy) (issues : List Issue) :
    s.rawRisk Float issues = limitRisk s.riskParams + Scalar.nat s.category.risk +
      Scalar.nat (5 * exceededCount issues) := rfl

theorem notNegative_excess (x : Float) (n : Nat) :
    NotNegative (excess x n : Float).toModel.unpack := by
  unfold excess Scalar.larger
  split
  case isTrue => trivial
  case isFalse hless => exact notNegative_of_not_less (Bool.eq_false_iff.2 hless)

theorem notNegative_limitRisk (p : RiskParams) : NotNegative (limitRisk p).toModel.unpack := by
  have hstop : ∀ b : Bool, ∀ x : Float, NotNegative x.toModel.unpack →
      NotNegative (if b then x + Scalar.nat 15 else x).toModel.unpack := by
    intro b x hx
    cases b with
    | false => exact hx
    | true => exact notNegative_add hx (by decide +kernel)
  have hposition := notNegative_mul (notNegative_excess p.maxPositionSize 30)
    (y := Scalar.decimal 15 1) (by decide +kernel)
  have hloss := notNegative_mul (notNegative_excess p.maxDailyLoss 5) (y := Scalar.nat 2)
    (by decide +kernel)
  have hslippage := notNegative_mul (notNegative_excess p.maxSlippage 2) (y := Scalar.nat 5)
    (by decide +kernel)
  exact notNegative_add (hstop _ _ (notNegative_add (notNegative_add
    (notNegative_add (x := Scalar.nat 0) trivial hposition) hloss)
    (notNegative_excess p.maxDrawdown 15))) hslippage

/-- A sum that is finite stays so with fewer points for the category and for findings. -/
theorem rawRisk_finite_of_le (s s' : Strategy) {issues issues' : List Issue}
    (hlimits : s'.riskParams = s.riskParams) (hcategory : s'.category.risk ≤ s.category.risk)
    (hcount : exceededCount issues' ≤ exceededCount issues)
    (hfinite : isFinite (s.rawRisk Float issues + Scalar.decimal 5 1) = true) :
    isFinite (s'.rawRisk Float issues' + Scalar.decimal 5 1) = true := by
  rw [rawRisk_eq] at hfinite
  rw [rawRisk_eq, hlimits]
  obtain ⟨hpoints, -⟩ := isFinite_terms hfinite
  obtain ⟨hpurpose, hfindings⟩ := isFinite_terms hpoints
  obtain ⟨hbase, hrisk⟩ := isFinite_terms hpurpose
  have hlow := upTo_add (upTo_self (notNegative_limitRisk s.riskParams) hbase)
    (upTo_ofNat hcategory hrisk) hpurpose
  have hlow := upTo_add hlow (upTo_ofNat (Nat.mul_le_mul_left 5 hcount) hfindings) hpoints
  exact (upTo_add hlow (upTo_self (by decide +kernel) (by decide +kernel)) hfinite).isFinite

end Strategy

/-! ## The verdict -/

namespace Validator

theorem validate_of_finite (v : Validator) (s : Strategy)
    (h : isFinite (s.rawRisk Float (v.findings Float s) + Scalar.decimal 5 1) = true) :
    ∃ r, v.validate Float s = .ok r ∧ 0 ≤ r.riskScore ∧ r.riskScore ≤ 100 := by
  obtain ⟨n, hfloor⟩ := floor_of_finite h
  have hscore : s.riskScore Float (v.findings Float s) = .ok (max 0 (min n 100)) := by
    rw [Strategy.riskScore, hfloor]
  refine ⟨_, by rw [validate, hscore], le_max_left .., ?_⟩
  exact max_le (show (0 : Int) ≤ 100 by decide) (min_le_right ..)

theorem validate_of_not_finite (v : Validator) (s : Strategy)
    (h : isFinite (s.rawRisk Float (v.findings Float s) + Scalar.decimal 5 1) = false) :
    ∃ f, v.validate Float s = .error f ∧ (f = .floorOfNaN ∨ f = .floorOfInfinity) := by
  obtain ⟨f, hfloor, hcause⟩ := floor_of_not_finite h
  have hscore : s.riskScore Float (v.findings Float s) = .error f := by
    rw [Strategy.riskScore, hfloor]
  exact ⟨f, by rw [validate, hscore], hcause⟩

/-- There is a verdict, with a score from 0 to 100, exactly if the sum behind the score is finite;
nothing else can keep it away. That is so when no limit is out of all proportion, and not when one is
no number or infinite. -/
theorem validate_returns_iff (v : Validator) (s : Strategy) :
    ((∃ r, v.validate Float s = .ok r ∧ 0 ≤ r.riskScore ∧ r.riskScore ≤ 100) ↔
      isFinite (s.rawRisk Float (v.findings Float s) + Scalar.decimal 5 1) = true) ∧
    (∀ f, v.validate Float s = .error f → f = .floorOfNaN ∨ f = .floorOfInfinity) ∧
    ((∀ x ∈ s.riskParams.scored, isFinite x = true ∧ |exact x| ≤ 10 ^ 300) →
      exceededCount (v.findings Float s) ≤ 10 ^ 15 →
      ∃ r, v.validate Float s = .ok r ∧ 0 ≤ r.riskScore ∧ r.riskScore ≤ 100) ∧
    ((∃ x ∈ s.riskParams.scored, x = Json.notANumber ∨ x = Json.infinity false) →
      ∃ f, v.validate Float s = .error f) := by
  refine ⟨⟨fun ⟨r, hr, _⟩ => ?_, v.validate_of_finite s⟩, fun f hf => ?_,
    fun hlimits hcount => ?_, fun hlimit => ?_⟩
  · by_contra hinfinite
    obtain ⟨f, hf, -⟩ := v.validate_of_not_finite s (Bool.eq_false_iff.2 hinfinite)
    cases hr.symm.trans hf
  · cases hfinite : isFinite (s.rawRisk Float (v.findings Float s) + Scalar.decimal 5 1) with
    | true =>
      obtain ⟨r, hr, -⟩ := v.validate_of_finite s hfinite
      cases hr.symm.trans hf
    | false =>
      obtain ⟨g, hg, hcause⟩ := v.validate_of_not_finite s hfinite
      cases hf.symm.trans hg
      exact hcause
  · refine v.validate_of_finite s (s.rawRisk_within hcount fun x hx => ?_).isFinite
    obtain ⟨hfinite, hsize⟩ := hlimits x hx
    have hpower : (10 : Rat) ^ 300 < 2 ^ 1000 :=
      calc (10 : Rat) ^ 300 = (10 ^ 3) ^ 100 := pow_mul 10 3 100
        _ < (2 ^ 10) ^ 100 := pow_lt_pow_left₀ (by norm_num) (by norm_num) (by decide)
        _ = 2 ^ 1000 := (pow_mul 2 10 100).symm
    exact within_of_exact (k := 1000) hfinite (hsize.trans_lt hpower)
  · obtain ⟨f, hf, -⟩ := v.validate_of_not_finite s
      (s.rawRisk_not_finite _ (Strategy.limitOverflows_of_unbounded hlimit))
    exact ⟨f, hf⟩

/-- A limit that is finite, but so large that its part of the score is not. -/
def vastRisk : RiskParams := { RiskParams.standard with maxPositionSize := 1.5e308 }

theorem vastRisk_not_validated :
    isFinite vastRisk.maxPositionSize = true ∧
      ∀ r, standard.validate Float (hourlySwap.limitedBy vastRisk) ≠ .ok r := by
  refine ⟨by decide +kernel, fun r hr => ?_⟩
  have hoverflow : Strategy.LimitOverflows vastRisk := .inl (by decide +kernel)
  obtain ⟨f, hf, -⟩ := standard.validate_of_not_finite (hourlySwap.limitedBy vastRisk)
    (Strategy.rawRisk_not_finite _ _ hoverflow)
  cases hr.symm.trans hf

end Validator

end Tradeflow
