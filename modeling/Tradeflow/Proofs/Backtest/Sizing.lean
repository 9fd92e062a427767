/-
  What the settings of an action allow. An amount is never more than the balance it is taken from, and
  never more than the percentage of it or the fixed number that the settings give (`part_within`); a
  percentage is rounded twice. A slippage is part of a maximum, divided by 100 and taken a hundred times:
  it is rounded three times and still does not come out above the maximum (`recorded_le`), unless there
  is next to nothing of that, where the least double counts (`recorded_close`).

  A setting of zero is no number for an action: it stands for the usual one, as a missing setting does
  (`orUsual`). So an amount of zero is traded, and a maximum of zero lets slippage through.
  `trades_within_settings`: what holds of every trade of every action.
-/
import Tradeflow.Proofs.Backtest.Gains
import Tradeflow.Proofs.Backtest.PriceTriggers
import Tradeflow.Proofs.Number.Whole
import Tradeflow.Proofs.Random.Draws

namespace Tradeflow

open Double Backtest

/-! ## Settings -/

/-- The number that an action goes by: a setting of zero counts as missing. -/
def orUsual {R : Type} [Scalar R] (usual number : R) : R :=
  if Scalar.isZero number then usual else number

theorem Setting.numberOr_of_number {R : Type} [Scalar R] {usual number : R} {setting : Option Json}
    (h : Setting.number setting = .ok (some number)) :
    Setting.numberOr usual setting = .ok (orUsual usual number) := by
  unfold Setting.numberOr
  rw [h]
  rfl

/-- A number that is not below zero leaves one above. -/
theorem positive_orUsual {usual number : Float} (husual : Scalar.positive usual = true)
    (h : Scalar.atMost (Scalar.nat 0) number = true) : Scalar.positive (orUsual usual number) = true := by
  unfold orUsual
  split
  case isTrue => exact husual
  case isFalse hzero =>
    rw [isZero_iff] at hzero
    rw [atMost_iff_compare] at h
    rw [positive_iff]
    cases hu : number.toModel.unpack with
    | notANumber =>
      rw [hu] at h
      cases h
    | zero s => exact absurd ⟨s, hu⟩ hzero
    | infinity s =>
      rw [hu] at h
      cases s with
      | negative => cases h
      | positive => exact .inl rfl
    | finite s m e hm =>
      rw [hu] at h
      cases s with
      | negative => cases h
      | positive => exact .inr ⟨m, e, hm, rfl⟩

namespace Action

/-! ## Amounts -/

/-- The usual amount of an action. -/
def usualAmount {R : Type} [Scalar R] : ActionKind → R
  | .stake | .unstake => Scalar.nat 50
  | _ => Scalar.nat 10

/-- The settings that say how much an action moves. -/
def sizingOf (b : Block) : ActionKind → Sizing
  | .dca => (SwapTerms.ofRecurring b).sizing
  | _ => ⟨b.setting? "amountType", b.setting? "amount"⟩

/-- A trade moves part of the balance of its token, by the settings of its block. -/
theorem execute_part {R : Type} [Scalar R] {e : Setup R} {s s' : State R} {b : Block}
    {kind : ActionKind} {t : Trade R} (h : execute e s b kind = .ok (s', some t)) :
    part (s.ledger.balance e.quote t.fromToken) (usualAmount kind) (sizingOf b kind) =
      .ok (some t.fromAmount) := by
  cases kind with
  | swap => exact (swap_made h).size
  | dca => exact (swap_made h).size
  | stake => exact (stake_made h).size
  | unstake => exact (stake_made h).size
  | transfer | provideLiquidity | removeLiquidity | rebalance | notification | other => cases h

/-- An amount of a balance by the mode and the number of some settings: no more than there is, and no
more than the percentage or the fixed number. A percentage is the exact one but for rounding, unless the
product is too large for a double. -/
structure Within (mode : Option Json) (balance number amount : Float) : Prop where
  most : Scalar.less balance amount = false
  percentage : Setting.isWord "percentage" "percentage" mode = true →
    Scalar.less (balance * number / Scalar.nat 100) amount = false
  share : Setting.isWord "percentage" "percentage" mode = true → isFinite balance = true →
    isFinite number = true → isFinite (balance * number) = true →
    exact amount ≤ exact balance * exact number / 100 * (1 + 2 ^ (-51 : Int)) + 2 ^ (-1074 : Int)
  all : Setting.isWord "percentage" "all" mode = true → amount = balance
  fixed : Setting.isWord "percentage" "percentage" mode = false →
    Setting.isWord "percentage" "all" mode = false → Scalar.less number amount = false

/-- The smaller of two is not above either. -/
theorem not_less_smaller (x y : Float) :
    Scalar.less x (Scalar.smaller x y) = false ∧ Scalar.less y (Scalar.smaller x y) = false := by
  unfold Scalar.smaller
  split
  case isTrue h => exact ⟨not_less_of_less h, not_less_self y⟩
  case isFalse h => exact ⟨not_less_self x, Bool.eq_false_iff.2 h⟩

theorem hundred_facts : isFinite (Scalar.nat 100 : Float) = true ∧
    Scalar.positive (Scalar.nat 100 : Float) = true ∧ exact (Scalar.nat 100 : Float) = 100 := by
  decide +kernel

/-- A hundredth is nearest to the exact one, and finite. -/
theorem nearest_hundredth {x : Float} (hx : Upward x) (hfinite : isFinite x = true) :
    Nearest (exact x / 100) (x / Scalar.nat 100) ∧ isFinite (x / Scalar.nat 100) = true := by
  obtain ⟨hfinite', hpositive, hexact⟩ := hundred_facts
  have hquotient := nearest_div hx hfinite hfinite' hpositive
  rw [hexact] at hquotient
  have hle : exact x / 100 ≤ exact x := div_le_self (hx.exact_nonneg hfinite) (by norm_num)
  have hextent : ((exact x / 100 : Rat) : WithTop Rat) ≤ extent x := by
    rw [extent_of_isFinite hfinite]
    exact WithTop.coe_le_coe.2 hle
  have hmost := hquotient.le hx hextent
  rw [extent_of_isFinite hfinite] at hmost
  exact ⟨hquotient, (finite_of_extent_le hmost).1⟩

/-- A percentage is rounded twice. -/
theorem percentage_share {balance number : Float} (hbalance : Upward balance)
    (hfinite : isFinite balance = true) (hnumber : Upward number) (hfinite' : isFinite number = true)
    (hproduct : isFinite (balance * number) = true) :
    isFinite (balance * number / Scalar.nat 100) = true ∧
      exact (balance * number / Scalar.nat 100) ≤
        exact balance * exact number / 100 * (1 + 2 ^ (-51 : Int)) + 2 ^ (-1074 : Int) := by
  have hnearest := nearest_mul hbalance hfinite hnumber hfinite'
  obtain ⟨hquotient, hquotient'⟩ := nearest_hundredth hnearest.upward hproduct
  refine ⟨hquotient', ?_⟩
  have hnonneg : 0 ≤ exact balance * exact number :=
    mul_nonneg (hbalance.exact_nonneg hfinite) (hnumber.exact_nonneg hfinite')
  have hleast : (0 : Rat) < 2 ^ (-1075 : Int) := zpow_pos two_pos _
  have htwice : (2 : Rat) ^ (-1074 : Int) = 2 * 2 ^ (-1075 : Int) := by
    rw [← zpow_one_add₀ two_ne_zero]
    rfl
  have hfirst : exact (balance * number) ≤ exact balance * exact number +
      exact balance * exact number / 2 ^ 53 + 2 ^ (-1075 : Int) := by
    rcases hnearest.error hproduct with h | h
    · linarith
    · have : 0 ≤ exact balance * exact number / 2 ^ 53 := by positivity
      linarith
  have hsecond : exact (balance * number / Scalar.nat 100) ≤ exact (balance * number) / 100 +
      exact (balance * number) / 100 / 2 ^ 53 + 2 ^ (-1075 : Int) := by
    have hproduct' := hnearest.upward.exact_nonneg hproduct
    rcases hquotient.error hquotient' with h | h
    · linarith
    · have : 0 ≤ exact (balance * number) / 100 / 2 ^ 53 := by positivity
      linarith
  rw [htwice]
  generalize (2 : Rat) ^ (-1075 : Int) = least at *
  norm_num at hfirst hsecond ⊢
  linarith

/-- Part of a balance is within the settings that it was taken by. -/
theorem part_within {balance usual number amount : Float} {sizing : Sizing}
    (h : part balance usual sizing = .ok (some amount))
    (hnumber : Setting.numberOr usual sizing.amount = .ok number)
    (hpositive : Scalar.positive number = true) : Within sizing.mode balance number amount := by
  obtain ⟨hbalance, hamount, -⟩ := part_cases h
  unfold Sizing.amountOf at hamount
  rw [hnumber] at hamount
  replace hamount := Except.ok.inj hamount
  have hupward := upward_of_positive hpositive
  by_cases hpercentage : Setting.isWord "percentage" "percentage" sizing.mode = true
  · rw [if_pos hpercentage] at hamount
    have hall := Setting.isWord_unique hpercentage (show "percentage" ≠ "all" by decide)
    obtain ⟨hshare, hmost⟩ := not_less_smaller (balance * number / Scalar.nat 100) balance
    rw [hamount] at hshare hmost
    refine
      { most := hmost
        percentage := fun _ => hshare
        share := ?_
        all := fun hword => by rw [hall] at hword; cases hword
        fixed := fun hword => by rw [hpercentage] at hword; cases hword }
    intro _ hfinite hfinite' hproduct
    have hbalance' : Upward balance := by
      refine upward_of_positive ((not_atMost_zero hbalance).resolve_right fun hnan => ?_)
      rw [(isFinite_eq_false_iff balance).2 (.inl hnan)] at hfinite
      cases hfinite
    obtain ⟨hquotient, hle⟩ := percentage_share hbalance' hfinite hupward hfinite' hproduct
    rw [← hamount]
    unfold Scalar.smaller
    split
    case isTrue hless => exact ((less_iff_exact hfinite hquotient).1 hless).le.trans hle
    case isFalse => exact hle
  · have hpercentage' := Bool.eq_false_iff.2 hpercentage
    rw [if_neg hpercentage] at hamount
    by_cases hall : Setting.isWord "percentage" "all" sizing.mode = true
    · rw [if_pos hall] at hamount
      exact
        { most := hamount ▸ not_less_self balance
          percentage := fun hword => absurd hword hpercentage
          share := fun hword => absurd hword hpercentage
          all := fun _ => hamount.symm
          fixed := fun _ hword => absurd hall (Bool.eq_false_iff.1 hword) }
    · rw [if_neg hall] at hamount
      obtain ⟨hnumber', hmost⟩ := not_less_smaller number balance
      rw [hamount] at hnumber' hmost
      exact
        { most := hmost
          percentage := fun hword => absurd hword hpercentage
          share := fun hword => absurd hword hpercentage
          all := fun hword => absurd hword hall
          fixed := fun _ _ => hnumber' }

/-! ## Slippages -/

/-- The slippage that a swap records: part of a maximum, divided by 100 and taken a hundred times. -/
def recordedSlippage (k : Nat) (most : Float) : Float :=
  Scalar.unit k * most / Scalar.nat 100 * Scalar.nat 100

section Recorded

variable {k : Nat} {most : Float}

/-- Part of a maximum is no more than that. What is missing of the exact one is a part in `2 ^ 53`. -/
theorem nearest_unit_mul (hk : k < 2 ^ 53) (hmost : Upward most) (hfinite : isFinite most = true) :
    ∃ q : Rat, Nearest q (Scalar.unit k * most) ∧ q + exact most / 2 ^ 53 ≤ exact most ∧
      isFinite (Scalar.unit k * most) = true ∧ exact (Scalar.unit k * most) ≤ exact most := by
  obtain ⟨hunit, hextent⟩ := extent_unit hk
  obtain ⟨hunit', -⟩ := finite_of_extent_le hextent.le
  have hnearest := nearest_mul hunit hunit' hmost hfinite
  rw [extent_of_isFinite hunit', WithTop.coe_inj] at hextent
  rw [hextent] at hnearest
  have hnonneg := hmost.exact_nonneg hfinite
  have hmissing : (k / 2 ^ 53 : Rat) * exact most + exact most / 2 ^ 53 ≤ exact most := by
    have hcast : (k : Rat) + 1 ≤ 2 ^ 53 := by exact_mod_cast hk
    have hpart : ((k : Rat) + 1) / 2 ^ 53 ≤ 1 := (div_le_one (by norm_num)).2 hcast
    calc (k / 2 ^ 53 : Rat) * exact most + exact most / 2 ^ 53
        = ((k : Rat) + 1) / 2 ^ 53 * exact most := by ring
      _ ≤ 1 * exact most := mul_le_mul_of_nonneg_right hpart hnonneg
      _ = exact most := one_mul _
  have hpart : 0 ≤ exact most / 2 ^ 53 := by positivity
  have hle : extent (Scalar.unit k * most) ≤ extent most := by
    refine hnearest.le hmost ?_
    rw [extent_of_isFinite hfinite]
    exact WithTop.coe_le_coe.2 (by linarith)
  rw [extent_of_isFinite hfinite] at hle
  exact ⟨_, hnearest, hmissing, finite_of_extent_le hle⟩

/-- A hundredth taken a hundred times, before that is rounded. -/
theorem hundredth_back {x : Float} (hx : Upward x) (hfinite : isFinite x = true) :
    Nearest (exact (x / Scalar.nat 100) * 100) (x / Scalar.nat 100 * Scalar.nat 100) ∧
      (exact (x / Scalar.nat 100) * 100 ≤ exact x + exact x / 2 ^ 53 ∨
        exact (x / Scalar.nat 100) * 100 ≤ exact x + 100 * 2 ^ (-1075 : Int)) := by
  obtain ⟨hfinite', hpositive, hexact⟩ := hundred_facts
  obtain ⟨hquotient, hquotient'⟩ := nearest_hundredth hx hfinite
  have hback := nearest_mul hquotient.upward hquotient' (upward_of_positive hpositive) hfinite'
  rw [hexact] at hback
  refine ⟨hback, (hquotient.error hquotient').imp (fun h => ?_) (fun h => ?_)⟩
  · linarith
  · linarith

/-- Powers of two as multiples of half of the least double. -/
theorem multiple_of_least (n : Nat) :
    (2 : Rat) ^ (-1075 + n : Int) = 2 ^ n * 2 ^ (-1075 : Int) := by
  rw [zpow_add₀ two_ne_zero, zpow_natCast, mul_comm]

/-- A slippage is not recorded above its maximum, unless that is hardly more than nothing. -/
theorem recorded_le (hk : k < 2 ^ 53) (hmost : Upward most) (hfinite : isFinite most = true)
    (hlarge : 2 ^ (-1014 : Int) ≤ exact most) : extent (recordedSlippage k most) ≤ extent most := by
  obtain ⟨q, hnearest, hmissing, hpart, hle⟩ := nearest_unit_mul hk hmost hfinite
  obtain ⟨hback, herror⟩ := hundredth_back hnearest.upward hpart
  have hleast : (0 : Rat) < 2 ^ (-1075 : Int) := zpow_pos two_pos _
  have hthousand : (2 : Rat) ^ (-1014 : Int) = 2 ^ 61 * 2 ^ (-1075 : Int) := multiple_of_least 61
  have hnormal : (2 : Rat) ^ (-1022 : Int) = 2 ^ 53 * 2 ^ (-1075 : Int) := multiple_of_least 53
  have hlt : exact (Scalar.unit k * most) < exact most := by
    refine lt_of_le_of_ne hle fun heq => ?_
    have hne := hnearest.ne (by rw [hnormal]; linarith) hmissing
    rw [extent_of_isFinite hpart, heq] at hne
    exact hne rfl
  have hgap := hnearest.add_le hpart hmost hfinite hlt
  refine hback.le hmost ?_
  rw [extent_of_isFinite hfinite]
  refine WithTop.coe_le_coe.2 ?_
  rcases herror with h | h
  · exact h.trans hgap
  · -- Either the part is so large that its own gap is wide enough, or it is far below the maximum.
    rcases le_total (2 ^ 60 * 2 ^ (-1075 : Int)) (exact (Scalar.unit k * most)) with hwide | hfar
    · linarith
    · linarith

/-- Of a maximum that is hardly more than nothing, hardly more than that is recorded. -/
theorem recorded_close (hk : k < 2 ^ 53) (hmost : Upward most) (hfinite : isFinite most = true) :
    isFinite (recordedSlippage k most) = true ∧
      exact (recordedSlippage k most) ≤ exact most + 2 ^ (-1060 : Int) := by
  have hleast : (0 : Rat) < 2 ^ (-1075 : Int) := zpow_pos two_pos _
  have hthousand : (2 : Rat) ^ (-1014 : Int) = 2 ^ 61 * 2 ^ (-1075 : Int) := multiple_of_least 61
  have hclose : (2 : Rat) ^ (-1060 : Int) = 2 ^ 15 * 2 ^ (-1075 : Int) := multiple_of_least 15
  rcases le_or_gt (2 ^ (-1014 : Int)) (exact most) with hlarge | hsmall
  · have hle := recorded_le hk hmost hfinite hlarge
    rw [extent_of_isFinite hfinite] at hle
    obtain ⟨hrecorded, hle⟩ := finite_of_extent_le hle
    exact ⟨hrecorded, by linarith⟩
  · obtain ⟨q, hnearest, hmissing, hpart, hle⟩ := nearest_unit_mul hk hmost hfinite
    obtain ⟨hback, herror⟩ := hundredth_back hnearest.upward hpart
    have hnonneg := hnearest.upward.exact_nonneg hpart
    have hsum : exact (Scalar.unit k * most / Scalar.nat 100) * 100 ≤
        exact most + 2 ^ 9 * 2 ^ (-1075 : Int) := by
      rcases herror with h | h <;> linarith
    have hone : (2 : Rat) ^ 62 * 2 ^ (-1075 : Int) ≤ 2 ^ (0 : Int) := by
      rw [← multiple_of_least 62]
      exact zpow_le_zpow_right₀ one_le_two (by decide)
    have hrecorded : isFinite (recordedSlippage k most) = true := by
      have hunits := hback.le_units (show 1 < 2 ^ 53 by decide) (show -1074 ≤ (0 : Int) by decide)
        (by decide) (by rw [Nat.cast_one, one_mul]; linarith)
      exact (finite_of_extent_le hunits).1
    refine ⟨hrecorded, ?_⟩
    show exact (Scalar.unit k * most / Scalar.nat 100 * Scalar.nat 100) ≤ _
    rcases hback.error hrecorded with h | h <;> linarith

/-- A slippage by the maximum of its swap: not below zero, and not above the maximum; where there is
hardly anything of that, above it by hardly anything. -/
structure SlippageWithin (most slippage : Float) : Prop where
  low : Scalar.less slippage (Scalar.nat 0) = false
  high : ((2 ^ (-1014 : Int) : Rat) : WithTop Rat) ≤ extent most → Scalar.less most slippage = false
  close : isFinite most = true →
    isFinite slippage = true ∧ exact slippage ≤ exact most + 2 ^ (-1060 : Int)

/-- Part of a maximum without bound is without bound, or it is no number. -/
theorem recorded_infinite (hk : k < 2 ^ 53) (hmost : most.toModel.unpack = .infinity .positive) :
    Upward (recordedSlippage k most) ∨ (recordedSlippage k most).toModel.unpack = .notANumber := by
  obtain ⟨hhundred, hpositive, -⟩ := hundred_facts
  obtain ⟨hunit, hextent⟩ := extent_unit hk
  obtain ⟨hfinite, -⟩ := finite_of_extent_le hextent.le
  rcases hunit.finite_cases hfinite with hzero | ⟨m, e, hm, hu⟩
  · right
    have hpart : (Scalar.unit k * most).toModel.unpack = .notANumber := by
      rw [mul_def, hzero, hmost]
      rfl
    unfold recordedSlippage
    rw [mul_def, div_def, hpart]
    rfl
  · left
    have hpart : Upward (Scalar.unit k * most) := Signed.mul (.inr ⟨m, e, hm, hu⟩) (.inl hmost)
    exact (hpart.div hhundred hpositive).mul hhundred hpositive

theorem recorded_within (hk : k < 2 ^ 53) (hpositive : Scalar.positive most = true) :
    SlippageWithin most (recordedSlippage k most) := by
  have hmost := upward_of_positive hpositive
  rcases hmost.cases with hfinite | hinfinite
  · obtain ⟨q, hnearest, -, hpart, -⟩ := nearest_unit_mul hk hmost hfinite
    have hupward : Upward (recordedSlippage k most) := (hundredth_back hnearest.upward hpart).1.upward
    refine ⟨hupward.not_less_zero, fun hlarge => ?_, fun _ => recorded_close hk hmost hfinite⟩
    rw [extent_of_isFinite hfinite, WithTop.coe_le_coe] at hlarge
    rw [Bool.eq_false_iff]
    intro hless
    exact absurd ((hmost.less_iff hupward).1 hless) (not_lt.2 (recorded_le hk hmost hfinite hlarge))
  · refine ⟨?_, fun _ => ?_, fun hfinite => ?_⟩
    · rcases recorded_infinite hk hinfinite with hupward | hnan
      · exact hupward.not_less_zero
      · rw [Bool.eq_false_iff]
        intro hless
        rw [less_iff, hnan] at hless
        cases hless
    · rw [Bool.eq_false_iff]
      intro hless
      rw [less_iff, hinfinite] at hless
      cases hu : (recordedSlippage k most).toModel.unpack with
      | infinity s =>
        rw [hu] at hless
        cases s <;> cases hless
      | notANumber | zero | finite =>
        rw [hu] at hless
        cases hless
    · rw [(isFinite_eq_false_iff most).2 (.inr ⟨_, hinfinite⟩)] at hfinite
      cases hfinite

end Recorded

/-- A trade of an action whose amount is a number that is not below zero. It moves no more than the
balance that it is taken from, and no more than the percentage of that or the fixed amount that the
settings give. If its maximum is such a number too, a swap records a slippage from zero up to that. Here
an amount of zero stands for the usual one, and so does a maximum of zero. -/
theorem trades_within_settings (e : Setup Float) (s s' : State Float) (b : Block) (kind : ActionKind)
    (t : Trade Float) (number : Float) (h : execute e s b kind = .ok (s', some t))
    (hamount : Setting.number (sizingOf b kind).amount = .ok (some number))
    (hnot : Scalar.atMost (Scalar.nat 0) number = true) :
    Within (sizingOf b kind).mode (s.ledger.balance e.quote t.fromToken)
        (orUsual (usualAmount kind) number) t.fromAmount ∧
      ∀ most : Float, kind.Swaps → Setting.number (b.setting? "maxSlippage") = .ok (some most) →
        Scalar.atMost (Scalar.nat 0) most = true →
        SlippageWithin (orUsual (Scalar.nat 1) most) t.slippage := by
  constructor
  · have husual : Scalar.positive (usualAmount kind : Float) = true := by
      cases kind <;> decide +kernel
    exact part_within (execute_part h) (Setting.numberOr_of_number hamount)
      (positive_orUsual husual hnot)
  · intro most hswaps hmost hnot'
    rcases execute_made h with ⟨-, terms, hterms, hswapped⟩ | ⟨hstake, -⟩
    · obtain ⟨most', hmost', hslippage, -⟩ := hswapped.slippage
      rw [hterms, Setting.numberOr_of_number hmost] at hmost'
      obtain rfl := Except.ok.inj hmost'
      rw [hslippage]
      exact recorded_within (Random.Generator.nextUnit_lt _)
        (positive_orUsual (by decide +kernel) hnot')
    · rcases hswaps with rfl | rfl <;> simp at hstake

/-- Swaps a percentage of the quote token. -/
def percentSwap (percentage most : Float) : Block :=
  { Engine.halfSwap with config := [("amount", .num percentage), ("maxSlippage", .num most)] }

/-- A quarter of a thousand, at half a percent at most. -/
theorem quarter_swapped :
    ∃ (s' : State Float) (t : Trade Float),
      execute ⟨"USDT", [], hourTick 0 2⟩ ⟨.start 1000, 0, .ofSeed ⟨7, []⟩, 0⟩ (percentSwap 25 0.5)
        .swap = .ok (s', some t) ∧
      t.fromToken = "USDT" ∧ Scalar.less 250 t.fromAmount = false ∧
      Scalar.less 0.5 t.slippage = false := by
  obtain ⟨⟨s', made⟩, hrun, hmade⟩ : ∃ done,
      execute ⟨"USDT", [], hourTick 0 2⟩ ⟨.start 1000, 0, .ofSeed ⟨7, []⟩, 0⟩ (percentSwap 25 0.5)
        .swap = .ok done ∧ done.2.map (·.fromToken) = some "USDT" :=
    Except.exists_of_map (by decide +kernel)
  obtain ⟨t, rfl, htoken⟩ := Option.map_eq_some_iff.1 hmade
  obtain ⟨hwithin, hslippage⟩ := trades_within_settings _ _ s' _ .swap t 25 hrun rfl (by decide +kernel)
  have hlarge : ((2 ^ (-1014 : Int) : Rat) : WithTop Rat) ≤ extent (0.5 : Float) := by
    have hhalf : isFinite (0.5 : Float) = true ∧ exact (0.5 : Float) = 2 ^ (-1 : Int) := by
      decide +kernel
    rw [extent_of_isFinite hhalf.1, hhalf.2]
    exact WithTop.coe_le_coe.2 (zpow_le_zpow_right₀ one_le_two (by decide))
  refine ⟨s', t, hrun, htoken, ?_, (hslippage 0.5 (.inl rfl) rfl (by decide +kernel)).high hlarge⟩
  have hshare := hwithin.percentage (by decide +kernel)
  rw [htoken] at hshare
  exact hshare

/-- No percent of the balance, without slippage: the trade is made all the same, and with slippage. -/
theorem zero_amount_traded :
    ∃ (s' : State Float) (t : Trade Float),
      execute ⟨"USDT", [], hourTick 0 2⟩ ⟨.start 1000, 0, .ofSeed ⟨7, []⟩, 0⟩ (percentSwap 0 0)
        .swap = .ok (s', some t) ∧
      Scalar.positive t.fromAmount = true ∧ Scalar.less 0 t.slippage = true := by
  obtain ⟨⟨s', made⟩, hrun, hmade⟩ : ∃ done,
      execute ⟨"USDT", [], hourTick 0 2⟩ ⟨.start 1000, 0, .ofSeed ⟨7, []⟩, 0⟩ (percentSwap 0 0)
        .swap = .ok done ∧
      done.2.map (fun t => (Scalar.positive t.fromAmount, Scalar.less 0 t.slippage)) =
        some (true, true) :=
    Except.exists_of_map (by decide +kernel)
  obtain ⟨t, rfl, hfigures⟩ := Option.map_eq_some_iff.1 hmade
  obtain ⟨hamount, hslippage⟩ := Prod.mk.inj hfigures
  exact ⟨s', t, hrun, hamount, hslippage⟩

end Action

end Tradeflow
