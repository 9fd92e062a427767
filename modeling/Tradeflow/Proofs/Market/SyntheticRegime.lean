/-
  The bounds of a synthetic market, in exact arithmetic. A price is moved by at most the volatility to
  either side of the drift, since a shock lies between -1 and 1 (`shock_mem`), and never goes below the
  floor. Where it is above the floor it is the price that the move gave, and the bounds are those of its
  ratio to the price before (`move_ratio`). All four tokens have prices of their own, above zero because
  the floor is (`priceOf_syntheticTick`).
  `synthetic_in_regime`: so is every tick of every series.
-/
import Mathlib.Data.Rat.Floor
import Mathlib.Tactic.Linarith
import Mathlib.Tactic.Positivity
import Tradeflow.Proofs.Market.Prices
import Tradeflow.Proofs.Market.Walk
import Tradeflow.Proofs.Random.Draws

namespace Tradeflow.PriceSeries

open Tradeflow.Random.Generator

/-! ## Moves of a price -/

theorem unitAt_lt (g : Random.Generator) (i : Nat) : g.unitAt i < 2 ^ 53 := nextUnit_lt _

/-- The size of a draw. -/
theorem unit_mem {unit : Nat} (h : unit < 2 ^ 53) :
    (0 : Rat) ≤ Scalar.unit unit ∧ (Scalar.unit unit : Rat) < 1 := by
  rw [Scalar.unit_rat]
  refine ⟨by positivity, ?_⟩
  rw [div_lt_one (by positivity)]
  exact_mod_cast h

theorem shock_mem {unit : Nat} (h : unit < 2 ^ 53) :
    (-1 : Rat) ≤ shock unit ∧ (shock unit : Rat) ≤ 1 := by
  obtain ⟨hnonneg, hlt⟩ := unit_mem h
  simp only [shock, Scalar.nat_rat]
  constructor <;> push_cast <;> linarith

section Moves

variable {r : Regime Rat} {price : Rat} {unit : Nat}

theorem floor_le_move : r.floor ≤ r.move price unit := by
  rw [Regime.move, Scalar.larger_rat]
  exact le_max_right _ _

/-- Above the floor, a price has the ratio to the one before that its shock gave it. -/
theorem move_ratio (hvolatility : 0 ≤ r.volatility) (hunit : unit < 2 ^ 53)
    (habove : r.floor < r.move price unit) (hprice : 0 < price) :
    1 + r.drift - r.volatility ≤ r.move price unit / price ∧
      r.move price unit / price ≤ 1 + r.drift + r.volatility := by
  have hmove : r.move price unit = (1 + r.drift + shock unit * r.volatility) * price := by
    rw [Regime.move, Scalar.larger_rat] at habove ⊢
    rw [max_eq_left (le_of_not_ge fun h => habove.ne' (max_eq_right h)), mul_comm]
    simp
  obtain ⟨hlow, hhigh⟩ := shock_mem hunit
  rw [hmove, mul_div_cancel_right₀ _ hprice.ne']
  constructor
  · have := mul_le_mul_of_nonneg_right hlow hvolatility
    linarith
  · have := mul_le_mul_of_nonneg_right hhigh hvolatility
    linarith

end Moves

/-- No volatility is negative if none in the table is. -/
theorem volatility_nonneg {config : EngineConfig}
    (hlevels : ∀ level ∈ config.volatilityLevels, 0 ≤ Double.exact level.2) (m : MarketConditions) :
    0 ≤ (Regime.of config m : Regime Rat).volatility := by
  unfold Regime.of
  dsimp only
  split
  case h_1 x hx =>
    show 0 ≤ Double.exact x
    exact hlevels (m.volatility.word, x) (Assoc.mem_of_get? hx)
  case h_2 =>
    rw [Scalar.decimal_rat]
    positivity

/-! ## Prices at a tick -/

theorem usable?_some {price : Rat} (h : 0 < price) : usable? (some price) = some price := by
  simp [usable?, Scalar.isFinite, Scalar.positive, Scalar.less, h]

/-- Each of the four tokens has the price that the tick gives it, and so has its staked holding. -/
theorem priceOf_syntheticTick {time : Instant} {price : Rat} {d : Draw} (hprice : 0 < price)
    (defaults : Assoc Float) :
    ∀ quote ∈ (syntheticTick time price d).prices,
      (syntheticTick time price d).priceOf defaults quote.1 = quote.2 ∧
        (syntheticTick time price d).priceOf defaults (stakedName quote.1) = quote.2 := by
  intro quote hquote
  have hown : usable? (Assoc.get? (syntheticTick time price d).prices quote.1) = some quote.2 := by
    simp only [syntheticTick, List.mem_cons, List.not_mem_nil, or_false] at hquote ⊢
    rcases hquote with rfl | rfl | rfl | rfl
    · exact usable?_some hprice
    · exact usable?_some one_pos
    · exact usable?_some one_pos
    · exact usable?_some (by rw [Scalar.nat_rat]; positivity)
  have hsame := PriceTick.priceOf_own hown defaults
  refine ⟨hsame, ?_⟩
  rw [priceOf_stakedName (.inr (by simp [hown])) ?_ defaults, hsame]
  rw [syntheticTick, get?_synthetic_stakedName]
  rfl

/-! ## The length of a series -/

theorem hours_eq_floor (start stop : Instant) :
    (hours start stop : Int) =
      max 0 ⌊((stop.micros - start.micros : Int) : Rat) / 3600000000⌋ := by
  have hfloor : ⌊((stop.micros - start.micros : Int) : Rat) / 3600000000⌋ =
      (stop.micros - start.micros) / 3600000000 :=
    Rat.floor_intCast_div_natCast (stop.micros - start.micros) 3600000000
  rw [hfloor, hours, Int.fdiv_eq_ediv_of_nonneg _ (by decide), Int.toNat_eq_max, max_comm]
  rfl

/-- A tick is before the end. -/
theorem plusHours_lt {start stop : Instant} {i : Nat} (h : i < hours start stop) :
    (start.plusHours i).micros < stop.micros := by
  unfold hours at h
  rw [Int.fdiv_eq_ediv_of_nonneg _ (by decide)] at h
  simp only [Instant.plusHours, Instant.plus, microsPerHour, microsPerSecond] at h ⊢
  omega

/-! ## All ticks -/

/-- In exact arithmetic, where the floor is above zero and no volatility is negative: a synthetic series
has a tick for every whole hour of its period, an hour after the one before and before the end. The
price of TON is `ton 0` at the start and `ton (i + 1)` at tick `i`. It is no lower than the floor, and
where it is above the floor its ratio to the price before is within the volatility of the drift. Gas
costs at least 5 and less than 10 hundredths. No token that a tick prices, staked or not, is ever priced
by a table of defaults. -/
theorem synthetic_in_regime (config : EngineConfig) (run : SimulationConfig) (g : Random.Generator)
    (hfloor : 0 < Double.exact config.priceFloor)
    (hlevels : ∀ level ∈ config.volatilityLevels, 0 ≤ Double.exact level.2) :
    let ticks := (synthetic (R := Rat) config run g).1
    let r : Regime Rat := .of config (run.marketConditions.getD .standard)
    (ticks.length : Int) =
        max 0 ⌊((run.endDate.micros - run.startDate.micros : Int) : Rat) / 3600000000⌋ ∧
      ∃ ton : Nat → Rat, ton 0 = Double.exact config.basePrice ∧
        ∀ (i : Nat) (tick : PriceTick Rat), ticks[i]? = some tick →
          tick.timestamp.micros = run.startDate.micros + i * 3600000000 ∧
          tick.timestamp.micros < run.endDate.micros ∧
          tick.prices = [("TON", ton (i + 1)), ("USDT", 1), ("USDC", 1), ("ETH", 500 * ton (i + 1))] ∧
          Double.exact config.priceFloor ≤ ton (i + 1) ∧
          (Double.exact config.priceFloor < ton (i + 1) → 0 < ton i →
            1 + r.drift - r.volatility ≤ ton (i + 1) / ton i ∧
              ton (i + 1) / ton i ≤ 1 + r.drift + r.volatility) ∧
          5 / 100 ≤ tick.gasPrice ∧ tick.gasPrice < 10 / 100 ∧
          ∀ (defaults : Assoc Float), ∀ quote ∈ tick.prices,
            tick.priceOf defaults quote.1 = quote.2 ∧
              tick.priceOf defaults (stakedName quote.1) = quote.2 := by
  intro ticks r
  refine ⟨?_, tonAfter config run g, rfl, ?_⟩
  · rw [← hours_eq_floor, length_synthetic]
  · intro i tick htick
    obtain ⟨hi, rfl⟩ := synthetic_tick htick
    have hprice : Double.exact config.priceFloor ≤ tonAfter config run g (i + 1) := floor_le_move
    obtain ⟨hnonneg, hlt⟩ := unit_mem (unitAt_lt g
      (hours run.startDate run.endDate + hours run.startDate run.endDate + i))
    refine ⟨?_, plusHours_lt hi, ?_, hprice, ?_, ?_, ?_, ?_⟩
    · simp [syntheticTick, Instant.plusHours, Instant.plus, microsPerHour, microsPerSecond]
    · simp [syntheticTick, mul_comm]
    · exact move_ratio (volatility_nonneg hlevels _) (unitAt_lt g i)
    · simp only [syntheticTick, Draw.nth, Scalar.decimal_rat]
      linarith
    · simp only [syntheticTick, Draw.nth, Scalar.decimal_rat]
      linarith
    · exact priceOf_syntheticTick (hfloor.trans_le hprice)

/-- The base price is half of the floor. -/
def lowBase : EngineConfig := { EngineConfig.standard with basePrice := 1, priceFloor := 2 }

/-- Two hours and a half of a bear market. -/
def bearHours : SimulationConfig :=
  { startDate := ⟨63844848000000000⟩, endDate := ⟨63844857000000000⟩, initialCapital := 1000,
    priceDataSource := .synthetic, slippageModel := .realistic, gasModel := .historical,
    marketConditions := some ⟨.high, .bear, .medium⟩, monteCarloRuns := none, seed := some 7 }

/-- There are two ticks. No move doubles a price, so TON costs the floor at the first one, and what is
staked of it costs that too, whatever a table says. -/
theorem lowBase_starts_at_floor :
    ∃ first second : PriceTick Rat,
      (synthetic lowBase bearHours (.ofSeed ⟨7, []⟩)).1 = [first, second] ∧
      first.prices = [("TON", 2), ("USDT", 1), ("USDC", 1), ("ETH", 1000)] ∧
      first.priceOf [("TON", 5)] "staked_TON" = 2 := by
  have hbase : Double.exact lowBase.basePrice = 1 ∧ Double.exact lowBase.priceFloor = 2 := by
    decide +kernel
  obtain ⟨hlength, ton, hton, hticks⟩ := synthetic_in_regime lowBase bearHours (.ofSeed ⟨7, []⟩)
    (by decide +kernel) (by decide +kernel)
  have htwo : (synthetic (R := Rat) lowBase bearHours (.ofSeed ⟨7, []⟩)).1.length = 2 := by
    have hfloor : max 0 ⌊((bearHours.endDate.micros - bearHours.startDate.micros : Int) : Rat) /
        3600000000⌋ = 2 := by
      decide +kernel
    exact Int.ofNat.inj (hlength.trans hfloor)
  obtain ⟨first, second, hseries⟩ := List.length_eq_two.1 htwo
  obtain ⟨-, -, hprices, hlow, hratio, -, -, hown⟩ := hticks 0 first (by rw [hseries]; rfl)
  rw [hbase.2] at hlow hratio
  rw [hton, hbase.1, div_one] at hratio
  have hfirst : ton 1 = 2 := by
    refine le_antisymm (not_lt.1 fun habove => ?_) hlow
    have hmost := (hratio habove one_pos).2
    exact absurd hmost (not_le.2 (lt_trans (by decide +kernel) habove))
  rw [hfirst] at hprices
  refine ⟨first, second, hseries, by rw [hprices]; norm_num, ?_⟩
  exact (hown [("TON", 5)] ("TON", 2) (by rw [hprices]; simp)).2

end Tradeflow.PriceSeries
