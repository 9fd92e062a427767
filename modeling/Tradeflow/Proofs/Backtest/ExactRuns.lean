/-
  Runs in exact arithmetic always give a result. Whole numbers of any size are read as numbers, an
  amount that is moved is never worth nothing, and a price is positive if the default prices are
  (`priceOf_pos`): so no trigger (`exists_anyFires`), no action (`exists_execute`) and no tick
  (`exists_tick`) fails. `exists_run`: what is left to refuse is a seed below zero.
-/
import Tradeflow.Proofs.Backtest.Faults
import Tradeflow.Proofs.Backtest.Value

namespace Tradeflow

/-! ## Prices -/

/-- The default prices are above zero. -/
def PositivePrices (defaults : Assoc Float) : Prop :=
  ∀ token x, Assoc.get? defaults token = some x → (0 : Rat) < Scalar.ofFloat x

theorem usable_pos {p : Option Rat} {x : Rat} (h : usable? p = some x) : 0 < x := by
  obtain ⟨-, hx⟩ := Option.filter_eq_some_iff.1 h
  exact of_decide_eq_true (Bool.and_eq_true_iff.1 hx).2

theorem priceOf_pos {defaults : Assoc Float} (hdefaults : PositivePrices defaults)
    (tick : PriceTick Rat) (token : String) : 0 < tick.priceOf defaults token := by
  unfold PriceTick.priceOf
  split
  case h_1 hown => exact usable_pos hown
  · split
    case h_1 hunderlying => exact usable_pos hunderlying
    · split
      case h_1 p hdefault => exact hdefaults _ _ hdefault
      · exact zero_lt_one

/-! ## Settings -/

namespace Setting

theorem exists_number (setting : Option Json) :
    ∃ x, (number setting : Except Fault (Option Rat)) = .ok x := by
  unfold number
  split
  · exact ⟨_, rfl⟩
  · exact ⟨_, rfl⟩
  · exact ⟨_, rfl⟩

theorem exists_numberOr (usual : Rat) (setting : Option Json) :
    ∃ x, numberOr usual setting = .ok x := by
  obtain ⟨x, hx⟩ := exists_number setting
  unfold numberOr
  rw [hx]
  cases x with
  | none => exact ⟨_, rfl⟩
  | some x => exact ⟨_, rfl⟩

end Setting

/-! ## Triggers -/

namespace Trigger

theorem exists_holds (v : View Rat) (b : Block) (kind : TriggerKind) :
    ∃ fired, holds v b kind = .ok fired := by
  unfold holds
  cases kind with
  | priceThreshold =>
    obtain ⟨x, hx⟩ := Setting.exists_number (b.setting? "threshold")
    dsimp only
    rw [hx]
    cases x <;> exact ⟨_, rfl⟩
  | priceChange =>
    obtain ⟨x, hx⟩ := Setting.exists_number (b.setting? "percentage")
    dsimp only
    rw [hx]
    cases x <;> exact ⟨_, rfl⟩
  | portfolio =>
    obtain ⟨x, hx⟩ := Setting.exists_number (b.setting? "value")
    dsimp only
    rw [hx]
    split
    · cases x <;> exact ⟨_, rfl⟩
    · exact ⟨_, rfl⟩
  | _ => exact ⟨_, rfl⟩

theorem exists_fires (v : View Rat) (clocks : Clocks) (b : Block) (kind : TriggerKind) :
    ∃ answer, fires v clocks b kind = .ok answer := by
  obtain ⟨interval, hinterval⟩ := Setting.exists_numberOr usualInterval (b.setting? "interval")
  obtain ⟨fired, hholds⟩ := exists_holds v b kind
  unfold fires
  split
  · rw [hinterval]
    dsimp only
    split <;> exact ⟨_, rfl⟩
  · rw [hholds]
    exact ⟨_, rfl⟩

theorem exists_anyFires (v : View Rat) (clocks : Clocks) (triggers : List (Block × TriggerKind)) :
    ∃ answer, anyFires v clocks triggers = .ok answer := by
  induction triggers generalizing clocks with
  | nil => exact ⟨_, rfl⟩
  | cons p rest ih =>
    obtain ⟨b, kind⟩ := p
    obtain ⟨⟨fired, clocks₁⟩, hfires⟩ := exists_fires v clocks b kind
    obtain ⟨⟨more, clocks₂⟩, hmore⟩ := ih clocks₁
    rw [anyFires, hfires]
    dsimp only
    rw [hmore]
    exact ⟨_, rfl⟩

end Trigger

/-! ## Actions -/

namespace Action

variable (e : Setup Rat) (s : State Rat)

theorem exists_part (balance usual : Rat) (sizing : Sizing) :
    ∃ amount, part balance usual sizing = .ok amount := by
  obtain ⟨x, hx⟩ := Setting.exists_numberOr usual sizing.amount
  unfold part Sizing.amountOf
  rw [hx]
  split <;> exact ⟨_, rfl⟩

theorem exists_divide {x y : Rat} (hy : y ≠ 0) : ∃ q, Scalar.divide x y = .ok q :=
  ⟨x / y, if_neg fun hzero => hy (of_decide_eq_true hzero)⟩

theorem exists_gain {amount fromPrice : Rat} (received toPrice : Rat) (hamount : 0 < amount)
    (hprice : 0 < fromPrice) : ∃ pnl, gain amount fromPrice received toPrice = .ok pnl := by
  obtain ⟨q, hq⟩ := exists_divide (x := received * toPrice - amount * fromPrice)
    (mul_pos hamount hprice).ne'
  unfold gain
  rw [hq]
  exact ⟨_, rfl⟩

theorem exists_swap (hprices : PositivePrices e.defaults) (kind : ActionKind) (terms : SwapTerms) :
    ∃ done, swap e s kind terms = .ok done := by
  have hfrom := priceOf_pos hprices e.tick (Setting.textOr e.quote terms.source)
  have hto := priceOf_pos hprices e.tick (Setting.textOr "TON" terms.target)
  obtain ⟨amount, hamount⟩ := exists_part
    (s.ledger.balance e.quote (Setting.textOr e.quote terms.source)) (Scalar.nat 10) terms.sizing
  obtain ⟨most, hmost⟩ := Setting.exists_numberOr (Scalar.nat 1) terms.maxSlippage
  obtain ⟨rate, hrate⟩ := exists_divide
    (x := e.tick.priceOf e.defaults (Setting.textOr e.quote terms.source)) hto.ne'
  unfold swap
  dsimp only
  rw [hamount]
  cases amount with
  | none => exact ⟨_, rfl⟩
  | some amount =>
    dsimp only
    rw [hmost]
    dsimp only
    rw [hrate]
    obtain ⟨pnl, hpnl⟩ := exists_gain
      (amount * rate * (Scalar.nat 1 - Scalar.unit s.generator.nextUnit.1 * most / Scalar.nat 100))
      (e.tick.priceOf e.defaults (Setting.textOr "TON" terms.target)) (part_pos hamount) hfrom
    dsimp only
    rw [hpnl]
    exact ⟨_, rfl⟩

theorem exists_stake (back : Bool) (b : Block) : ∃ done, stake e s back b = .ok done := by
  obtain ⟨amount, hamount⟩ := exists_part (s.ledger.balance e.quote
    (if back then stakedName (Setting.textOr "TON" (b.setting? "token"))
      else Setting.textOr "TON" (b.setting? "token"))) (Scalar.nat 50)
    ⟨b.setting? "amountType", b.setting? "amount"⟩
  unfold stake
  dsimp only
  rw [hamount]
  cases amount <;> exact ⟨_, rfl⟩

theorem exists_execute (hprices : PositivePrices e.defaults) (b : Block) (kind : ActionKind) :
    ∃ done, execute e s b kind = .ok done := by
  unfold execute
  split
  · exact exists_swap e s hprices _ _
  · exact exists_swap e s hprices _ _
  · exact exists_stake e s false b
  · exact exists_stake e s true b
  · exact ⟨_, rfl⟩

theorem exists_executeAll (hprices : PositivePrices e.defaults)
    (actions : List (Block × ActionKind)) : ∃ done, executeAll e s actions = .ok done := by
  induction actions generalizing s with
  | nil => exact ⟨_, rfl⟩
  | cons p rest ih =>
    obtain ⟨b, kind⟩ := p
    obtain ⟨⟨s₁, trade⟩, hfirst⟩ := exists_execute e s hprices b kind
    obtain ⟨⟨s₂, trades⟩, hrest⟩ := ih s₁
    rw [executeAll, hfirst]
    dsimp only
    rw [hrest]
    exact ⟨_, rfl⟩

end Action

/-! ## Runs -/

namespace Backtest

variable {config : EngineConfig}

theorem exists_tick (hprices : PositivePrices config.defaultPrices) (plan : Plan) (s : State Rat)
    (t : PriceTick Rat) : ∃ done, tick config plan s t = .ok done := by
  obtain ⟨⟨fired, clocks⟩, hfired⟩ := Trigger.exists_anyFires
    ⟨config.defaultPrices, t, s.previous, s.action.ledger⟩ s.clocks plan.triggers
  obtain ⟨⟨action, trades⟩, hdone⟩ := Action.exists_executeAll
    ⟨config.quoteToken, config.defaultPrices, t⟩ s.action hprices plan.actions
  unfold tick
  dsimp only
  rw [hfired]
  dsimp only
  cases fired with
  | true =>
    rw [if_pos rfl, hdone]
    exact ⟨_, rfl⟩
  | false => exact ⟨_, rfl⟩

theorem exists_replay (hprices : PositivePrices config.defaultPrices) (plan : Plan) (watch : Watch)
    (index : Nat) (s : State Rat) (ticks : List (PriceTick Rat)) :
    ∃ p, replay config plan watch index s ticks = .ok p := by
  induction ticks generalizing index s with
  | nil => exact ⟨_, rfl⟩
  | cons t ticks ih =>
    obtain ⟨⟨s₁, step⟩, htick⟩ := exists_tick hprices plan s t
    obtain ⟨p, hrest⟩ := ih (index + 1) s₁
    rw [replay, htick]
    dsimp only
    rw [hrest]
    split
    · exact ⟨_, rfl⟩
    · split <;> exact ⟨_, rfl⟩

/-- With positive default prices and a seed that is not negative, a run gives a result. -/
theorem exists_run (sim : Simulator) (watch : Watch) (entropy : Nat) (strategy : Strategy)
    (cfg : SimulationConfig) (hprices : PositivePrices sim.config.defaultPrices)
    (hseed : ∀ n, cfg.seed = some n → 0 ≤ n) :
    ∃ outcome, run Rat sim watch entropy strategy cfg = .ok outcome := by
  obtain ⟨g, hg⟩ := exists_generatorOf hseed entropy
  unfold run
  rw [hg]
  dsimp only
  obtain ⟨p, hp⟩ := exists_replay hprices (strategy.plan sim.catalog sim.config.quoteToken) watch 0
    (State.start (Scalar.ofFloat cfg.initialCapital)
      (PriceSeries.build sim.config sim.feed
        (strategy.plan sim.catalog sim.config.quoteToken).tokens cfg g
        : List (PriceTick Rat) × Random.Generator).2)
    (PriceSeries.build sim.config sim.feed
      (strategy.plan sim.catalog sim.config.quoteToken).tokens cfg g).1
  rw [hp]
  exact ⟨_, rfl⟩

end Backtest

end Tradeflow
