/-
  What can be spent, in exact arithmetic. An action moves part of a balance and no more than all of it
  (`part_le`), and what comes out of it is more than nothing, as prices are positive and slippages
  below a hundred percent (`execute_covered`). So no action takes a balance below zero
  (`Ledger.Solvent.exchange`); only gas does, which is paid out of the capital whatever is left of it.
  `Reaches` are the states that actions lead to, one action after the other, with the trades on the
  way; those of a run are among them, within its ticks as well (`Reaches.executeAll`, `Reaches.trace`).
  `run_stays_solvent`: in all of them nothing is owed but gas, and every trade was covered when it was
  made.
-/
import Tradeflow.Proofs.Backtest.Gains
import Tradeflow.Proofs.Backtest.Stopping
import Tradeflow.Proofs.Number.Order
import Tradeflow.Proofs.Random.Draws

namespace Tradeflow

/-! ## Ledgers -/

theorem Assoc.forall_set {α : Type} {P : α → Prop} {m : Assoc α} (h : ∀ p ∈ m, P p.2)
    (key : String) {value : α} (hvalue : P value) : ∀ p ∈ m.set key value, P p.2 := by
  induction m with
  | nil => exact List.forall_mem_singleton.2 hvalue
  | cons q m ih =>
    obtain ⟨hq, hm⟩ := List.forall_mem_cons.1 h
    rw [set]
    split
    · exact List.forall_mem_cons.2 ⟨hvalue, hm⟩
    · exact List.forall_mem_cons.2 ⟨hq, ih hm⟩

/-- The gas that was paid for trades. -/
def Trade.totalGas (trades : List (Trade Rat)) : Rat := (trades.map (·.gas)).sum

namespace Ledger

/-- Nothing is owed but gas. -/
structure Solvent (gas : Rat) (l : Ledger Rat) : Prop where
  positions : ∀ p ∈ l.positions, 0 ≤ p.2
  capital : -gas ≤ l.capital

variable {quote : String} {l : Ledger Rat} {gas : Rat}

/-- Adding what may be less than nothing, as long as the balance does not become that. -/
theorem Solvent.add (h : l.Solvent gas) (hgas : 0 ≤ gas) {token : String} {amount : Rat}
    (hbalance : 0 ≤ l.balance quote token + amount) : (l.add quote token amount).Solvent gas := by
  unfold balance at hbalance
  unfold Ledger.add
  split at hbalance
  case isTrue htoken =>
    rw [if_pos htoken]
    exact ⟨h.positions, (neg_nonpos.2 hgas).trans hbalance⟩
  case isFalse htoken =>
    rw [if_neg htoken]
    exact ⟨Assoc.forall_set h.positions token hbalance, h.capital⟩

/-- Adding what is not less than nothing. -/
theorem Solvent.credit (h : l.Solvent gas) (token : String) {amount : Rat} (hamount : 0 ≤ amount) :
    (l.add quote token amount).Solvent gas := by
  unfold Ledger.add
  split
  · exact ⟨h.positions, h.capital.trans (le_add_of_nonneg_right hamount)⟩
  · refine ⟨Assoc.forall_set h.positions token (add_nonneg ?_ hamount), h.capital⟩
    cases hheld : Assoc.get? l.positions token with
    | none => exact le_rfl
    | some held => exact h.positions _ (Assoc.mem_of_get? hheld)

theorem Solvent.payGas (h : l.Solvent gas) (fee : Rat) : (l.payGas fee).Solvent (gas + fee) := by
  refine ⟨h.positions, ?_⟩
  show -(gas + fee) ≤ l.capital - fee
  rw [neg_add, ← sub_eq_add_neg]
  exact sub_le_sub_right h.capital fee

/-- A movement of no more than there is. -/
theorem Solvent.exchange (h : l.Solvent gas) (hgas : 0 ≤ gas) {source : String} (target : String)
    {out into : Rat} (hout : out ≤ l.balance quote source) (hinto : 0 ≤ into) (fee : Rat) :
    (l.exchange quote source target out into fee).Solvent (gas + fee) := by
  have hleft : 0 ≤ l.balance quote source + -out := by
    rw [← sub_eq_add_neg]
    exact sub_nonneg.2 hout
  exact ((h.add hgas hleft).credit target hinto).payGas fee

end Ledger

/-! ## Actions -/

/-- Something is moved, no more of it than there is, and something comes out. -/
structure Trade.Covered (quote : String) (l : Ledger Rat) (t : Trade Rat) : Prop where
  moved : 0 < t.fromAmount
  held : t.fromAmount ≤ l.balance quote t.fromToken
  received : 0 < t.toAmount

namespace Action

variable {e : Setup Rat} {s s' : State Rat} {t : Trade Rat}

theorem Sizing.amountOf_le {sizing : Sizing} {usual balance amount : Rat}
    (h : sizing.amountOf usual balance = .ok amount) : amount ≤ balance := by
  have hsmaller : ∀ x : Rat, Scalar.smaller x balance ≤ balance := by
    intro x
    unfold Scalar.smaller
    split
    · exact le_rfl
    case isFalse hless => exact not_lt.1 fun hlt => hless (decide_eq_true hlt)
  unfold amountOf at h
  split at h
  · cases h
  · cases h
    split
    · exact hsmaller _
    · split
      · exact le_rfl
      · exact hsmaller _

/-- No more is moved than there is. -/
theorem part_le {balance usual amount : Rat} {sizing : Sizing}
    (h : part balance usual sizing = .ok (some amount)) : amount ≤ balance :=
  Sizing.amountOf_le (part_cases h).2.1

/-- Slippages are below a hundred percent, so something comes out of a swap. -/
theorem Swapped.toAmount_pos {kind : ActionKind} {terms : SwapTerms}
    (h : Swapped e s kind terms t s') (hprices : PositivePrices e.defaults)
    (hnumber : ∀ most : Rat, Setting.number terms.maxSlippage = .ok (some most) → most ≤ 10) :
    0 < t.toAmount := by
  obtain ⟨most, hmost, -, hreceived⟩ := h.slippage
  have hle : most ≤ 10 := by
    rcases Setting.numberOr_cases hmost with rfl | hmost
    · norm_num
    · exact hnumber most hmost
  have hunit : (s.generator.nextUnit.1 : Rat) / 2 ^ 53 < 1 := by
    rw [div_lt_one (by norm_num)]
    exact_mod_cast Random.Generator.nextUnit_lt s.generator
  have hslippage : (s.generator.nextUnit.1 : Rat) / 2 ^ 53 * most / 100 < 1 := by
    have hpart : (s.generator.nextUnit.1 : Rat) / 2 ^ 53 * most ≤
        (s.generator.nextUnit.1 : Rat) / 2 ^ 53 * 10 :=
      mul_le_mul_of_nonneg_left hle (by positivity)
    linarith
  have hprice : 0 < t.price := by
    rw [(Scalar.divide_rat h.rate).2]
    exact div_pos (priceOf_pos hprices _ _) (priceOf_pos hprices _ _)
  rw [hreceived]
  exact mul_pos (mul_pos (part_pos h.size) hprice) (sub_pos.2 hslippage)

theorem execute_covered {b : Block} {kind : ActionKind} (hprices : PositivePrices e.defaults)
    (hslippage : kind.Swaps → ∀ most : Rat,
      Setting.number (b.setting? "maxSlippage") = .ok (some most) → most ≤ 10)
    (h : execute e s b kind = .ok (s', some t)) : t.Covered e.quote s.ledger := by
  rcases execute_made h with ⟨hkind, terms, hmost, hswapped⟩ | ⟨-, back, hstaked⟩
  · exact
      { moved := part_pos hswapped.size
        held := part_le hswapped.size
        received := hswapped.toAmount_pos hprices (hmost ▸ hslippage hkind) }
  · exact
      { moved := part_pos hstaked.size
        held := part_le hstaked.size
        received := by
          rw [hstaked.received]
          exact part_pos hstaked.size }

theorem Posted.solvent (h : Posted e s t s') {gas : Rat} (hgas : 0 ≤ gas)
    (hsolvent : s.ledger.Solvent gas) (hcovered : t.Covered e.quote s.ledger) :
    s'.ledger.Solvent (gas + t.gas) := by
  rw [h.ledger]
  exact hsolvent.exchange hgas t.toToken hcovered.held hcovered.received.le t.gas

end Action

/-! ## Reached states -/

namespace Backtest

section Reaches

variable {R : Type} [Scalar R]

/-- What actions of a plan lead to at ticks of a series, and the trades that they made on the way. -/
inductive Reaches (config : EngineConfig) (plan : Plan) (ticks : List (PriceTick R))
    (start : Action.State R) : List (Trade R) → Action.State R → Prop where
  | start : Reaches config plan ticks start [] start
  | act {trades : List (Trade R)} {s s' : Action.State R} {t : PriceTick R} {b : Block}
      {kind : ActionKind} {trade : Option (Trade R)}
      (before : Reaches config plan ticks start trades s) (tick : t ∈ ticks)
      (action : (b, kind) ∈ plan.actions)
      (done : Action.execute ⟨config.quoteToken, config.defaultPrices, t⟩ s b kind =
        .ok (s', trade)) :
      Reaches config plan ticks start (trades ++ trade.toList) s'

variable {config : EngineConfig} {plan : Plan} {ticks : List (PriceTick R)}
  {start : Action.State R} {trades : List (Trade R)}

/-- The first actions of a tick lead on. -/
theorem Reaches.executeAll {s s' : Action.State R} {t : PriceTick R}
    {actions : List (Block × ActionKind)} {more : List (Trade R)}
    (h : Reaches config plan ticks start trades s) (htick : t ∈ ticks)
    (hactions : actions ⊆ plan.actions)
    (hdone : Action.executeAll ⟨config.quoteToken, config.defaultPrices, t⟩ s actions =
      .ok (s', more)) : Reaches config plan ticks start (trades ++ more) s' := by
  induction actions generalizing s trades more with
  | nil =>
    cases hdone
    rw [List.append_nil]
    exact h
  | cons action actions ih =>
    obtain ⟨b, kind⟩ := action
    obtain ⟨haction, hactions⟩ := List.cons_subset.1 hactions
    obtain ⟨s₁, trade, rest, hfirst, hrest, rfl⟩ := Action.executeAll_cons hdone
    rw [← List.append_assoc]
    exact ih (h.act htick haction hfirst) hactions hrest

/-- A whole tick leads on. -/
theorem Reaches.ticked {s s' : State R} {t : PriceTick R} {fired : Bool} {step : Step R}
    (h : Reaches config plan ticks start trades s.action) (htick : t ∈ ticks)
    (hticked : Ticked config plan s t fired s' step) :
    Reaches config plan ticks start (trades ++ step.trades) s'.action := by
  cases fired with
  | true => exact h.executeAll htick (List.Subset.refl _) (hticked.acted rfl)
  | false =>
    obtain ⟨haction, htrades⟩ := hticked.idle rfl
    rw [haction, htrades, List.append_nil]
    exact h

/-- So do many of them. -/
theorem Reaches.trace {s s' : State R} {passed : List (PriceTick R)} {steps : List (Step R)}
    (h : Reaches config plan ticks start trades s.action) (hpassed : passed ⊆ ticks)
    (htrace : Trace config plan s passed steps s') :
    Reaches config plan ticks start (trades ++ steps.flatMap (·.trades)) s'.action := by
  induction htrace generalizing trades with
  | nil s =>
    rw [List.flatMap_nil, List.append_nil]
    exact h
  | cons first _ ih =>
    obtain ⟨htick, hpassed⟩ := List.cons_subset.1 hpassed
    obtain ⟨fired, hticked⟩ := tick_cases first
    rw [List.flatMap_cons, ← List.append_assoc]
    exact ih (h.ticked htick hticked) hpassed

/-- Each trade was made in a state that was reached with the trades before it. -/
theorem Reaches.made {s : Action.State R} (h : Reaches config plan ticks start trades s) {n : Nat}
    {trade : Trade R} (htrade : trades[n]? = some trade) :
    ∃ s₁ s₂ t b kind, Reaches config plan ticks start (trades.take n) s₁ ∧ t ∈ ticks ∧
      (b, kind) ∈ plan.actions ∧
      Action.execute ⟨config.quoteToken, config.defaultPrices, t⟩ s₁ b kind =
        .ok (s₂, some trade) := by
  induction h with
  | start => cases htrade
  | @act trades s s' t b kind made before tick action done ih =>
    rcases Nat.lt_or_ge n trades.length with hn | hn
    · rw [List.getElem?_append_left hn] at htrade
      rw [List.take_append_of_le_length hn.le]
      exact ih htrade
    · rw [List.getElem?_append_right hn] at htrade
      cases made with
      | none => cases htrade
      | some last =>
        have hlast : n - trades.length = 0 := by
          have hlt := (List.getElem?_eq_some_iff.1 htrade).1
          exact Nat.lt_one_iff.1 hlt
        rw [hlast] at htrade
        cases htrade
        have hn : n = trades.length := by omega
        rw [hn, List.take_left]
        exact ⟨s, s', t, b, kind, before, tick, action, done⟩

end Reaches

/-! ## Runs -/

variable {config : EngineConfig} {plan : Plan} {ticks : List (PriceTick Rat)}
  {start s : Action.State Rat} {trades : List (Trade Rat)}

/-- One action keeps what is owed to the gas. -/
theorem Reaches.solvent (hprices : PositivePrices config.defaultPrices)
    (hslippage : plan.UsualSlippage) (hgas : ∀ t ∈ ticks, 0 ≤ t.gasPrice)
    (hstart : start.ledger.Solvent 0) (h : Reaches config plan ticks start trades s) :
    0 ≤ Trade.totalGas trades ∧ s.ledger.Solvent (Trade.totalGas trades) := by
  induction h with
  | start => exact ⟨le_rfl, hstart⟩
  | @act trades s s' t b kind made before tick action done ih =>
    obtain ⟨hpaid, hsolvent⟩ := ih
    rcases Action.execute_cases done with ⟨rfl, rfl⟩ | ⟨trade, rfl, hposted⟩
    · rw [Option.toList_none, List.append_nil]
      exact ⟨hpaid, hsolvent⟩
    · have hcovered := Action.execute_covered hprices
        (fun hkind most hmost => (hslippage b kind action hkind most hmost).2) done
      have htotal : Trade.totalGas (trades ++ [trade]) = Trade.totalGas trades + trade.gas := by
        rw [Trade.totalGas, List.map_append, List.sum_append, List.map_singleton,
          List.sum_singleton]
        rfl
      rw [Option.toList_some, htotal]
      refine ⟨add_nonneg hpaid ?_, hposted.solvent hpaid hsolvent hcovered⟩
      rw [hposted.gas]
      exact hgas t tick

/-- What a run can be in, over the ticks of its market and with the random numbers left after it. -/
def Reached (sim : Simulator) (strategy : Strategy) (cfg : SimulationConfig)
    (ticks : List (PriceTick Rat)) (g : Random.Generator) :
    List (Trade Rat) → Action.State Rat → Prop :=
  Reaches sim.config (planOf sim strategy) ticks
    (State.start (Scalar.ofFloat cfg.initialCapital) g).action

/-- With positive default prices and slippages as declared, no run overdraws a token: nothing is owed
but gas in any state that actions of the plan lead to at ticks of the market, and every trade moves
something that is there for something. A run gives a result; it is in such states after each of its
ticks, and in such a state was each of its trades made. -/
theorem run_stays_solvent (sim : Simulator) (watch : Watch) (entropy : Nat) (strategy : Strategy)
    (cfg : SimulationConfig) (hprices : PositivePrices sim.config.defaultPrices)
    (hslippage : (planOf sim strategy).UsualSlippage)
    (hcapital : Scalar.positive cfg.initialCapital = true) :
    (∀ seeded ticks g trades s, marketOf sim strategy cfg seeded = (ticks, g) →
      Reached sim strategy cfg ticks g trades s →
      s.ledger.Solvent (Trade.totalGas trades) ∧
      ∀ t ∈ ticks, ∀ b kind s' trade, (b, kind) ∈ (planOf sim strategy).actions →
        Action.execute ⟨sim.config.quoteToken, sim.config.defaultPrices, t⟩ s b kind =
          .ok (s', some trade) →
        trade.Covered sim.config.quoteToken s.ledger) ∧
    ((∀ n, cfg.seed = some n → 0 ≤ n) →
      ∃ outcome, run Rat sim watch entropy strategy cfg = .ok outcome) ∧
    ∀ outcome, run Rat sim watch entropy strategy cfg = .ok outcome →
      ∃ seeded ticks g, ∃ steps : List (Step Rat), generatorOf cfg entropy = .ok seeded ∧
        marketOf sim strategy cfg seeded = (ticks, g) ∧
        outcome.trades = steps.flatMap (·.trades) ∧
        (∀ n ≤ steps.length, ∃ s : State Rat,
          Trace sim.config (planOf sim strategy)
            (State.start (Scalar.ofFloat cfg.initialCapital) g) (ticks.take n) (steps.take n) s ∧
          Reached sim strategy cfg ticks g ((steps.take n).flatMap (·.trades)) s.action) ∧
        ∀ n trade, outcome.trades[n]? = some trade → ∃ s,
          Reached sim strategy cfg ticks g (outcome.trades.take n) s ∧
          trade.Covered sim.config.quoteToken s.ledger := by
  have hcovered : ∀ (s : Action.State Rat) t b kind s' trade,
      (b, kind) ∈ (planOf sim strategy).actions →
      Action.execute ⟨sim.config.quoteToken, sim.config.defaultPrices, t⟩ s b kind =
        .ok (s', some trade) →
      trade.Covered sim.config.quoteToken s.ledger := fun s t b kind s' trade haction hdone =>
    Action.execute_covered hprices
      (fun hkind most hmost => (hslippage b kind haction hkind most hmost).2) hdone
  refine ⟨fun seeded ticks g trades s hmarket h => ⟨?_, fun t _ => hcovered s t⟩,
    exists_run sim watch entropy strategy cfg hprices, fun outcome h => ?_⟩
  · have hgas : ∀ t ∈ ticks, 0 ≤ t.gasPrice := by
      have hbuilt := PriceSeries.build_gas_nonneg sim.config sim.feed
        (strategy.plan sim.catalog sim.config.quoteToken).tokens cfg seeded
      rw [marketOf] at hmarket
      rwa [hmarket] at hbuilt
    have hstart : (State.start (Scalar.ofFloat cfg.initialCapital : Rat) g).action.ledger.Solvent
        0 := by
      refine ⟨fun _ hp => absurd hp List.not_mem_nil, ?_⟩
      rw [neg_zero]
      exact Double.exact_nonneg hcapital
    exact (h.solvent hprices hslippage hgas hstart).2
  · obtain ⟨seeded, ticks, g, p, hseeded, hmarket, hreplay, rfl⟩ := run_cases h
    obtain ⟨-, htrace⟩ := trace_of_replay hreplay
    have hreached : ∀ {passed : List (PriceTick Rat)} {steps s}, passed ⊆ ticks →
        Trace sim.config (planOf sim strategy)
          (State.start (Scalar.ofFloat cfg.initialCapital) g) passed steps s →
        Reached sim strategy cfg ticks g (steps.flatMap (·.trades)) s.action :=
      fun hpassed htrace => Reaches.start.trace hpassed htrace
    refine ⟨seeded, ticks, g, p.steps, hseeded, hmarket, rfl, fun n hn => ?_,
      fun n trade htrade => ?_⟩
    · obtain ⟨s, hfirst⟩ := htrace.take n
      rw [List.take_take, Nat.min_eq_left hn] at hfirst
      exact ⟨s, hfirst, hreached (List.take_subset n ticks) hfirst⟩
    · obtain ⟨s₁, s₂, t, b, kind, hbefore, -, haction, hdone⟩ :=
        (hreached (List.take_subset _ ticks) htrace).made htrade
      exact ⟨s₁, hbefore, hcovered s₁ t b kind s₂ trade haction hdone⟩

/-- The hour of a costly swap: its one trade is covered by the capital, which pays the gas. -/
theorem hourlyCostlySwap_solvent :
    ∃ outcome, run Rat ⟨.standard, .core, none⟩ .idle 0 hourlyCostlySwap Engine.oneHour = .ok outcome ∧
      ∃ trade, outcome.trades = [trade] ∧ ∃ s : Action.State Rat,
        trade.Covered "USDT" s.ledger ∧ s.ledger.Solvent 0 := by
  obtain ⟨hstates, hreturns, hruns⟩ := run_stays_solvent ⟨.standard, .core, none⟩ .idle 0
    hourlyCostlySwap Engine.oneHour positivePrices_standard usualSlippage_hourlyCostlySwap
    (by decide +kernel)
  obtain ⟨outcome, houtcome⟩ := hreturns (fun n hn => by cases hn; decide)
  obtain ⟨seeded, ticks, g, steps, -, hmarket, -, -, hmade⟩ := hruns outcome houtcome
  have hcount : ((run Rat ⟨.standard, .core, none⟩ .idle 0 hourlyCostlySwap Engine.oneHour).map
      (·.trades.length)).toOption = some 1 := by
    decide +kernel
  rw [houtcome] at hcount
  obtain ⟨trade, htrades⟩ := List.length_eq_one_iff.1 (Option.some.inj hcount)
  obtain ⟨s, hreached, hcovered⟩ := hmade 0 trade (by rw [htrades]; rfl)
  exact ⟨outcome, houtcome, trade, htrades, s, hcovered,
    (hstates seeded ticks g _ s hmarket hreached).1⟩

end Backtest

end Tradeflow
