/-
  What trades gain, in exact arithmetic. A swap is made at the prices of its tick, so what comes out
  of it is worth what goes in less the slippage: its gain in percent is its slippage, taken away
  (`Swapped.pnl_eq`), whatever the prices are. A move to or from a staked holding gains nothing. With
  slippages that are not negative no trade gains anything (`Charged`), and the running sum of gains
  falls along the trades of a tick (`executeAll_charged`) and of a run (`Trace.charged`).
  `run_never_gains`: the figures of a run that judge its trades say nothing of the market it ran in.
-/
import Mathlib.Algebra.Order.BigOperators.Group.List
import Tradeflow.Performance.Metrics
import Tradeflow.Proofs.Backtest.ExactRuns
import Tradeflow.Proofs.Number.PairwiseSum

namespace Tradeflow

/-! ## Trades -/

/-- The kinds of trades at prices. -/
def ActionKind.Swaps (kind : ActionKind) : Prop := kind = .swap ∨ kind = .dca

/-- A trade at prices loses its slippage, and any other one neither gains nor loses. -/
inductive Trade.Charged (t : Trade Rat) : Prop
  | swap (kind : t.kind.Swaps) (slippage : 0 ≤ t.slippage) (pnl : t.pnl = -t.slippage)
  | stake (kind : t.kind = .stake ∨ t.kind = .unstake) (pnl : t.pnl = 0)

theorem Trade.Charged.pnl_nonpos {t : Trade Rat} (h : t.Charged) : t.pnl ≤ 0 := by
  cases h with
  | swap _ hslippage hpnl =>
    rw [hpnl]
    exact neg_nonpos.2 hslippage
  | stake _ hpnl => exact hpnl.le

/-- The running sum of gains falls from one value to another along some trades. -/
structure Trade.Falling (high : Rat) (trades : List (Trade Rat)) (low : Rat) : Prop where
  le : low ≤ high
  within : ∀ t ∈ trades, low ≤ t.cumPnl ∧ t.cumPnl ≤ high
  order : trades.Pairwise fun earlier later => later.cumPnl ≤ earlier.cumPnl

namespace Trade.Falling

variable {high mid low : Rat} {trades later : List (Trade Rat)}

theorem nil (high : Rat) : Falling high [] high where
  le := le_rfl
  within := fun _ ht => nomatch ht
  order := .nil

theorem append (h : Falling high trades mid) (h' : Falling mid later low) :
    Falling high (trades ++ later) low where
  le := h'.le.trans h.le
  within := by
    intro t ht
    rcases List.mem_append.1 ht with ht | ht
    · exact ⟨h'.le.trans (h.within t ht).1, (h.within t ht).2⟩
    · exact ⟨(h'.within t ht).1, (h'.within t ht).2.trans h.le⟩
  order := by
    refine List.pairwise_append.2 ⟨h.order, h'.order, fun t ht t' ht' => ?_⟩
    exact (h'.within t' ht').2.trans (h.within t ht).1

end Trade.Falling

/-! ## Actions -/

/-- Slippages of swaps and recurring orders that are numbers lie between a tenth of a percent and ten
percent. -/
def Plan.UsualSlippage (plan : Plan) : Prop :=
  ∀ b kind, (b, kind) ∈ plan.actions → kind.Swaps → ∀ most : Rat,
    Setting.number (b.setting? "maxSlippage") = .ok (some most) → 1 / 10 ≤ most ∧ most ≤ 10

theorem Setting.numberOr_cases {usual x : Rat} {setting : Option Json}
    (h : numberOr usual setting = .ok x) : x = usual ∨ number setting = .ok (some x) := by
  unfold numberOr at h
  split at h
  · cases h
  case h_2 y hy =>
    cases h
    split
    · exact .inl rfl
    · exact .inr hy
  · cases h
    exact .inl rfl

namespace Action

variable {e : Setup Rat} {s s' : State Rat} {t : Trade Rat}

/-- A swap gains its slippage, taken away. -/
theorem Swapped.pnl_eq {kind : ActionKind} {terms : SwapTerms} (h : Swapped e s kind terms t s') :
    t.pnl = -t.slippage := by
  obtain ⟨q, hq, hpnl⟩ : ∃ q,
      Scalar.divide (t.toAmount * e.tick.priceOf e.defaults t.toToken -
        t.fromAmount * e.tick.priceOf e.defaults t.fromToken)
        (t.fromAmount * e.tick.priceOf e.defaults t.fromToken) = .ok q ∧ q * 100 = t.pnl := by
    have hgain := h.pnl
    unfold gain at hgain
    cases hdivide : Scalar.divide (t.toAmount * e.tick.priceOf e.defaults t.toToken -
        t.fromAmount * e.tick.priceOf e.defaults t.fromToken)
        (t.fromAmount * e.tick.priceOf e.defaults t.fromToken) with
    | error f =>
      rw [hdivide] at hgain
      cases hgain
    | ok q =>
      rw [hdivide] at hgain
      exact ⟨q, rfl, Except.ok.inj hgain⟩
  obtain ⟨hworth, hquotient⟩ := Scalar.divide_rat hq
  rw [← hpnl, hquotient, h.received_worth, mul_one_sub, sub_sub_cancel_left, neg_div,
    mul_div_cancel_left₀ _ hworth, neg_mul, div_mul_cancel₀ _ (by norm_num)]

theorem Swapped.slippage_nonneg {kind : ActionKind} {terms : SwapTerms}
    (h : Swapped e s kind terms t s')
    (hnumber : ∀ most : Rat, Setting.number terms.maxSlippage = .ok (some most) → 0 ≤ most) :
    0 ≤ t.slippage := by
  obtain ⟨most, hmost, hslippage, -⟩ := h.slippage
  have hnonneg : 0 ≤ most := by
    rcases Setting.numberOr_cases hmost with rfl | hmost
    · exact zero_le_one
    · exact hnumber most hmost
  rw [hslippage, Scalar.unit_rat, Scalar.nat_rat]
  positivity

/-- What an action that made a trade was. -/
theorem execute_charged {b : Block} {kind : ActionKind}
    (h : execute e s b kind = .ok (s', some t))
    (hslippage : kind.Swaps → ∀ most : Rat,
      Setting.number (b.setting? "maxSlippage") = .ok (some most) → 0 ≤ most) : t.Charged := by
  rcases execute_made h with ⟨hkind, terms, hmost, hswapped⟩ | ⟨-, back, hstaked⟩
  · exact .swap (hswapped.kind ▸ hkind) (hswapped.slippage_nonneg (hmost ▸ hslippage hkind))
      hswapped.pnl_eq
  · refine .stake ?_ hstaked.pnl
    rw [hstaked.kind]
    cases back
    · exact .inl rfl
    · exact .inr rfl

/-- A trade that gains nothing lets the sum of gains fall to its own. -/
theorem Posted.falling (h : Posted e s t s') (hpnl : t.pnl ≤ 0) :
    Trade.Falling s.cumPnl [t] s'.cumPnl := by
  have hle : s'.cumPnl ≤ s.cumPnl := by
    rcases h.sum with hsum | ⟨-, hsame⟩
    · rw [hsum]
      exact add_le_of_nonpos_right hpnl
    · exact hsame.le
  exact
    { le := hle
      within := fun t' ht' => by
        rw [List.mem_singleton.1 ht', h.cumPnl]
        exact ⟨le_rfl, hle⟩
      order := List.pairwise_singleton _ _ }

theorem executeAll_charged {actions : List (Block × ActionKind)} {trades : List (Trade Rat)}
    (hslippage : ∀ b kind, (b, kind) ∈ actions → kind.Swaps → ∀ most : Rat,
      Setting.number (b.setting? "maxSlippage") = .ok (some most) → 0 ≤ most)
    (h : executeAll e s actions = .ok (s', trades)) :
    (∀ t ∈ trades, t.Charged) ∧ Trade.Falling s.cumPnl trades s'.cumPnl := by
  induction actions generalizing s trades with
  | nil =>
    cases h
    exact ⟨fun _ ht => (nomatch ht), .nil _⟩
  | cons action actions ih =>
    obtain ⟨b, kind⟩ := action
    obtain ⟨s₁, trade, rest, hfirst, hrest, rfl⟩ := executeAll_cons h
    obtain ⟨hcharged, hfalling⟩ :=
      ih (fun b kind hmem => hslippage b kind (List.mem_cons_of_mem _ hmem)) hrest
    rcases execute_cases hfirst with ⟨rfl, rfl⟩ | ⟨t, rfl, hposted⟩
    · exact ⟨hcharged, hfalling⟩
    · have ht := execute_charged hfirst (hslippage b kind List.mem_cons_self)
      exact ⟨List.forall_mem_cons.2 ⟨ht, hcharged⟩,
        (hposted.falling ht.pnl_nonpos).append hfalling⟩

end Action

/-! ## Runs -/

namespace Backtest

theorem tick_charged {config : EngineConfig} {plan : Plan} {s s' : State Rat} {t : PriceTick Rat}
    {step : Step Rat} (hslippage : plan.UsualSlippage) (h : tick config plan s t = .ok (s', step)) :
    (∀ t ∈ step.trades, t.Charged) ∧
      Trade.Falling s.action.cumPnl step.trades s'.action.cumPnl := by
  obtain ⟨fired, hticked⟩ := tick_cases h
  cases fired with
  | true =>
    refine Action.executeAll_charged (fun b kind hmem hkind most hmost => ?_) (hticked.acted rfl)
    exact le_trans (by norm_num) (hslippage b kind hmem hkind most hmost).1
  | false =>
    obtain ⟨haction, htrades⟩ := hticked.idle rfl
    rw [haction, htrades]
    exact ⟨fun _ ht => (nomatch ht), .nil _⟩

theorem Trace.charged {config : EngineConfig} {plan : Plan} {s s' : State Rat}
    {ticks : List (PriceTick Rat)} {steps : List (Step Rat)} (hslippage : plan.UsualSlippage)
    (h : Trace config plan s ticks steps s') :
    (∀ t ∈ steps.flatMap (·.trades), t.Charged) ∧
      Trade.Falling s.action.cumPnl (steps.flatMap (·.trades)) s'.action.cumPnl := by
  induction h with
  | nil s => exact ⟨fun _ ht => (nomatch ht), .nil _⟩
  | cons first _ ih =>
    obtain ⟨hfirst, hfalls⟩ := tick_charged hslippage first
    rw [List.flatMap_cons]
    exact ⟨List.forall_mem_append.2 ⟨hfirst, ih.1⟩, hfalls.append ih.2⟩

end Backtest

/-! ## Figures -/

namespace Performance

variable {pnls : List Rat}

theorem filter_positive_of_nonpos (h : ∀ x ∈ pnls, x ≤ 0) : pnls.filter Scalar.positive = [] :=
  List.filter_eq_nil_iff.2 fun x hx hpos => (of_decide_eq_true hpos).not_ge (h x hx)

theorem winRate_of_nonpos (h : ∀ x ∈ pnls, x ≤ 0) : winRate pnls = 0 := by
  unfold winRate
  split
  · rfl
  · rw [filter_positive_of_nonpos h, List.length_nil, Scalar.nat_rat, Nat.cast_zero, zero_div]

theorem profitFactor_of_nonpos (h : ∀ x ∈ pnls, x ≤ 0) : profitFactor pnls = 0 := by
  unfold profitFactor
  rw [filter_positive_of_nonpos h, Sum.pairwise_rat, List.sum_nil]
  dsimp only
  split
  · exact zero_div _
  · exact if_neg fun hpos => lt_irrefl (0 : Rat) (of_decide_eq_true hpos)

theorem meanOrZero_of_nonpos (h : ∀ x ∈ pnls, x ≤ 0) : meanOrZero pnls ≤ 0 := by
  unfold meanOrZero
  split
  · exact le_rfl
  · have hsum : pnls.sum ≤ 0 := by
      rw [← nsmul_zero pnls.length]
      exact List.sum_le_card_nsmul pnls 0 h
    rw [Sum.mean_rat]
    exact div_nonpos_of_nonpos_of_nonneg hsum (Nat.cast_nonneg _)

/-- The figures of a run that judge its trades, if none of them gains. -/
theorem metrics_of_nonpos {trades : List (Trade Rat)} (h : ∀ t ∈ trades, t.pnl ≤ 0)
    (curve : List (EquityPoint Rat)) (capital : Rat) (start stop : Instant) (firings : Int) :
    (metrics trades curve capital start stop firings).winRate = 0 ∧
      (metrics trades curve capital start stop firings).profitFactor = 0 ∧
      (metrics trades curve capital start stop firings).avgTradeReturn ≤ 0 := by
  have hpnls : ∀ x ∈ trades.map (·.pnl), x ≤ 0 := List.forall_mem_map.2 h
  unfold metrics
  split
  · exact ⟨rfl, rfl, le_rfl⟩
  · exact ⟨winRate_of_nonpos hpnls, profitFactor_of_nonpos hpnls, meanOrZero_of_nonpos hpnls⟩

end Performance

/-- A win rate of zero is pointed out as low. -/
theorem Metrics.mem_issues_of_winRate {m : Metrics Rat} (h : m.winRate = 0)
    (slippages : List Rat) :
    "Low win rate - consider adjusting entry conditions" ∈ m.issues slippages := by
  have hlow : Scalar.less m.winRate (Scalar.decimal 3 1) = true := by
    rw [h]
    exact decide_eq_true (by norm_num [Scalar.decimal_rat])
  unfold issues
  rw [hlow, if_pos rfl]
  simp

namespace Backtest

/-- No trade of a run gains, and so say its figures. -/
structure Outcome.Gainless (o : Outcome Rat) : Prop where
  trades : ∀ t ∈ o.trades, t.Charged
  cumPnl : o.trades.Pairwise fun earlier later => later.cumPnl ≤ earlier.cumPnl
  winRate : o.metrics.winRate = 0
  profitFactor : o.metrics.profitFactor = 0
  avgTradeReturn : o.metrics.avgTradeReturn ≤ 0
  issues : "Low win rate - consider adjusting entry conditions" ∈
    o.metrics.issues (o.trades.map (·.slippage))

/-- Swaps whose slippages are as declared never gain, in whatever market a run takes place and whenever
it is stopped; and with positive default prices a run gives a result. -/
theorem run_never_gains (sim : Simulator) (watch : Watch) (entropy : Nat) (strategy : Strategy)
    (cfg : SimulationConfig) (hprices : PositivePrices sim.config.defaultPrices)
    (hslippage : (strategy.plan sim.catalog sim.config.quoteToken).UsualSlippage) :
    ((∀ n, cfg.seed = some n → 0 ≤ n) →
      ∃ outcome, run Rat sim watch entropy strategy cfg = .ok outcome) ∧
    ∀ outcome, run Rat sim watch entropy strategy cfg = .ok outcome → outcome.Gainless := by
  refine ⟨exists_run sim watch entropy strategy cfg hprices, fun outcome h => ?_⟩
  obtain ⟨seeded, ticks, g, p, -, -, hreplay, rfl⟩ := run_cases h
  obtain ⟨hcharged, hfalling⟩ := (trace_of_replay hreplay).2.charged hslippage
  obtain ⟨hwin, hprofit, havg⟩ := Performance.metrics_of_nonpos
    (fun t ht => (hcharged t ht).pnl_nonpos) (p.steps.map (·.equity))
    (Scalar.ofFloat cfg.initialCapital) cfg.startDate cfg.endDate p.state.firings
  exact
    { trades := hcharged
      cumPnl := hfalling.order
      winRate := hwin
      profitFactor := hprofit
      avgTradeReturn := havg
      issues := Metrics.mem_issues_of_winRate hwin _ }

theorem positivePrices_standard : PositivePrices EngineConfig.standard.defaultPrices := by
  have hall : ∀ p ∈ EngineConfig.standard.defaultPrices, 0 < Double.exact p.2 := by decide +kernel
  exact fun token x hx => hall (token, x) (Assoc.mem_of_get? hx)

/-- A swap of half a balance, at a slippage of up to two percent. -/
def costlySwap : Block :=
  { Engine.halfSwap with config := [("amount", .int 50), ("maxSlippage", .int 2)] }

def hourlyCostlySwap : Strategy := Engine.pair Engine.hourly costlySwap

theorem usualSlippage_hourlyCostlySwap : (hourlyCostlySwap.plan .core "USDT").UsualSlippage := by
  have hactions : (hourlyCostlySwap.plan .core "USDT").actions = [(costlySwap, .swap)] := rfl
  intro b kind hmem _ most hmost
  rw [hactions] at hmem
  cases List.mem_singleton.1 hmem
  cases hmost
  norm_num

/-- It makes a trade in the hour, which loses. -/
theorem hourlyCostlySwap_never_gains :
    ∃ outcome, run Rat ⟨.standard, .core, none⟩ .idle 0 hourlyCostlySwap Engine.oneHour = .ok outcome ∧
      (∃ t ∈ outcome.trades, t.pnl < 0) ∧ outcome.Gainless := by
  obtain ⟨hreturns, hgainless⟩ := run_never_gains ⟨.standard, .core, none⟩ .idle 0 hourlyCostlySwap
    Engine.oneHour positivePrices_standard usualSlippage_hourlyCostlySwap
  obtain ⟨outcome, houtcome⟩ := hreturns (fun n hn => by cases hn; decide)
  have hloss : ((run Rat ⟨.standard, .core, none⟩ .idle 0 hourlyCostlySwap Engine.oneHour).map
      fun o => o.trades.any (decide <| ·.pnl < 0)).toOption = some true := by
    decide +kernel
  rw [houtcome] at hloss
  obtain ⟨t, ht, hneg⟩ := List.any_eq_true.1 (Option.some.inj hloss)
  exact ⟨outcome, houtcome, ⟨t, ht, of_decide_eq_true hneg⟩, hgainless outcome houtcome⟩

end Backtest

end Tradeflow
