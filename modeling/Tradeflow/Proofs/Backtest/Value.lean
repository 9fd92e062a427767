/-
  What a swap does to equity, in exact arithmetic. Equity counts the capital as it is and every
  other holding at its price, so a unit of a token is worth `Ledger.unitWorth`: one for the quote
  token, and the price for any other. A swap is made at prices, the quote token's included. The two
  agree when the quote token is priced at one or is on neither side (`AtPar`); then a swap costs its
  slippage and its gas and nothing else.
  `swap_costs_slippage_and_gas`: the change of equity by one trade for any prices, the same for all
  swaps of a tick, and that no trade at par raises equity.
-/
import Mathlib.Tactic.Linarith
import Mathlib.Tactic.Positivity
import Mathlib.Tactic.Ring
import Tradeflow.Proofs.Backtest.Foresight
import Tradeflow.Proofs.Market.Walk
import Tradeflow.Proofs.Number.Rational

namespace Tradeflow

/-! ## Worth of a ledger -/

namespace Assoc

/-- The worth of amounts at a worth per unit. -/
def worth (unit : String → Rat) (m : Assoc Rat) : Rat := (m.map fun p => p.2 * unit p.1).sum

theorem worth_set (unit : String → Rat) (m : Assoc Rat) (key : String) (value : Rat) :
    worth unit (m.set key value) =
      worth unit m + (value - (m.get? key).getD 0) * unit key := by
  induction m with
  | nil => simp [worth, set, get?]
  | cons p m ih =>
    obtain ⟨k, v⟩ := p
    by_cases hk : k = key
    · subst hk
      simp only [worth, set, get?, if_true, List.map_cons, List.sum_cons, Option.getD_some]
      ring
    · simp only [worth, set, get?, if_neg hk, List.map_cons, List.sum_cons] at ih ⊢
      rw [ih]
      ring

theorem worth_update_add (unit : String → Rat) (m : Assoc Rat) (key : String) (amount : Rat) :
    worth unit (m.update key 0 (· + amount)) = worth unit m + amount * unit key := by
  rw [update, worth_set, add_sub_cancel_left]

end Assoc

namespace Ledger

/-- What one unit of a token adds to equity. -/
def unitWorth (quote : String) (defaults : Assoc Float) (tick : PriceTick Rat) (token : String) :
    Rat :=
  if token = quote then 1 else tick.priceOf defaults token

variable (quote : String) (defaults : Assoc Float) (tick : PriceTick Rat) (l : Ledger Rat)

theorem equity_eq_worth :
    l.equity defaults tick = l.capital + Assoc.worth (tick.priceOf defaults) l.positions := by
  have hfold : ∀ (positions : Assoc Rat) (start : Rat),
      positions.foldl (fun sum p => sum + p.2 * tick.priceOf defaults p.1) start =
        start + Assoc.worth (tick.priceOf defaults) positions := by
    intro positions
    induction positions with
    | nil => exact fun start => (add_zero start).symm
    | cons p positions ih =>
      intro start
      exact (ih _).trans (add_assoc _ _ _)
  exact hfold l.positions l.capital

theorem equity_add (token : String) (amount : Rat) :
    (l.add quote token amount).equity defaults tick =
      l.equity defaults tick + amount * unitWorth quote defaults tick token := by
  rw [equity_eq_worth, equity_eq_worth, unitWorth, add]
  split
  · show l.capital + amount + _ = _
    ring
  · show l.capital + Assoc.worth _ (l.positions.update token 0 (· + amount)) = _
    rw [Assoc.worth_update_add, add_assoc]

theorem equity_payGas (gas : Rat) :
    (l.payGas gas).equity defaults tick = l.equity defaults tick - gas := by
  rw [equity_eq_worth, equity_eq_worth, payGas]
  show l.capital - gas + _ = _
  ring

/-- A movement changes equity by what goes in and what goes out, and the gas. -/
theorem equity_exchange (source target : String) (out into gas : Rat) :
    (l.exchange quote source target out into gas).equity defaults tick =
      l.equity defaults tick - out * unitWorth quote defaults tick source +
        into * unitWorth quote defaults tick target - gas := by
  rw [exchange, equity_payGas, equity_add, equity_add]
  ring

end Ledger

/-! ## Gas is never negative -/

namespace PriceSeries

theorem synthetic_gas_nonneg (config : EngineConfig) (run : SimulationConfig) (g : Random.Generator) :
    ∀ t ∈ (synthetic (R := Rat) config run g).1, 0 ≤ t.gasPrice := by
  intro t ht
  obtain ⟨_, _, d, rfl⟩ := exists_of_mem_synthetic ht
  show (0 : Rat) ≤ Scalar.decimal 5 2 + Scalar.unit d.gas * Scalar.decimal 5 2
  rw [Scalar.decimal_rat, Scalar.unit_rat]
  positivity

theorem join_gas_nonneg (count : Nat) (series : Assoc (List PricePoint)) :
    ∀ t ∈ join (R := Rat) count series, 0 ≤ t.gasPrice := by
  induction count generalizing series with
  | zero => exact fun t ht => absurd ht List.not_mem_nil
  | succ count ih =>
    intro t ht
    rw [join] at ht
    split at ht
    · rcases List.mem_cons.1 ht with rfl | ht
      · show (0 : Rat) ≤ Scalar.decimal 5 2
        rw [Scalar.decimal_rat]
        positivity
      · exact ih _ t ht
    · exact absurd ht List.not_mem_nil

/-- Whether synthetic or historical. -/
theorem build_gas_nonneg (config : EngineConfig) (feed : Option PriceFeed) (tokens : List String)
    (run : SimulationConfig) (g : Random.Generator) :
    ∀ t ∈ (build (R := Rat) config feed tokens run g).1, 0 ≤ t.gasPrice := by
  have hhistorical : ∀ feed, ∀ t ∈ historical (R := Rat) feed tokens run, 0 ≤ t.gasPrice := by
    intro feed t ht
    unfold historical at ht
    split at ht
    · exact absurd ht List.not_mem_nil
    · split at ht
      · exact absurd ht List.not_mem_nil
      · exact join_gas_nonneg _ _ t ht
  intro t ht
  unfold build at ht
  dsimp only at ht
  split at ht
  · split at ht
    · exact synthetic_gas_nonneg _ _ _ t ht
    · exact hhistorical _ t ht
  · exact synthetic_gas_nonneg _ _ _ t ht

end PriceSeries

/-! ## Swaps -/

namespace Action

variable {e : Setup Rat} {s s' : State Rat} {t : Trade Rat}

/-- The equity of a state at the tick. -/
def equityAt (e : Setup Rat) (s : State Rat) : Rat := s.ledger.equity e.defaults e.tick

/-- The quote token is priced at one, or is on neither side of the trade. -/
def AtPar (e : Setup Rat) (t : Trade Rat) : Prop :=
  e.tick.priceOf e.defaults e.quote = 1 ∨ t.fromToken ≠ e.quote ∧ t.toToken ≠ e.quote

/-- What a trade gains by the quote token counting one in equity whatever its price. -/
def parGain (e : Setup Rat) (t : Trade Rat) : Rat :=
  (1 - e.tick.priceOf e.defaults e.quote) *
    ((if t.toToken = e.quote then t.toAmount else 0) -
      (if t.fromToken = e.quote then t.fromAmount else 0))

theorem AtPar.parGain_eq_zero (h : AtPar e t) : parGain e t = 0 := by
  rcases h with hprice | ⟨hfrom, hto⟩
  · rw [parGain, hprice, sub_self, zero_mul]
  · rw [parGain, if_neg hfrom, if_neg hto, sub_self, mul_zero]

/-- The cost of a trade: the slippage on what went in, and the gas of the tick. -/
def cost (e : Setup Rat) (t : Trade Rat) : Rat :=
  t.fromAmount * e.tick.priceOf e.defaults t.fromToken * (t.slippage / 100) + e.tick.gasPrice

/-- What comes out of a swap is worth what goes in, less the slippage. -/
theorem Swapped.received_worth {kind : ActionKind} {terms : SwapTerms}
    (h : Swapped e s kind terms t s') :
    t.toAmount * e.tick.priceOf e.defaults t.toToken =
      t.fromAmount * e.tick.priceOf e.defaults t.fromToken * (1 - t.slippage / 100) := by
  obtain ⟨hprice, hrate⟩ := Scalar.divide_rat h.rate
  obtain ⟨most, -, hslippage, hreceived⟩ := h.slippage
  have hfraction : t.slippage / 100 =
      (s.generator.nextUnit.1 : Rat) / 2 ^ 53 * most / 100 := by
    rw [hslippage]
    exact mul_div_cancel_right₀ _ (by norm_num)
  rw [hfraction, hreceived, hrate]
  show t.fromAmount * (_ / _) * (1 - _) * _ = _
  rw [mul_right_comm, mul_assoc t.fromAmount, div_mul_cancel₀ _ hprice]
  rfl

/-- A trade changes equity by what comes out of it less what goes in, each at its price, by the gas,
and by what the quote token counts more or less than its price. -/
theorem Posted.equity (h : Posted e s t s') :
    equityAt e s' = equityAt e s - t.fromAmount * e.tick.priceOf e.defaults t.fromToken +
      t.toAmount * e.tick.priceOf e.defaults t.toToken - e.tick.gasPrice + parGain e t := by
  have hworth : ∀ token, Ledger.unitWorth e.quote e.defaults e.tick token =
      e.tick.priceOf e.defaults token +
        (if token = e.quote then 1 - e.tick.priceOf e.defaults e.quote else 0) := by
    intro token
    unfold Ledger.unitWorth
    split
    case isTrue htoken => rw [htoken, add_sub_cancel]
    · rw [add_zero]
  rw [equityAt, equityAt, h.ledger, Ledger.equity_exchange, h.gas, hworth, hworth, mul_add, mul_add,
    parGain]
  split <;> split <;> ring

theorem Swapped.equity {kind : ActionKind} {terms : SwapTerms} (h : Swapped e s kind terms t s') :
    equityAt e s' = equityAt e s - cost e t + parGain e t := by
  rw [h.posted.equity, h.received_worth, cost]
  ring

/-- An action that swaps and made a trade is a swap. -/
theorem execute_swapped {b : Block} {kind : ActionKind} (hkind : kind = .swap ∨ kind = .dca)
    (h : execute e s b kind = .ok (s', some t)) : ∃ terms, Swapped e s kind terms t s' := by
  rcases execute_made h with ⟨-, terms, -, hswapped⟩ | ⟨hstakes, -⟩
  · exact ⟨terms, hswapped⟩
  · rcases hkind with rfl | rfl <;> simp at hstakes

/-- What the actions of a tick change, trade by trade. -/
theorem executeAll_change {change : Trade Rat → Rat} {actions : List (Block × ActionKind)}
    {trades : List (Trade Rat)}
    (hone : ∀ s s' b kind t, (b, kind) ∈ actions → execute e s b kind = .ok (s', some t) →
      equityAt e s' = equityAt e s + change t)
    (h : executeAll e s actions = .ok (s', trades)) :
    equityAt e s' = equityAt e s + (trades.map change).sum := by
  induction actions generalizing s trades with
  | nil =>
    cases h
    exact (add_zero _).symm
  | cons action actions ih =>
    obtain ⟨b, kind⟩ := action
    obtain ⟨s₁, trade, rest, hfirst, hrest, rfl⟩ := executeAll_cons h
    rw [ih (fun s s' b kind t hmem => hone s s' b kind t (List.mem_cons_of_mem _ hmem)) hrest]
    rcases execute_cases hfirst with ⟨rfl, rfl⟩ | ⟨t, rfl, -⟩
    · rfl
    · rw [hone _ _ b kind t List.mem_cons_self hfirst, Option.toList_some, List.singleton_append,
        List.map_cons, List.sum_cons, add_assoc]

/-- When all of them are swaps, they cost what each of them costs. -/
theorem executeAll_equity {actions : List (Block × ActionKind)} {trades : List (Trade Rat)}
    (hkinds : ∀ a ∈ actions, a.2 = .swap ∨ a.2 = .dca)
    (h : executeAll e s actions = .ok (s', trades)) :
    equityAt e s' =
      equityAt e s - (trades.map (cost e)).sum + (trades.map (parGain e)).sum := by
  have hone : ∀ s s' b kind t, (b, kind) ∈ actions → execute e s b kind = .ok (s', some t) →
      equityAt e s' = equityAt e s + (-cost e t + parGain e t) := by
    intro s s' b kind t hmem hdone
    obtain ⟨terms, hswapped⟩ := execute_swapped (hkinds _ hmem) hdone
    rw [hswapped.equity]
    ring
  have hcosts : (trades.map fun t => -cost e t).sum = -(trades.map (cost e)).sum := by
    rw [List.sum_neg, List.map_map]
    rfl
  rw [executeAll_change hone h, List.sum_map_add, hcosts, ← add_assoc, ← sub_eq_add_neg]

/-- Only what is there is moved. -/
theorem part_pos {balance usual amount : Rat} {sizing : Sizing}
    (h : part balance usual sizing = .ok (some amount)) : 0 < amount := by
  obtain ⟨-, -, hsize⟩ := part_cases h
  exact not_le.1 (of_decide_eq_false hsize)

theorem Swapped.cost_nonneg {kind : ActionKind} {terms : SwapTerms}
    (h : Swapped e s kind terms t s') (hgas : 0 ≤ e.tick.gasPrice)
    (hprice : 0 ≤ e.tick.priceOf e.defaults t.fromToken) (hslippage : 0 ≤ t.slippage) :
    0 ≤ cost e t := by
  have hamount : 0 < t.fromAmount := part_pos h.size
  rw [cost]
  positivity

/-- A trade of a swap or a recurring order changes equity by its slippage, its gas, and what the
quote token on either side is worth more or less than one; at par that is nothing. So at par no such
trade raises equity at a tick of any series, unless its slippage or the price of what it gives is
negative. The swaps of a tick together cost what each of them costs. -/
theorem swap_costs_slippage_and_gas :
    (∀ (e : Setup Rat) (s s' : State Rat) (b : Block) (kind : ActionKind) (t : Trade Rat),
      kind = .swap ∨ kind = .dca → execute e s b kind = .ok (s', some t) →
      equityAt e s' = equityAt e s -
        t.fromAmount * e.tick.priceOf e.defaults t.fromToken * (t.slippage / 100) -
        e.tick.gasPrice + parGain e t ∧
      (AtPar e t → equityAt e s' = equityAt e s -
        t.fromAmount * e.tick.priceOf e.defaults t.fromToken * (t.slippage / 100) -
        e.tick.gasPrice)) ∧
    (∀ (config : EngineConfig) (feed : Option PriceFeed) (tokens : List String)
      (cfg : SimulationConfig) (g : Random.Generator) (e : Setup Rat) (s s' : State Rat) (b : Block)
      (kind : ActionKind) (t : Trade Rat),
      e.tick ∈ (PriceSeries.build config feed tokens cfg g).1 →
      kind = .swap ∨ kind = .dca → execute e s b kind = .ok (s', some t) → AtPar e t →
      0 ≤ t.slippage → 0 ≤ e.tick.priceOf e.defaults t.fromToken →
      equityAt e s' ≤ equityAt e s) ∧
    ∀ (e : Setup Rat) (s s' : State Rat) (actions : List (Block × ActionKind))
      (trades : List (Trade Rat)),
      (∀ a ∈ actions, a.2 = .swap ∨ a.2 = .dca) → executeAll e s actions = .ok (s', trades) →
      equityAt e s' =
        equityAt e s - (trades.map (cost e)).sum + (trades.map (parGain e)).sum := by
  refine ⟨fun e s s' b kind t hkind h => ?_, fun config feed tokens cfg g e s s' b kind t htick
    hkind h hpar hslippage hprice => ?_, fun e s s' actions trades hkinds h =>
    executeAll_equity hkinds h⟩
  · obtain ⟨terms, hswapped⟩ := execute_swapped hkind h
    have hequity := hswapped.equity
    rw [cost, ← sub_sub] at hequity
    refine ⟨hequity, fun hpar => ?_⟩
    rw [hequity, hpar.parGain_eq_zero, add_zero]
  · obtain ⟨terms, hswapped⟩ := execute_swapped hkind h
    have hgas := PriceSeries.build_gas_nonneg config feed tokens cfg g e.tick htick
    have hcost := hswapped.cost_nonneg hgas hprice hslippage
    rw [hswapped.equity, hpar.parGain_eq_zero, add_zero]
    exact sub_le_self _ hcost

/-- A pair of tokens: the quote token costs two at first and one an hour later. -/
def pairFeed (last : Float) : PriceFeed := fun token =>
  Backtest.twoBars (if token = "USDT" then 1 else last) token

def dearTick : PriceTick Rat := ⟨⟨63844848000000000⟩, [("TON", 2), ("USDT", 2)], 0, 5 / 10 ^ 2⟩

def parTick (price : Rat) : PriceTick Rat :=
  ⟨⟨63844851600000000⟩, [("TON", price), ("USDT", 1)], 0, 5 / 10 ^ 2⟩

theorem build_pairFeed (config : EngineConfig) (last : Float) (g : Random.Generator) :
    (PriceSeries.build config (some (pairFeed last)) ["TON", "USDT"] Backtest.twoHours g).1 =
      [dearTick, parTick (Double.exact last)] := by
  have hone : Double.exact 1 = 1 := by decide +kernel
  have htwo : Double.exact 2 = 2 := by decide +kernel
  have hzero : Double.exact 0 = 0 := by decide +kernel
  have hhistorical : PriceSeries.historical (pairFeed last) ["TON", "USDT"] Backtest.twoHours =
      [dearTick, parTick (Double.exact last)] := by
    simp only [PriceSeries.historical, PriceSeries.fetch, pairFeed, Backtest.bars?_twoBars]
    simp only [Assoc.set, if_neg (show ¬ "TON" = "USDT" by decide), if_true, PriceSeries.join,
      PriceSeries.heads?, List.length, Option.map_some, PriceSeries.historicalTick, List.map_cons,
      List.map_nil, Scalar.ofFloat, hone, htwo, hzero]
    rfl
  rw [Backtest.build_historical rfl (by rw [hhistorical]; exact List.cons_ne_nil _ _), hhistorical]

/-- Swaps all of one token for another, at a slippage of up to a percent. -/
def swapAll (source target : String) : Block :=
  { id := "b", category := .action, name := "", type := none, description := "",
    version := "1.0.0", position := .origin, inputs := [], outputs := [], enabled := true,
    actionKind := none, metadata := [],
    config := [("fromToken", .str source), ("toToken", .str target), ("amountType", .str "all")] }

def hundred : State Rat := (Backtest.State.start 100 (.ofSeed ⟨7, []⟩)).action

def pairSetup (tick : PriceTick Rat) : Setup Rat := ⟨"USDT", [("TON", -1)], tick⟩

/-- A swap makes a trade after which a test succeeds. -/
def swapPasses (e : Setup Rat) (s : State Rat) (b : Block)
    (test : State Rat → Trade Rat → Bool) : Bool :=
  match execute e s b .swap with
  | .ok (s', some t) => test s' t
  | _ => false

theorem exists_of_swapPasses {b : Block} {test : State Rat → Trade Rat → Bool}
    (h : swapPasses e s b test = true) :
    ∃ s' t, execute e s b .swap = .ok (s', some t) ∧ test s' t = true := by
  unfold swapPasses at h
  split at h
  case h_1 s' t hexecute => exact ⟨s', t, hexecute, h⟩
  · cases h

/-- At the first tick the quote token costs two, and all capital is swapped: equity rises, and by no
means falls by slippage and gas. At the second it costs one, but the other token has fallen to a
default price below zero, and equity rises again when that token is swapped back. -/
theorem dear_quote_or_negative_price_creates_value :
    [dearTick, parTick 0] = (PriceSeries.build .standard (some (pairFeed 0)) ["TON", "USDT"]
        Backtest.twoHours (.ofSeed ⟨7, []⟩)).1 ∧
    ∃ s t s' t',
      execute (pairSetup dearTick) hundred (swapAll "USDT" "TON") .swap = .ok (s, some t) ∧
      execute (pairSetup (parTick 0)) s (swapAll "TON" "USDT") .swap = .ok (s', some t') ∧
      0 ≤ t.slippage ∧ 0 ≤ t'.slippage ∧ AtPar (pairSetup (parTick 0)) t' ∧
      equityAt (pairSetup dearTick) hundred < equityAt (pairSetup dearTick) s ∧
      equityAt (pairSetup dearTick) s ≠ equityAt (pairSetup dearTick) hundred -
        t.fromAmount * dearTick.priceOf [("TON", -1)] t.fromToken * (t.slippage / 100) -
        dearTick.gasPrice ∧
      equityAt (pairSetup (parTick 0)) s < equityAt (pairSetup (parTick 0)) s' := by
  have hseries := build_pairFeed .standard 0 (.ofSeed ⟨7, []⟩)
  rw [show Double.exact 0 = 0 by decide +kernel] at hseries
  obtain ⟨s, t, hbuy, htest⟩ : ∃ s t,
      execute (pairSetup dearTick) hundred (swapAll "USDT" "TON") .swap = .ok (s, some t) ∧
      (decide (0 ≤ t.slippage ∧
        equityAt (pairSetup dearTick) hundred < equityAt (pairSetup dearTick) s ∧
        equityAt (pairSetup dearTick) s ≠ equityAt (pairSetup dearTick) hundred -
          t.fromAmount * dearTick.priceOf [("TON", -1)] t.fromToken * (t.slippage / 100) -
          dearTick.gasPrice) &&
        swapPasses (pairSetup (parTick 0)) s (swapAll "TON" "USDT") fun s' t' =>
          decide (0 ≤ t'.slippage ∧
            equityAt (pairSetup (parTick 0)) s < equityAt (pairSetup (parTick 0)) s')) = true :=
    exists_of_swapPasses (by decide +kernel)
  obtain ⟨hfirst, hsecond⟩ := Bool.and_eq_true_iff.1 htest
  obtain ⟨hslippage, hrise, hformula⟩ := of_decide_eq_true hfirst
  obtain ⟨s', t', hsell, hsecond⟩ := exists_of_swapPasses hsecond
  obtain ⟨hslippage', hrise'⟩ := of_decide_eq_true hsecond
  exact ⟨hseries.symm, s, t, s', t', hbuy, hsell, hslippage, hslippage', .inl (by decide +kernel),
    hrise, hformula, hrise'⟩

/-- The second hour of a pair whose other token costs three. -/
def parSetup : Setup Rat := pairSetup (parTick (Double.exact 3))

/-- With the quote token at one, a swap of all capital costs its slippage and its gas. -/
theorem hundred_at_par :
    ∃ s t, execute parSetup hundred (swapAll "USDT" "TON") .swap = .ok (s, some t) ∧
      0 < t.slippage ∧
      equityAt parSetup s = 100 - 100 * (t.slippage / 100) - 5 / 10 ^ 2 ∧
      equityAt parSetup s ≤ 100 ∧
      equityAt parSetup s =
        100 - ([t].map (cost parSetup)).sum + ([t].map (parGain parSetup)).sum := by
  obtain ⟨s, t, hbuy, htest⟩ : ∃ s t,
      execute parSetup hundred (swapAll "USDT" "TON") .swap = .ok (s, some t) ∧
      decide (0 < t.slippage ∧ t.fromAmount = 100 ∧ t.fromToken = "USDT") = true :=
    exists_of_swapPasses (by decide +kernel)
  obtain ⟨hslippage, hamount, hfrom⟩ := of_decide_eq_true htest
  have hprice : parSetup.tick.priceOf parSetup.defaults "USDT" = 1 := by decide +kernel
  have hhundred : equityAt parSetup hundred = 100 := by decide +kernel
  have hmember : parSetup.tick ∈ (PriceSeries.build .standard (some (pairFeed 3))
      ["TON", "USDT"] Backtest.twoHours (.ofSeed ⟨7, []⟩)).1 := by
    rw [build_pairFeed]
    exact List.mem_cons_of_mem _ (List.mem_singleton.2 rfl)
  have hall : executeAll parSetup hundred [(swapAll "USDT" "TON", .swap)] = .ok (s, [t]) := by
    rw [executeAll, hbuy]
    rfl
  obtain ⟨hone, hseries, htick⟩ := swap_costs_slippage_and_gas
  have hcost := (hone _ _ _ _ _ _ (.inl rfl) hbuy).2 (.inl hprice)
  have hfall := hseries _ _ _ _ _ _ _ _ _ _ _ hmember (.inl rfl) hbuy (.inl hprice) hslippage.le
    (by rw [hfrom]; exact hprice ▸ zero_le_one)
  have hsum := htick _ _ _ _ _ (fun a ha => List.mem_singleton.1 ha ▸ .inl rfl) hall
  rw [hamount, hfrom, hhundred, hprice, mul_one] at hcost
  rw [hhundred] at hfall hsum
  exact ⟨s, t, hbuy, hslippage, hcost, hfall, hsum⟩

end Action

end Tradeflow
