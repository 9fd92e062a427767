/-
  The books of a run. `Ledger.post` enters a trade into a ledger by what the trade says alone: a
  debit, a credit, and the gas. `Accounts` says that trades lead from one state of the actions to
  another: the ledger is the old one with the trades entered in order, and every trade carries the
  running sum of gains. One trade keeps accounts, and accounts of one tick after the other are
  accounts of all.
  `run_keeps_books`: after any number of ticks the ledger is the starting capital with all trades
  so far entered, equity is that ledger at the prices of the tick, and nothing else has changed a
  balance.
-/
import Tradeflow.Number.Sum
import Tradeflow.Proofs.Backtest.Trace
import Tradeflow.Proofs.Number.SignedZero

namespace Tradeflow

/-! ## Entering a trade -/

namespace Ledger

/-- Takes out of a token. The quote token stands for the capital. -/
def debit (quote : String) (l : Ledger Float) (token : String) (amount : Float) : Ledger Float :=
  if token = quote then ⟨l.capital - amount, l.positions⟩
  else ⟨l.capital, l.positions.set token ((Assoc.get? l.positions token).getD 0 - amount)⟩

/-- Puts into a token. -/
def credit (quote : String) (l : Ledger Float) (token : String) (amount : Float) : Ledger Float :=
  if token = quote then ⟨l.capital + amount, l.positions⟩
  else ⟨l.capital, l.positions.set token ((Assoc.get? l.positions token).getD 0 + amount)⟩

/-- Enters a trade: a debit, a credit, and the gas out of the capital. -/
def post (quote : String) (l : Ledger Float) (t : Trade Float) : Ledger Float :=
  let moved := (l.debit quote t.fromToken t.fromAmount).credit quote t.toToken t.toAmount
  ⟨moved.capital - t.gas, moved.positions⟩

theorem credit_eq_add (quote : String) (l : Ledger Float) (token : String) (amount : Float) :
    l.credit quote token amount = l.add quote token amount := rfl

theorem debit_eq_add (quote : String) (l : Ledger Float) (token : String) (amount : Float) :
    l.debit quote token amount = l.add quote token (-amount) := by
  rw [debit, Double.sub_eq_add_neg, Double.sub_eq_add_neg]
  rfl

theorem exchange_eq_post (quote : String) (l : Ledger Float) (t : Trade Float) :
    l.exchange quote t.fromToken t.toToken t.fromAmount t.toAmount t.gas = l.post quote t := by
  rw [post, debit_eq_add, credit_eq_add]
  rfl

theorem equity_eq_sum (defaults : Assoc Float) (tick : PriceTick Float) (l : Ledger Float) :
    l.equity defaults tick =
      Sum.plain l.capital (l.positions.map fun p => p.2 * tick.priceOf defaults p.1) := by
  rw [equity, Sum.plain, List.foldl_map]

end Ledger

namespace Sum

theorem plain_append (start : Float) (xs ys : List Float) :
    plain start (xs ++ ys) = plain (plain start xs) ys := List.foldl_append

theorem not_isNegZero_plain {start : Float} (xs : List Float) (h : ¬ Double.IsNegZero start) :
    ¬ Double.IsNegZero (plain start xs) := by
  induction xs generalizing start with
  | nil => exact h
  | cons x xs ih => exact ih (Double.not_isNegZero_add x h)

end Sum

/-! ## Accounts of trades -/

namespace Action

/-- Trades lead from one state to another. -/
structure Accounts (quote : String) (s : State Float) (trades : List (Trade Float))
    (s' : State Float) : Prop where
  ledger : s'.ledger = trades.foldl (Ledger.post quote) s.ledger
  total : s'.cumPnl = Sum.plain s.cumPnl (trades.map (·.pnl))
  sums : ∀ n (hn : n < trades.length),
    trades[n].cumPnl = Sum.plain s.cumPnl ((trades.take (n + 1)).map (·.pnl))

namespace Accounts

variable {quote : String} {s s' s'' : State Float} {trades later : List (Trade Float)}

theorem nil (s : State Float) : Accounts quote s [] s where
  ledger := rfl
  total := rfl
  sums := fun _ hn => absurd hn (Nat.not_lt_zero _)

theorem append (h : Accounts quote s trades s') (h' : Accounts quote s' later s'') :
    Accounts quote s (trades ++ later) s'' where
  ledger := by rw [List.foldl_append, ← h.ledger, h'.ledger]
  total := by rw [List.map_append, Sum.plain_append, ← h.total, h'.total]
  sums := by
    intro n hn
    rcases Nat.lt_or_ge n trades.length with hlt | hge
    · rw [List.getElem_append_left hlt, List.take_append_of_le_length hlt]
      exact h.sums n hlt
    · have hn' : n - trades.length < later.length := by
        rw [List.length_append] at hn
        omega
      have htake : (trades ++ later).take (n + 1) =
          trades ++ later.take (n - trades.length + 1) := by
        rw [List.take_append, List.take_of_length_le (by omega)]
        congr 2
        omega
      rw [List.getElem_append_right hge, htake, List.map_append, Sum.plain_append, ← h.total]
      exact h'.sums (n - trades.length) hn'

theorem not_isNegZero (h : Accounts quote s trades s') (hs : ¬ Double.IsNegZero s.cumPnl) :
    ¬ Double.IsNegZero s'.cumPnl := by
  rw [h.total]
  exact Sum.not_isNegZero_plain _ hs

end Accounts

/-- A trade keeps accounts. If it has no gain, none is added, which is as good as adding zero. -/
theorem Posted.accounts {e : Setup Float} {s s' : State Float} {t : Trade Float}
    (h : Posted e s t s') (hs : ¬ Double.IsNegZero s.cumPnl) : Accounts e.quote s [t] s' := by
  have hsum : s'.cumPnl = s.cumPnl + t.pnl := by
    rcases h.sum with hsum | ⟨hzero, hsame⟩
    · exact hsum
    · rw [hsame, hzero]
      exact (Double.add_zero hs).symm
  exact
    { ledger := by rw [h.ledger, Ledger.exchange_eq_post]; rfl
      total := hsum
      sums := by
        intro n hn
        have hzero : n = 0 := Nat.lt_one_iff.1 hn
        subst hzero
        exact h.cumPnl.trans hsum }

theorem Recorded.accounts {e : Setup Float} {s s' : State Float} {trades : List (Trade Float)}
    (h : Recorded e s trades s') (hs : ¬ Double.IsNegZero s.cumPnl) :
    Accounts e.quote s trades s' := by
  induction h with
  | nil s => exact .nil s
  | @cons s s' s'' t trades first rest ih =>
    have hfirst := first.accounts hs
    exact hfirst.append (ih (hfirst.not_isNegZero hs))

end Action

/-! ## The books of a run -/

namespace Backtest

/-- The trades that some ticks left behind, in order. -/
def tradesOf (steps : List (Step Float)) : List (Trade Float) := steps.flatMap (·.trades)

/-- The ledger of trades that were entered into the starting capital. -/
def bookedLedger (quote : String) (capital : Float) (trades : List (Trade Float)) : Ledger Float :=
  trades.foldl (Ledger.post quote) ⟨capital, []⟩

/-- The worth of a ledger at the prices of a tick: its capital, and every position at its price. -/
def worth (defaults : Assoc Float) (tick : PriceTick Float) (l : Ledger Float) : Float :=
  Sum.plain l.capital (l.positions.map fun p => p.2 * tick.priceOf defaults p.1)

/-- After some ticks the books are in order. -/
structure Books (config : EngineConfig) (capital : Float) (ticks : List (PriceTick Float))
    (steps : List (Step Float)) (s : State Float) : Prop where
  length : steps.length = ticks.length
  ledger : s.action.ledger = bookedLedger config.quoteToken capital (tradesOf steps)
  equity : ∀ i (hi : i < steps.length) (ht : i < ticks.length),
    steps[i].equity = ⟨ticks[i].timestamp, worth config.defaultPrices ticks[i]
      (bookedLedger config.quoteToken capital (tradesOf (steps.take (i + 1))))⟩
  gains : ∀ n (hn : n < (tradesOf steps).length),
    (tradesOf steps)[n].cumPnl = Sum.plain 0 (((tradesOf steps).take (n + 1)).map (·.pnl))

variable {config : EngineConfig} {plan : Plan} {s s' : State Float} {t : PriceTick Float}
  {step : Step Float} {ticks : List (PriceTick Float)} {steps : List (Step Float)}

theorem tick_accounts (h : tick config plan s t = .ok (s', step))
    (hs : ¬ Double.IsNegZero s.action.cumPnl) :
    Action.Accounts config.quoteToken s.action step.trades s'.action := by
  obtain ⟨fired, hticked⟩ := tick_cases h
  exact hticked.recorded.accounts hs

theorem Trace.accounts (h : Trace config plan s ticks steps s')
    (hs : ¬ Double.IsNegZero s.action.cumPnl) :
    Action.Accounts config.quoteToken s.action (tradesOf steps) s'.action := by
  induction h with
  | nil s => exact .nil s.action
  | @cons s s' s'' t step ticks steps first rest ih =>
    have hfirst := tick_accounts first hs
    exact hfirst.append (ih (hfirst.not_isNegZero hs))

/-- Equity after each tick is the worth of the ledger that the trades up to then lead to. -/
theorem Trace.equity (h : Trace config plan s ticks steps s')
    (hs : ¬ Double.IsNegZero s.action.cumPnl) (i : Nat) (hi : i < steps.length)
    (ht : i < ticks.length) :
    steps[i].equity = ⟨ticks[i].timestamp, worth config.defaultPrices ticks[i]
      ((tradesOf (steps.take (i + 1))).foldl (Ledger.post config.quoteToken) s.action.ledger)⟩ := by
  induction h generalizing i with
  | nil => exact absurd hi (Nat.not_lt_zero i)
  | @cons s s' s'' t step ticks steps first rest ih =>
    have hfirst := tick_accounts first hs
    cases i with
    | zero =>
      obtain ⟨fired, hticked⟩ := tick_cases first
      show step.equity = ⟨t.timestamp, worth config.defaultPrices t
        ((step.trades ++ []).foldl (Ledger.post config.quoteToken) s.action.ledger)⟩
      rw [List.append_nil, ← hfirst.ledger, hticked.equity, Ledger.equity_eq_sum]
      rfl
    | succ i =>
      have hi : i < steps.length := Nat.lt_of_succ_lt_succ hi
      have ht : i < ticks.length := Nat.lt_of_succ_lt_succ ht
      show steps[i].equity = ⟨ticks[i].timestamp, worth config.defaultPrices ticks[i]
        ((step.trades ++ tradesOf (steps.take (i + 1))).foldl (Ledger.post config.quoteToken)
          s.action.ledger)⟩
      rw [List.foldl_append, ← hfirst.ledger]
      exact ih (hfirst.not_isNegZero hs) i hi ht

theorem Trace.books {capital : Float} {g : Random.Generator}
    (h : Trace config plan (State.start capital g) ticks steps s) :
    Books config capital ticks steps s := by
  have haccounts := h.accounts Double.not_isNegZero_zero
  exact
    { length := h.length_eq
      ledger := haccounts.ledger
      equity := h.equity Double.not_isNegZero_zero
      gains := haccounts.sums }

/-- Whatever the plan, the ticks and the random numbers, the books are in order after any number of
ticks; and what a run hands out is what the ticks of its market left behind, with the books in order
after each. -/
theorem run_keeps_books :
    (∀ (config : EngineConfig) (plan : Plan) (capital : Float) (g : Random.Generator)
      (ticks : List (PriceTick Float)) (steps : List (Step Float)) (s : State Float),
      Trace config plan (State.start capital g) ticks steps s →
      Books config capital ticks steps s) ∧
    ∀ (sim : Simulator) (watch : Watch) (entropy : Nat) (strategy : Strategy)
      (cfg : SimulationConfig) (outcome : Outcome Float),
      run Float sim watch entropy strategy cfg = .ok outcome →
      ∃ (seeded g : Random.Generator) (ticks : List (PriceTick Float)) (steps : List (Step Float)),
        generatorOf cfg entropy = .ok seeded ∧ marketOf sim strategy cfg seeded = (ticks, g) ∧
        outcome.trades = tradesOf steps ∧ outcome.equityCurve = steps.map (·.equity) ∧
        ∀ n ≤ steps.length, ∃ s,
          Trace sim.config (strategy.plan sim.catalog sim.config.quoteToken)
            (State.start cfg.initialCapital g) (ticks.take n) (steps.take n) s ∧
          Books sim.config cfg.initialCapital (ticks.take n) (steps.take n) s := by
  constructor
  · intro config plan capital g ticks steps s h
    exact h.books
  · intro sim watch entropy strategy cfg outcome h
    obtain ⟨seeded, ticks, g, p, hseeded, hmarket, hreplay, rfl⟩ := run_cases h
    obtain ⟨hle, htrace⟩ := trace_of_replay hreplay
    refine ⟨seeded, g, ticks, p.steps, hseeded, hmarket, rfl, rfl, fun n hn => ?_⟩
    obtain ⟨s, hfirst⟩ := htrace.take n
    rw [List.take_take, Nat.min_eq_left hn] at hfirst
    exact ⟨s, hfirst, hfirst.books⟩

/-- A schedule, and a swap of a tenth of the capital. -/
def tenthPlan : Plan :=
  let block : Block :=
    { id := "b", category := .trigger, name := "", type := none, description := "",
      version := "1.0.0", config := [], position := .origin, inputs := [], outputs := [],
      enabled := true, actionKind := none, metadata := [] }
  ⟨[(block, .schedule)], [(block, .swap)], ["TON"]⟩

def firstTick : PriceTick Float := ⟨⟨0⟩, [("TON", 2.5), ("USDT", 1)], 0, 0.05⟩

/-- Its first tick makes a trade, and the books are in order after it. -/
theorem tenthPlan_books :
    ∃ (steps : List (Step Float)) (s : State Float),
      Trace .standard tenthPlan (State.start 1000 (.ofSeed ⟨7, []⟩)) [firstTick] steps s ∧
      (tradesOf steps).length = 1 ∧ Books .standard 1000 [firstTick] steps s := by
  have htrades : ((tick .standard tenthPlan (State.start 1000 (.ofSeed ⟨7, []⟩))
      firstTick).map (·.2.trades.length)).toOption = some 1 := by
    decide +kernel
  cases hfirst : tick .standard tenthPlan (State.start 1000 (.ofSeed ⟨7, []⟩)) firstTick with
  | error e =>
    rw [hfirst] at htrades
    cases htrades
  | ok r =>
    obtain ⟨s, step⟩ := r
    rw [hfirst] at htrades
    have hone : step.trades.length = 1 := Option.some.inj htrades
    have htrace := Trace.cons hfirst (.nil s)
    refine ⟨[step], s, htrace, ?_, run_keeps_books.1 _ _ _ _ _ _ _ htrace⟩
    rw [tradesOf, List.flatMap_cons, List.flatMap_nil, List.append_nil, hone]

end Backtest

end Tradeflow
