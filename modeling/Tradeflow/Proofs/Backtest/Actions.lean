/-
  What an action can do. Either everything stays as it was and there is no trade, or there is one
  trade and the state moves on by what the trade says: `Swapped` and `Staked` say all of it for the
  two sorts of action, `Posted` what they have in common. The state after the actions of a tick is
  reached trade by trade (`Recorded`).
-/
import Tradeflow.Backtest.Action

namespace Tradeflow

namespace Action

variable {R : Type} [Scalar R] {e : Setup R} {s s' s'' : State R} {t : Trade R}

/-! ## The two sorts of action -/

/-- An amount is part of a balance that is not spent, and not nothing itself. -/
theorem part_cases {balance usual amount : R} {sizing : Sizing}
    (h : part balance usual sizing = .ok (some amount)) :
    Scalar.atMost balance (Scalar.nat 0) = false ∧ sizing.amountOf usual balance = .ok amount ∧
      Scalar.atMost amount (Scalar.nat 0) = false := by
  unfold part at h
  split at h
  · cases h
  case isFalse hbalance =>
    split at h
    · cases h
    case h_2 size hsize =>
      split at h
      · cases h
      case isFalse hpos =>
        obtain rfl := Option.some.inj (Except.ok.inj h)
        exact ⟨Bool.eq_false_iff.2 hbalance, hsize, Bool.eq_false_iff.2 hpos⟩

/-- A swap was executed. -/
structure Swapped (e : Setup R) (s : State R) (kind : ActionKind) (terms : SwapTerms) (t : Trade R)
    (s' : State R) : Prop where
  id : t.id = tradeId "trade" s.count
  kind : t.kind = kind
  source : t.fromToken = Setting.textOr e.quote terms.source
  target : t.toToken = Setting.textOr "TON" terms.target
  size : part (s.ledger.balance e.quote t.fromToken) (Scalar.nat 10) terms.sizing =
    .ok (some t.fromAmount)
  rate : Scalar.divide (e.tick.priceOf e.defaults t.fromToken)
    (e.tick.priceOf e.defaults t.toToken) = .ok t.price
  slippage : ∃ most, Setting.numberOr (Scalar.nat 1 : R) terms.maxSlippage = .ok most ∧
    t.slippage = Scalar.unit s.generator.nextUnit.1 * most / Scalar.nat 100 * Scalar.nat 100 ∧
    t.toAmount = t.fromAmount * t.price *
      (Scalar.nat 1 - Scalar.unit s.generator.nextUnit.1 * most / Scalar.nat 100)
  pnl : gain t.fromAmount (e.tick.priceOf e.defaults t.fromToken) t.toAmount
    (e.tick.priceOf e.defaults t.toToken) = .ok t.pnl
  timestamp : t.timestamp = e.tick.timestamp
  gas : t.gas = e.tick.gasPrice
  cumPnl : t.cumPnl = s.cumPnl + t.pnl
  state : s' = ⟨s.ledger.exchange e.quote t.fromToken t.toToken t.fromAmount t.toAmount t.gas,
    t.cumPnl, s.generator.nextUnit.2, s.count + 1⟩

theorem swap_cases {kind : ActionKind} {terms : SwapTerms} {trade : Option (Trade R)}
    (h : swap e s kind terms = .ok (s', trade)) :
    (trade = none ∧ s' = s) ∨ ∃ t, trade = some t ∧ Swapped e s kind terms t s' := by
  unfold swap at h
  dsimp only at h
  cases hsize : part (s.ledger.balance e.quote (Setting.textOr e.quote terms.source))
      (Scalar.nat 10) terms.sizing with
  | error f =>
    rw [hsize] at h
    cases h
  | ok size =>
    cases size with
    | none =>
      rw [hsize] at h
      cases h
      exact .inl ⟨rfl, rfl⟩
    | some amount =>
      rw [hsize] at h
      dsimp only at h
      split at h
      · cases h
      case h_2 most hmost =>
        split at h
        · cases h
        case h_2 rate hrate =>
          split at h
          · cases h
          case h_2 pnl hpnl =>
            cases h
            refine .inr ⟨_, rfl, ?_⟩
            exact
              { id := rfl
                kind := rfl
                source := rfl
                target := rfl
                size := hsize
                rate := hrate
                slippage := ⟨most, hmost, rfl, rfl⟩
                pnl := hpnl
                timestamp := rfl
                gas := rfl
                cumPnl := rfl
                state := rfl }

/-- A token was moved to its staked holding, or back. -/
structure Staked (e : Setup R) (s : State R) (back : Bool) (b : Block) (t : Trade R)
    (s' : State R) : Prop where
  id : t.id = tradeId (if back then "unstake" else "stake") s.count
  kind : t.kind = if back then .unstake else .stake
  source : t.fromToken = if back then stakedName (Setting.textOr "TON" (b.setting? "token"))
    else Setting.textOr "TON" (b.setting? "token")
  target : t.toToken = if back then Setting.textOr "TON" (b.setting? "token")
    else stakedName (Setting.textOr "TON" (b.setting? "token"))
  size : part (s.ledger.balance e.quote t.fromToken) (Scalar.nat 50)
    ⟨b.setting? "amountType", b.setting? "amount"⟩ = .ok (some t.fromAmount)
  received : t.toAmount = t.fromAmount
  price : t.price = Scalar.nat 1
  slippage : t.slippage = Scalar.nat 0
  pnl : t.pnl = Scalar.nat 0
  timestamp : t.timestamp = e.tick.timestamp
  gas : t.gas = e.tick.gasPrice
  cumPnl : t.cumPnl = s.cumPnl
  state : s' = ⟨s.ledger.exchange e.quote t.fromToken t.toToken t.fromAmount t.toAmount t.gas,
    s.cumPnl, s.generator, s.count + 1⟩

theorem stake_cases {back : Bool} {b : Block} {trade : Option (Trade R)}
    (h : stake e s back b = .ok (s', trade)) :
    (trade = none ∧ s' = s) ∨ ∃ t, trade = some t ∧ Staked e s back b t s' := by
  unfold stake at h
  dsimp only at h
  split at h
  · cases h
  · cases h
    exact .inl ⟨rfl, rfl⟩
  case h_3 amount hsize =>
    cases h
    refine .inr ⟨_, rfl, ?_⟩
    exact
      { id := rfl
        kind := rfl
        source := rfl
        target := rfl
        size := hsize
        received := rfl
        price := rfl
        slippage := rfl
        pnl := rfl
        timestamp := rfl
        gas := rfl
        cumPnl := rfl
        state := rfl }

theorem swap_made {kind : ActionKind} {terms : SwapTerms}
    (h : swap e s kind terms = .ok (s', some t)) : Swapped e s kind terms t s' := by
  rcases swap_cases h with ⟨hnone, -⟩ | ⟨t', htrade, hswapped⟩
  · cases hnone
  · obtain rfl := Option.some.inj htrade
    exact hswapped

theorem stake_made {back : Bool} {b : Block} (h : stake e s back b = .ok (s', some t)) :
    Staked e s back b t s' := by
  rcases stake_cases h with ⟨hnone, -⟩ | ⟨t', htrade, hstaked⟩
  · cases hnone
  · obtain rfl := Option.some.inj htrade
    exact hstaked

/-! ## What they have in common -/

/-- A trade and the state after it. A gain is added to the sum of gains; a trade without one leaves
the sum as it is. -/
structure Posted (e : Setup R) (s : State R) (t : Trade R) (s' : State R) : Prop where
  ledger : s'.ledger =
    s.ledger.exchange e.quote t.fromToken t.toToken t.fromAmount t.toAmount t.gas
  sum : s'.cumPnl = s.cumPnl + t.pnl ∨ t.pnl = Scalar.nat 0 ∧ s'.cumPnl = s.cumPnl
  cumPnl : t.cumPnl = s'.cumPnl
  timestamp : t.timestamp = e.tick.timestamp
  gas : t.gas = e.tick.gasPrice
  count : s'.count = s.count + 1

theorem Swapped.posted {kind : ActionKind} {terms : SwapTerms} (h : Swapped e s kind terms t s') :
    Posted e s t s' := by
  obtain rfl := h.state
  exact
    { ledger := rfl
      sum := .inl h.cumPnl
      cumPnl := rfl
      timestamp := h.timestamp
      gas := h.gas
      count := rfl }

theorem Staked.posted {back : Bool} {b : Block} (h : Staked e s back b t s') : Posted e s t s' := by
  obtain rfl := h.state
  exact
    { ledger := rfl
      sum := .inr ⟨h.pnl, rfl⟩
      cumPnl := h.cumPnl
      timestamp := h.timestamp
      gas := h.gas
      count := rfl }

theorem execute_cases {b : Block} {kind : ActionKind} {trade : Option (Trade R)}
    (h : execute e s b kind = .ok (s', trade)) :
    (trade = none ∧ s' = s) ∨ ∃ t, trade = some t ∧ Posted e s t s' := by
  have hswap : ∀ {kind terms}, swap e s kind terms = .ok (s', trade) →
      (trade = none ∧ s' = s) ∨ ∃ t, trade = some t ∧ Posted e s t s' := fun h =>
    (swap_cases h).imp_right fun ⟨t, ht, hswapped⟩ => ⟨t, ht, hswapped.posted⟩
  have hstake : ∀ {back}, stake e s back b = .ok (s', trade) →
      (trade = none ∧ s' = s) ∨ ∃ t, trade = some t ∧ Posted e s t s' := fun h =>
    (stake_cases h).imp_right fun ⟨t, ht, hstaked⟩ => ⟨t, ht, hstaked.posted⟩
  cases kind with
  | swap => exact hswap h
  | dca => exact hswap h
  | stake => exact hstake h
  | unstake => exact hstake h
  | transfer | provideLiquidity | removeLiquidity | rebalance | notification | other =>
    cases h
    exact .inl ⟨rfl, rfl⟩

/-- An action that made a trade was a swap on the slippage of its block, or a move to a staked holding
or back. -/
theorem execute_made {b : Block} {kind : ActionKind} (h : execute e s b kind = .ok (s', some t)) :
    (kind = .swap ∨ kind = .dca) ∧
        (∃ terms, terms.maxSlippage = b.setting? "maxSlippage" ∧ Swapped e s kind terms t s') ∨
      (kind = .stake ∨ kind = .unstake) ∧ ∃ back, Staked e s back b t s' := by
  cases kind with
  | swap => exact .inl ⟨.inl rfl, _, rfl, swap_made h⟩
  | dca => exact .inl ⟨.inr rfl, _, rfl, swap_made h⟩
  | stake => exact .inr ⟨.inl rfl, _, stake_made h⟩
  | unstake => exact .inr ⟨.inr rfl, _, stake_made h⟩
  | transfer | provideLiquidity | removeLiquidity | rebalance | notification | other => cases h

/-! ## The actions of a tick -/

/-- Trades made one after the other, and the state after them. -/
inductive Recorded (e : Setup R) : State R → List (Trade R) → State R → Prop where
  | nil (s : State R) : Recorded e s [] s
  | cons {s s' s'' : State R} {t : Trade R} {trades : List (Trade R)} (first : Posted e s t s')
      (rest : Recorded e s' trades s'') : Recorded e s (t :: trades) s''

/-- The first action is executed, and the others after it. -/
theorem executeAll_cons {b : Block} {kind : ActionKind} {actions : List (Block × ActionKind)}
    {trades : List (Trade R)} (h : executeAll e s ((b, kind) :: actions) = .ok (s', trades)) :
    ∃ s₁ trade rest, execute e s b kind = .ok (s₁, trade) ∧
      executeAll e s₁ actions = .ok (s', rest) ∧ trades = trade.toList ++ rest := by
  rw [executeAll] at h
  split at h
  · cases h
  case h_2 s₁ trade hfirst =>
    split at h
    · cases h
    case h_2 s₂ rest hrest =>
      cases h
      exact ⟨s₁, trade, rest, hfirst, hrest, rfl⟩

theorem recorded_executeAll {actions : List (Block × ActionKind)} {trades : List (Trade R)}
    (h : executeAll e s actions = .ok (s', trades)) : Recorded e s trades s' := by
  induction actions generalizing s trades with
  | nil =>
    cases h
    exact .nil _
  | cons action actions ih =>
    obtain ⟨s₁, trade, rest, hfirst, hrest, rfl⟩ := executeAll_cons h
    rcases execute_cases hfirst with ⟨rfl, rfl⟩ | ⟨t, rfl, hposted⟩
    · exact ih hrest
    · exact .cons hposted (ih hrest)

end Action

end Tradeflow
