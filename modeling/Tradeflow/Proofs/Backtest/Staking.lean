/-
  What staking does to equity, in exact arithmetic. As much comes out of a move to a staked holding or
  back as goes in, so it changes equity by its gas, by what the two names are priced more or less than
  one another, and by what the quote token counts more or less than its price (`Staked.equity`).

  A holding is meant to be priced by what is staked. So it is at a tick that has no price of its own for
  it, if the token is no holding itself or has a price there (`Setup.Backed`, `priceOf_stakedName`), as
  at every tick of a synthetic market (`backed_synthetic`). Where the tick quotes the holding, or a
  holding without a price is staked once more, the two names are priced apart; `stake_costs_gas` says
  nothing about that.
  `stake_costs_gas`: at a tick that backs the token, staking costs its gas and nothing else, but for
  what the quote token counts.
-/
import Tradeflow.Proofs.Backtest.Value
import Tradeflow.Proofs.Market.Prices

namespace Tradeflow

namespace Action

variable {e : Setup Rat} {s s' : State Rat} {t : Trade Rat} {b : Block} {kind : ActionKind}

/-! ## One move -/

/-- The token that a block stakes. -/
def stakedToken (b : Block) : String := Setting.textOr "TON" (b.setting? "token")

/-- What a move between a token and its staked holding gains by their prices. -/
def stakeGain (e : Setup Rat) (t : Trade Rat) : Rat :=
  t.fromAmount * (e.tick.priceOf e.defaults t.toToken - e.tick.priceOf e.defaults t.fromToken)

theorem Staked.equity {back : Bool} (h : Staked e s back b t s') :
    equityAt e s' = equityAt e s - e.tick.gasPrice + stakeGain e t + parGain e t := by
  rw [h.posted.equity, h.received, stakeGain]
  ring

/-- An action that stakes and made a trade moved a token to its staked holding or back. -/
theorem execute_staked (hkind : kind = .stake ∨ kind = .unstake)
    (h : execute e s b kind = .ok (s', some t)) : ∃ back, Staked e s back b t s' := by
  rcases execute_made h with ⟨hswaps, -⟩ | ⟨-, hstaked⟩
  · rcases hkind with rfl | rfl <;> simp at hswaps
  · exact hstaked

/-- Stakes all of a token, or takes it out again. -/
def stakeAll (token : String) : Block :=
  { swapAll token token with config := [("token", .str token), ("amountType", .str "all")] }

/-- By how much an action that makes a trade changes equity. -/
def equityChange? (e : Setup Rat) (s : State Rat) (b : Block) (kind : ActionKind) : Option Rat :=
  match execute e s b kind with
  | .ok (s', some _) => some (equityAt e s' - equityAt e s)
  | _ => none

theorem exists_of_equityChange {x : Rat} (h : equityChange? e s b kind = some x) :
    ∃ s' t, execute e s b kind = .ok (s', some t) ∧ equityAt e s' = equityAt e s + x := by
  unfold equityChange? at h
  split at h
  case h_1 s' t hexecute =>
    refine ⟨s', t, hexecute, ?_⟩
    rw [← Option.some.inj h, add_sub_cancel]
  · cases h

/-- The quote token costs one, and its staked holding is quoted at three. -/
def quotedTick : PriceTick Rat :=
  ⟨⟨63844848000000000⟩, [("USDT", 1), ("staked_USDT", 3)], 0, 5 / 10 ^ 2⟩

/-- The quote for a holding goes before the price of what is staked. -/
example : equityChange? (pairSetup quotedTick) hundred (stakeAll "USDT") .stake =
    some (100 * (3 - 1) - 5 / 10 ^ 2) := by decide +kernel

def holding : State Rat := { hundred with ledger := ⟨100, [("staked_TON", 20)]⟩ }

/-- A holding costs five, as its token does; staked once more it has only a default price, one. -/
example : equityChange? (pairSetup (parTick 5)) holding (stakeAll "staked_TON") .stake =
    some (20 * (1 - 5) - 5 / 10 ^ 2) := by decide +kernel

/-! ## Holdings priced by what is staked -/

/-- The tick prices the staked holding of a token by the token: it has no price for the holding, and
the token is no holding itself or has a price. -/
structure Setup.Backed (e : Setup Rat) (token : String) : Prop where
  rooted : e.tick.Rooted token
  unquoted : usable? (Assoc.get? e.tick.prices (stakedName token)) = none

theorem Staked.stakeGain_eq_zero {back : Bool} (h : Staked e s back b t s')
    (hbacked : e.Backed (stakedToken b)) : stakeGain e t = 0 := by
  have hprice := priceOf_stakedName hbacked.rooted hbacked.unquoted e.defaults
  have hsource : t.fromToken = if back then stakedName (stakedToken b) else stakedToken b := h.source
  have htarget : t.toToken = if back then stakedToken b else stakedName (stakedToken b) := h.target
  rw [stakeGain, hsource, htarget]
  cases back with
  | true => rw [if_pos rfl, if_pos rfl, hprice, sub_self, mul_zero]
  | false => rw [if_neg nofun, if_neg nofun, hprice, sub_self, mul_zero]

theorem execute_backed (hkind : kind = .stake ∨ kind = .unstake) (hbacked : e.Backed (stakedToken b))
    (h : execute e s b kind = .ok (s', some t)) :
    equityAt e s' = equityAt e s - e.tick.gasPrice + parGain e t := by
  obtain ⟨back, hstaked⟩ := execute_staked hkind h
  rw [hstaked.equity, hstaked.stakeGain_eq_zero hbacked, add_zero]

end Action

namespace PriceSeries

/-- A synthetic market prices four tokens. -/
theorem build_prices {config : EngineConfig} {feed : Option PriceFeed} {tokens : List String}
    {cfg : SimulationConfig} {g : Random.Generator} (hsource : cfg.priceDataSource = .synthetic) :
    ∀ t ∈ (build (R := Rat) config feed tokens cfg g).1, ∃ p, t.prices =
      [("TON", p), ("USDT", Scalar.nat 1), ("USDC", Scalar.nat 1), ("ETH", p * Scalar.nat 500)] := by
  intro t ht
  unfold build at ht
  rw [hsource] at ht
  obtain ⟨_, p, _, rfl⟩ := exists_of_mem_synthetic ht
  exact ⟨p, rfl⟩

end PriceSeries

namespace Action

variable {e : Setup Rat} {config : EngineConfig} {feed : Option PriceFeed} {tokens : List String}
  {cfg : SimulationConfig} {g : Random.Generator}

/-- None of the four is a staked holding. -/
theorem backed_synthetic (hsource : cfg.priceDataSource = .synthetic)
    (htick : e.tick ∈ (PriceSeries.build config feed tokens cfg g).1) {token : String}
    (htoken : underlying token = token) : e.Backed token := by
  obtain ⟨p, hprices⟩ := PriceSeries.build_prices hsource e.tick htick
  refine ⟨.inl htoken, ?_⟩
  rw [hprices, get?_synthetic_stakedName]
  rfl

/-- Two of the four cost one. -/
theorem atPar_synthetic (hsource : cfg.priceDataSource = .synthetic)
    (htick : e.tick ∈ (PriceSeries.build config feed tokens cfg g).1)
    (hquote : e.quote = "USDT" ∨ e.quote = "USDC") (t : Trade Rat) : AtPar e t := by
  obtain ⟨p, hprices⟩ := PriceSeries.build_prices hsource e.tick htick
  refine .inl ?_
  rw [PriceTick.priceOf, hprices]
  rcases hquote with hquote | hquote
  all_goals
    rw [hquote]
    rfl

/-! ## All moves -/

/-- At a tick that backs the token, a move to a staked holding or back changes equity by its gas and by
what the quote token counts more or less than its price, which is nothing at par. The moves of a tick
together cost the gas of each of them. At every tick of a synthetic market a move of a token that is no
holding itself costs its gas. -/
theorem stake_costs_gas :
    (∀ (e : Setup Rat) (s s' : State Rat) (b : Block) (kind : ActionKind) (t : Trade Rat),
      kind = .stake ∨ kind = .unstake → e.Backed (stakedToken b) →
      execute e s b kind = .ok (s', some t) →
      equityAt e s' = equityAt e s - e.tick.gasPrice + parGain e t ∧
      (AtPar e t → equityAt e s' = equityAt e s - e.tick.gasPrice)) ∧
    (∀ (e : Setup Rat) (s s' : State Rat) (actions : List (Block × ActionKind))
      (trades : List (Trade Rat)),
      (∀ a ∈ actions, (a.2 = .stake ∨ a.2 = .unstake) ∧ e.Backed (stakedToken a.1)) →
      executeAll e s actions = .ok (s', trades) →
      equityAt e s' =
        equityAt e s - trades.length * e.tick.gasPrice + (trades.map (parGain e)).sum) ∧
    ∀ (config : EngineConfig) (feed : Option PriceFeed) (tokens : List String)
      (cfg : SimulationConfig) (g : Random.Generator) (e : Setup Rat) (s s' : State Rat) (b : Block)
      (kind : ActionKind) (t : Trade Rat),
      cfg.priceDataSource = .synthetic →
      e.tick ∈ (PriceSeries.build config feed tokens cfg g).1 →
      e.quote = "USDT" ∨ e.quote = "USDC" → underlying (stakedToken b) = stakedToken b →
      kind = .stake ∨ kind = .unstake → execute e s b kind = .ok (s', some t) →
      equityAt e s' = equityAt e s - e.tick.gasPrice := by
  refine ⟨fun e s s' b kind t hkind hbacked h => ⟨execute_backed hkind hbacked h, fun hpar => ?_⟩,
    fun e s s' actions trades hactions h => ?_,
    fun config feed tokens cfg g e s s' b kind t hsource htick hquote htoken hkind h => ?_⟩
  · rw [execute_backed hkind hbacked h, hpar.parGain_eq_zero, add_zero]
  · have hchange : equityAt e s' =
        equityAt e s + (trades.map fun t => -e.tick.gasPrice + parGain e t).sum := by
      refine executeAll_change (fun s s' b kind t hmem hdone => ?_) h
      obtain ⟨hkind, hbacked⟩ := hactions _ hmem
      rw [execute_backed hkind hbacked hdone, sub_eq_add_neg, add_assoc]
    rw [hchange, List.sum_map_add, List.map_const', List.sum_replicate, nsmul_eq_mul, mul_neg,
      ← add_assoc, ← sub_eq_add_neg]
  · rw [execute_backed hkind (backed_synthetic hsource htick htoken) h,
      (atPar_synthetic hsource htick hquote t).parGain_eq_zero, add_zero]

/-- Equity rises when all capital is staked while the quote token costs two: what was counted as it is
is now counted at its price. -/
theorem dear_quote_creates_value :
    dearTick ∈ (PriceSeries.build .standard (some (pairFeed 0)) ["TON", "USDT"]
        Backtest.twoHours (.ofSeed ⟨7, []⟩)).1 ∧
    (pairSetup dearTick).Backed "USDT" ∧
    ∃ s t, execute (pairSetup dearTick) hundred (stakeAll "USDT") .stake = .ok (s, some t) ∧
      equityAt (pairSetup dearTick) hundred < equityAt (pairSetup dearTick) s ∧
      equityAt (pairSetup dearTick) s ≠ equityAt (pairSetup dearTick) hundred - dearTick.gasPrice := by
  have hchange : equityChange? (pairSetup dearTick) hundred (stakeAll "USDT") .stake =
      some (100 - 5 / 10 ^ 2) := by decide +kernel
  obtain ⟨s, t, hexecute, hequity⟩ := exists_of_equityChange hchange
  have hrise : equityAt (pairSetup dearTick) hundred < equityAt (pairSetup dearTick) s := by
    rw [hequity]
    exact lt_add_of_pos_right _ (by norm_num)
  have hgas : 0 ≤ dearTick.gasPrice := by decide +kernel
  refine ⟨?_, ⟨.inl (by decide), by decide +kernel⟩, s, t, hexecute, hrise,
    ((sub_le_self _ hgas).trans_lt hrise).ne'⟩
  rw [build_pairFeed]
  exact List.mem_cons_self

/-- All capital is staked at par, is taken out again, and is staked in a synthetic market. -/
theorem hundred_staked :
    (∃ s t, execute parSetup hundred (stakeAll "USDT") .stake = .ok (s, some t) ∧
      AtPar parSetup t ∧ equityAt parSetup s = 100 - 5 / 10 ^ 2) ∧
    (∃ s trades, executeAll parSetup hundred
        [(stakeAll "USDT", .stake), (stakeAll "USDT", .unstake)] = .ok (s, trades) ∧
      trades.length = 2 ∧
      equityAt parSetup s = 100 - 2 * (5 / 10 ^ 2) + (trades.map (parGain parSetup)).sum) ∧
    ∃ tick ∈ (PriceSeries.build .standard none [] Backtest.syntheticHours (.ofSeed ⟨7, []⟩)).1,
      ∃ s t,
      execute (pairSetup tick) hundred (stakeAll "USDT") .stake = .ok (s, some t) ∧
      equityAt (pairSetup tick) s = 100 - tick.gasPrice := by
  obtain ⟨hone, hall, hsynthetic⟩ := stake_costs_gas
  have hhundred : ∀ e, equityAt e hundred = 100 := fun _ => rfl
  have hbacked : parSetup.Backed "USDT" := ⟨.inl (by decide), by decide +kernel⟩
  refine ⟨?_, ?_, ?_⟩
  · have hmove : equityChange? parSetup hundred (stakeAll "USDT") .stake = some (-(5 / 10 ^ 2)) := by
      decide +kernel
    obtain ⟨s, t, hexecute, -⟩ := exists_of_equityChange hmove
    have hpar : AtPar parSetup t := .inl (by decide +kernel)
    have hcost := (hone _ _ _ _ _ _ (.inl rfl) hbacked hexecute).2 hpar
    rw [hhundred] at hcost
    exact ⟨s, t, hexecute, hpar, hcost⟩
  · obtain ⟨⟨s, trades⟩, hexecute, hlength⟩ : ∃ done, executeAll parSetup hundred
        [(stakeAll "USDT", .stake), (stakeAll "USDT", .unstake)] = .ok done ∧ done.2.length = 2 :=
      Except.exists_of_map (by decide +kernel)
    have hcost := hall _ _ _ _ _ (List.forall_mem_cons.2 ⟨⟨.inl rfl, hbacked⟩,
      List.forall_mem_singleton.2 ⟨.inr rfl, hbacked⟩⟩) hexecute
    rw [hhundred, hlength] at hcost
    exact ⟨s, trades, hexecute, hlength, hcost⟩
  · have hmoves : ((PriceSeries.build .standard none [] Backtest.syntheticHours
        (.ofSeed ⟨7, []⟩)).1.any fun tick =>
          (equityChange? (pairSetup tick) hundred (stakeAll "USDT") .stake).isSome) = true := by
      decide +kernel
    obtain ⟨tick, htick, hsome⟩ := List.any_eq_true.1 hmoves
    obtain ⟨x, hx⟩ := Option.isSome_iff_exists.1 hsome
    obtain ⟨s, t, hexecute, -⟩ := exists_of_equityChange hx
    have hcost := hsynthetic .standard none [] Backtest.syntheticHours (.ofSeed ⟨7, []⟩)
      (pairSetup tick) _ _ _ _ _ rfl htick (.inl rfl) (by decide) (.inl rfl) hexecute
    rw [hhundred] at hcost
    exact ⟨tick, htick, s, t, hexecute, hcost⟩

end Action

end Tradeflow
