/-
  What actions do to the ledger. A swap moves part of a balance into another token at the prices of the
  tick less a random slippage; a recurring order is a swap of a fixed amount; staking moves a balance
  to its staked holding and back at no price. Each pays the gas of the tick. An action without a balance
  or an amount does nothing.
-/
import Tradeflow.Backtest.Ledger
import Tradeflow.Backtest.Plan
import Tradeflow.Performance.Basic
import Tradeflow.Text.Basic

namespace Tradeflow

open Tradeflow.Random

namespace Action

variable {R : Type} [Scalar R]

/-- The settings that say how much is moved. -/
structure Sizing where
  mode : Option Json
  amount : Option Json

/-- How much of a balance is moved: a percentage, all of it, or a fixed amount; never more than all. -/
def Sizing.amountOf (s : Sizing) (usual balance : R) : Except Fault R :=
  match Setting.numberOr usual s.amount with
  | .error e => .error e
  | .ok amount =>
    .ok (if Setting.isWord "percentage" "percentage" s.mode then
        Scalar.smaller (balance * amount / Scalar.nat 100) balance
      else if Setting.isWord "percentage" "all" s.mode then balance
      else Scalar.smaller amount balance)

/-- The terms of a swap, as the settings of a block give them. -/
structure SwapTerms where
  source : Option Json
  target : Option Json
  sizing : Sizing
  maxSlippage : Option Json

def SwapTerms.ofSwap (b : Block) : SwapTerms where
  source := b.setting? "fromToken"
  target := b.setting? "toToken"
  sizing := ⟨b.setting? "amountType", b.setting? "amount"⟩
  maxSlippage := b.setting? "maxSlippage"

/-- A recurring order is a swap of a fixed amount; one to sell goes the other way. -/
def SwapTerms.ofRecurring (b : Block) : SwapTerms :=
  let sells := (b.setting? "direction").bind Json.text? == some "sell"
  let first := b.setting? "fromToken"
  let second := b.setting? "toToken"
  { source := if sells then second else first
    target := if sells then first else second
    sizing := ⟨some (.str "fixed"), b.setting? "amountPerOrder"⟩
    maxSlippage := b.setting? "maxSlippage" }

/-- What actions work on: the ledger, the sum of gains so far, the random numbers, and how many trades
there were. -/
structure State (R : Type) where
  ledger : Ledger R
  cumPnl : R
  generator : Generator
  count : Nat

/-- What every action of a tick is given. -/
structure Setup (R : Type) where
  quote : String
  defaults : Assoc Float
  tick : PriceTick R

/-- The id of a trade: a word and its number in the run. -/
def tradeId (word : String) (count : Nat) : String :=
  word ++ "_" ++ String.ofList (Text.hexPadded 12 count)

/-- Part of a balance, if there is any. -/
def part (balance usual : R) (sizing : Sizing) : Except Fault (Option R) :=
  if Scalar.atMost balance (Scalar.nat 0) then .ok none
  else
    match sizing.amountOf usual balance with
    | .error e => .error e
    | .ok amount => .ok (if Scalar.atMost amount (Scalar.nat 0) then none else some amount)

/-- The gain of a swap in percent of what went in. -/
def gain (amount fromPrice received toPrice : R) : Except Fault R :=
  (Scalar.divide (received * toPrice - amount * fromPrice) (amount * fromPrice)).map
    (· * Scalar.nat 100)

/-- Executes a swap. -/
def swap (e : Setup R) (s : State R) (kind : ActionKind) (terms : SwapTerms) :
    Except Fault (State R × Option (Trade R)) :=
  let source := Setting.textOr e.quote terms.source
  let target := Setting.textOr "TON" terms.target
  match part (s.ledger.balance e.quote source) (Scalar.nat 10) terms.sizing with
  | .error f => .error f
  | .ok none => .ok (s, none)
  | .ok (some amount) =>
    match Setting.numberOr (Scalar.nat 1 : R) terms.maxSlippage with
    | .error f => .error f
    | .ok maxSlippage =>
      let fromPrice := e.tick.priceOf e.defaults source
      let toPrice := e.tick.priceOf e.defaults target
      match Scalar.divide fromPrice toPrice with
      | .error f => .error f
      | .ok rate =>
        let (u, g) := s.generator.nextUnit
        let slippage := Scalar.unit u * maxSlippage / Scalar.nat 100
        let received := amount * rate * (Scalar.nat 1 - slippage)
        match gain amount fromPrice received toPrice with
        | .error f => .error f
        | .ok pnl =>
          let cumPnl := s.cumPnl + pnl
          let ledger :=
            s.ledger.exchange e.quote source target amount received e.tick.gasPrice
          .ok (⟨ledger, cumPnl, g, s.count + 1⟩, some
            { id := tradeId "trade" s.count
              timestamp := e.tick.timestamp
              kind := kind
              fromToken := source
              toToken := target
              fromAmount := amount
              toAmount := received
              price := rate
              slippage := slippage * Scalar.nat 100
              gas := e.tick.gasPrice
              pnl := pnl
              cumPnl := cumPnl })

/-- Executes a move between a token and its staked holding; `back` takes it out again. -/
def stake (e : Setup R) (s : State R) (back : Bool) (b : Block) :
    Except Fault (State R × Option (Trade R)) :=
  let token := Setting.textOr "TON" (b.setting? "token")
  let source := if back then stakedName token else token
  let target := if back then token else stakedName token
  let sizing : Sizing := ⟨b.setting? "amountType", b.setting? "amount"⟩
  match part (s.ledger.balance e.quote source) (Scalar.nat 50) sizing with
  | .error f => .error f
  | .ok none => .ok (s, none)
  | .ok (some amount) =>
    let ledger := s.ledger.exchange e.quote source target amount amount e.tick.gasPrice
    .ok (⟨ledger, s.cumPnl, s.generator, s.count + 1⟩, some
      { id := tradeId (if back then "unstake" else "stake") s.count
        timestamp := e.tick.timestamp
        kind := if back then .unstake else .stake
        fromToken := source
        toToken := target
        fromAmount := amount
        toAmount := amount
        price := Scalar.nat 1
        slippage := Scalar.nat 0
        gas := e.tick.gasPrice
        pnl := Scalar.nat 0
        cumPnl := s.cumPnl })

/-- Executes an action. Kinds that move nothing do nothing. -/
def execute (e : Setup R) (s : State R) (b : Block) (kind : ActionKind) :
    Except Fault (State R × Option (Trade R)) :=
  match kind with
  | .swap => swap e s .swap (.ofSwap b)
  | .dca => swap e s .dca (.ofRecurring b)
  | .stake => stake e s false b
  | .unstake => stake e s true b
  | _ => .ok (s, none)

/-- Executes actions in order; the trades are those of the actions that did something. -/
def executeAll (e : Setup R) (s : State R) :
    List (Block × ActionKind) → Except Fault (State R × List (Trade R))
  | [] => .ok (s, [])
  | (b, kind) :: rest =>
    match execute e s b kind with
    | .error f => .error f
    | .ok (s, trade) =>
      match executeAll e s rest with
      | .error f => .error f
      | .ok (s, trades) => .ok (s, trade.toList ++ trades)

end Action

end Tradeflow
