/-
  The ledger of a run: capital in the quote token, and a position for every other token ever held. What
  it is worth is its capital and its positions at the prices of a tick.
-/
import Tradeflow.Market.Series

namespace Tradeflow

structure Ledger (R : Type) where
  capital : R
  positions : Assoc R

namespace Ledger

variable {R : Type} [Scalar R]

/-- The ledger that a run starts with. -/
def start (capital : R) : Ledger R := ⟨capital, []⟩

/-- How much there is of a token. -/
def balance (quote : String) (l : Ledger R) (token : String) : R :=
  if token = quote then l.capital else (Assoc.get? l.positions token).getD (Scalar.nat 0)

/-- Adds to the balance of a token. -/
def add (quote : String) (l : Ledger R) (token : String) (amount : R) : Ledger R :=
  if token = quote then { l with capital := l.capital + amount }
  else { l with positions := Assoc.update l.positions token (Scalar.nat 0) (· + amount) }

/-- Takes gas out of the capital. -/
def payGas (l : Ledger R) (gas : R) : Ledger R := { l with capital := l.capital - gas }

/-- A movement: so much out of one token, so much into another, and gas. -/
def exchange (quote : String) (l : Ledger R) (source target : String) (out into gas : R) : Ledger R :=
  ((l.add quote source (-out)).add quote target into).payGas gas

/-- The worth of the ledger at the prices of a tick. -/
def equity (defaults : Assoc Float) (tick : PriceTick R) (l : Ledger R) : R :=
  l.positions.foldl (fun sum p => sum + p.2 * tick.priceOf defaults p.1) l.capital

end Ledger

end Tradeflow
