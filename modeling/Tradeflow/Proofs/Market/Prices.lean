/-
  Prices of tokens at a tick. A price that can be used is taken as it is (`priceOf_own`). A staked
  holding is priced by what is staked unless it has a price of its own (`priceOf_stakedName`).
-/
import Tradeflow.Market.Series
import Tradeflow.Proofs.Number.Rational

namespace Tradeflow

theorem Text.startsWith_append (lead rest : List Char) :
    Text.startsWith lead (lead ++ rest) = true := by
  induction lead with
  | nil => rfl
  | cons c lead ih =>
    rw [List.cons_append, startsWith, beq_self_eq_true, Bool.true_and]
    exact ih

theorem toList_stakedName (token : String) :
    (stakedName token).toList = stakedPrefix.toList ++ token.toList := String.toList_append

/-- What is staked is what a staked holding is priced by. -/
theorem underlying_stakedName (token : String) : underlying (stakedName token) = token := by
  rw [underlying, toList_stakedName, Text.startsWith_append, if_pos rfl,
    List.drop_left' String.length_toList, String.ofList_toList]

/-- Where no name starts like the name of a staked holding, no staked holding is found. -/
theorem get?_stakedName {α : Type} {m : Assoc α}
    (h : ∀ p ∈ m, Text.startsWith stakedPrefix.toList p.1.toList = false)
    (token : String) : Assoc.get? m (stakedName token) = none := by
  induction m with
  | nil => rfl
  | cons p m ih =>
    obtain ⟨hfirst, hrest⟩ := List.forall_mem_cons.1 h
    have hne : p.1 ≠ stakedName token := by
      intro heq
      rw [heq, toList_stakedName, Text.startsWith_append] at hfirst
      cases hfirst
    rw [Assoc.get?, if_neg hne]
    exact ih hrest

/-- No name that a synthetic market prices is the name of a staked holding. -/
theorem get?_synthetic_stakedName {R : Type} [Scalar R] (price : R) (token : String) :
    Assoc.get? [("TON", price), ("USDT", Scalar.nat 1), ("USDC", Scalar.nat 1),
      ("ETH", price * Scalar.nat 500)] (stakedName token) = none := by
  refine get?_stakedName ?_ token
  simp [stakedPrefix, Text.startsWith]

theorem PriceTick.priceOf_own {R : Type} [Scalar R] {tick : PriceTick R} {token : String} {p : R}
    (h : usable? (Assoc.get? tick.prices token) = some p) (defaults : Assoc Float) :
    tick.priceOf defaults token = p := by
  rw [priceOf, h]

/-- A token that is no staked holding, or that has a price of its own. -/
def PriceTick.Rooted (tick : PriceTick Rat) (token : String) : Prop :=
  underlying token = token ∨ usable? (Assoc.get? tick.prices token) ≠ none

/-- Without a price of its own, a staked holding costs what the token does. -/
theorem priceOf_stakedName {tick : PriceTick Rat} {token : String} (hrooted : tick.Rooted token)
    (hown : usable? (Assoc.get? tick.prices (stakedName token)) = none) (defaults : Assoc Float) :
    tick.priceOf defaults (stakedName token) = tick.priceOf defaults token := by
  rw [PriceTick.priceOf, PriceTick.priceOf, hown, underlying_stakedName]
  cases htoken : usable? (Assoc.get? tick.prices token) with
  | some p => rfl
  | none =>
    have hsame : underlying token = token := hrooted.resolve_right (· htoken)
    rw [hsame, htoken]

end Tradeflow
