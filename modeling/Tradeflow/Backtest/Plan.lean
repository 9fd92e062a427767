/-
  What a run works through, settled before its first tick: the enabled triggers and actions with what
  they do, and the tokens whose prices are needed.
-/
import Tradeflow.Catalog.Basic
import Tradeflow.Number.Scalar
import Tradeflow.Validation.Whitelist

namespace Tradeflow

structure Plan where
  triggers : List (Block × TriggerKind)
  actions : List (Block × ActionKind)
  tokens : List String

/-- The settings that name tokens to be priced. -/
def pricedKeys : List String := ["token", "fromToken", "toToken"]

namespace Strategy

/-- The tokens that the settings of blocks name, then the two that always matter; each once. -/
def pricedTokens (s : Strategy) (quote : String) : List String :=
  let named := s.blocks.flatMap fun b =>
    (pricedKeys.filterMap b.name?).filter fun t => !Text.isPlaceholder t
  (named ++ ["TON", quote]).eraseDups

/-- The enabled blocks of a category. -/
def enabled (s : Strategy) (category : BlockCategory) : List Block :=
  s.blocks.filter fun b => b.category == category && b.enabled

/-- The plan of a run of the strategy. -/
def plan (catalog : Catalog) (quote : String) (s : Strategy) : Plan where
  triggers := (s.enabled .trigger).map fun b => (b, catalog.triggerOf b)
  actions := (s.enabled .action).map fun b => (b, catalog.actionOf b)
  tokens := s.pricedTokens quote

end Strategy

namespace Setting

/-- A setting that is a number, if it is one. Truth values are none, and a whole number must not be
too large. -/
def number {R : Type} [Scalar R] : Option Json → Except Fault (Option R)
  | some (.int n) =>
    match Scalar.ofInt? n with
    | some x => .ok (some x)
    | none => .error .intTooLarge
  | some (.num x) => .ok (some (Scalar.ofFloat x))
  | _ => .ok none

/-- A setting that is a number other than zero, or else the usual one. -/
def numberOr {R : Type} [Scalar R] (usual : R) (setting : Option Json) : Except Fault R :=
  match number setting with
  | .error e => .error e
  | .ok (some x) => .ok (if Scalar.isZero x then usual else x)
  | .ok none => .ok usual

/-- A setting that is a text and not empty, or else the usual one. -/
def textOr (usual : String) (setting : Option Json) : String :=
  match setting with
  | some (.str s) => if s = "" then usual else s
  | _ => usual

/-- Is a setting this word? What counts as nothing stands for the usual word. -/
def isWord (usual word : String) (setting : Option Json) : Bool :=
  match setting with
  | some doc => if doc.truthy then doc.text? == some word else usual == word
  | none => usual == word

/-- Is a setting this word, or missing while the usual one is? -/
def isWordOrMissing (usual word : String) (setting : Option Json) : Bool :=
  match setting with
  | some doc => doc.text? == some word
  | none => usual == word

end Setting

end Tradeflow
