/-
  The tokens and protocols that a strategy uses, and whether they are allowed. Tokens are compared in
  upper case, protocols in lower case; placeholders are no names yet.
-/
import Tradeflow.Text.Basic
import Tradeflow.Text.Casing
import Tradeflow.Validation.Basic

namespace Tradeflow

/-- The settings that hold tokens. -/
def tokenKeys : List String := ["token", "fromToken", "toToken", "tokenA", "tokenB"]

/-- The settings that hold protocols. -/
def protocolKeys : List String := ["protocol", "dex"]

namespace Block

/-- A setting that is a text and not empty. -/
def name? (b : Block) (key : String) : Option String :=
  ((b.setting? key).bind Json.text?).filter (· != "")

end Block

namespace Strategy

/-- The tokens in the settings of blocks and in the whitelist, each once. -/
def usedTokens (s : Strategy) : List String :=
  let named := s.blocks.flatMap fun b => tokenKeys.filterMap b.name?
  (named ++ s.settings.tokenWhitelist).eraseDups.filter fun t =>
    t != "" && !Text.isPlaceholder t

/-- The protocols in the settings of blocks, each once. -/
def usedProtocols (s : Strategy) : List String :=
  let named := s.blocks.flatMap fun b => protocolKeys.filterMap b.name?
  named.eraseDups.filter fun p => p != "auto" && !Text.isPlaceholder p

end Strategy

namespace ValidationConfig

def tokenAllowed (c : ValidationConfig) (token : String) : Bool :=
  match c.allowedTokens with
  | none => true
  | some allowed => (allowed.map Text.upper).contains (Text.upper token)

def protocolAllowed (c : ValidationConfig) (protocol : String) : Bool :=
  match c.allowedProtocols with
  | none => true
  | some allowed => protocol == "auto" || (allowed.map Text.lower).contains (Text.lower protocol)

end ValidationConfig

end Tradeflow
