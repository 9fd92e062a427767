/-
  Values as messages show them: strings as they are, or quoted when they stand inside a list or an
  object.
-/
import Tradeflow.Json.Basic
import Tradeflow.Number.Decimal
import Tradeflow.Text.Quoted

namespace Tradeflow.Json

mutual

/-- A value inside another one. -/
def inner : Json → String
  | .null => "None"
  | .bool true => "True"
  | .bool false => "False"
  | .int n => toString n
  | .num x => Decimal.plain.text x
  | .str s => Text.quoted s
  | .arr items => "[" ++ String.intercalate ", " (innerItems items) ++ "]"
  | .obj pairs => "\x7b" ++ String.intercalate ", " (innerPairs pairs) ++ "\x7d"

def innerItems : List Json → List String
  | [] => []
  | x :: xs => inner x :: innerItems xs

def innerPairs : List (String × Json) → List String
  | [] => []
  | p :: ps => innerPair p :: innerPairs ps

def innerPair : String × Json → String
  | (k, x) => Text.quoted k ++ ": " ++ inner x

end

/-- A value in a message. -/
def display : Json → String
  | .str s => s
  | doc => inner doc

end Tradeflow.Json
