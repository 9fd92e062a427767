/-
  Documents: the values that JSON text stands for. Whole numbers are kept apart from doubles, and the
  pairs of an object keep their order. Two documents are the same when they agree in all of that and
  their doubles agree bit by bit. A document may hold numbers that are not finite, for which there is
  no standard text; where it has to do without them, nothing stands in their place (`nulled`).
-/
import Tradeflow.Assoc
import Tradeflow.Number.Double

namespace Tradeflow

inductive Json where
  | null
  | bool (b : Bool)
  | int (n : Int)
  | num (x : Float)
  | str (s : String)
  | arr (items : List Json)
  | obj (pairs : List (String × Json))

namespace Json

mutual

/-- Are two documents the same? -/
def same : Json → Json → Bool
  | .null, .null => true
  | .bool a, .bool b => a == b
  | .int m, .int n => m == n
  | .num x, .num y => Double.sameBits x y
  | .str s, .str t => s == t
  | .arr xs, .arr ys => sameItems xs ys
  | .obj ps, .obj qs => samePairs ps qs
  | _, _ => false

def sameItems : List Json → List Json → Bool
  | [], [] => true
  | x :: xs, y :: ys => same x y && sameItems xs ys
  | _, _ => false

def samePairs : List (String × Json) → List (String × Json) → Bool
  | [], [] => true
  | p :: ps, q :: qs => samePair p q && samePairs ps qs
  | _, _ => false

def samePair : String × Json → String × Json → Bool
  | (k, x), (l, y) => k == l && same x y

end

mutual

/-- A document with nothing in place of each number that is not finite. -/
def nulled : Json → Json
  | .num x => if Double.isFinite x then .num x else .null
  | .arr items => .arr (nulledItems items)
  | .obj pairs => .obj (nulledPairs pairs)
  | .null => .null
  | .bool b => .bool b
  | .int n => .int n
  | .str s => .str s

def nulledItems : List Json → List Json
  | [] => []
  | x :: xs => nulled x :: nulledItems xs

def nulledPairs : List (String × Json) → List (String × Json)
  | [] => []
  | p :: ps => nulledPair p :: nulledPairs ps

def nulledPair : String × Json → String × Json
  | (k, x) => (k, nulled x)

end

/-- The value under a key of an object. -/
def get? (doc : Json) (key : String) : Option Json :=
  match doc with
  | .obj pairs => Assoc.get? pairs key
  | _ => none

/-- The text of a string value. -/
def text? : Json → Option String
  | .str s => some s
  | _ => none

/-- Is the value something rather than nothing: not null, false, zero or empty? -/
def truthy : Json → Bool
  | .null => false
  | .bool b => b
  | .int n => n != 0
  | .num x => !(x == 0)
  | .str s => s != ""
  | .arr items => !items.isEmpty
  | .obj pairs => !pairs.isEmpty

/-- The name that messages give to the kind of a value. -/
def kindName : Json → String
  | .null => "NoneType"
  | .bool _ => "bool"
  | .int _ => "int"
  | .num _ => "float"
  | .str _ => "str"
  | .arr _ => "list"
  | .obj _ => "dict"

end Json

end Tradeflow
