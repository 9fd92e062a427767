/-
  The value that a node stands for. A mapping may take in the pairs of others, which its own pairs
  override; of two equal keys the last value counts, at the place of the first. Numbers that are equal
  are equal keys, whatever their kind.
-/
import Tradeflow.Json.Basic
import Tradeflow.Number.Decimal
import Tradeflow.Text.Basic
import Tradeflow.Yaml.Node

namespace Tradeflow.Yaml

inductive Key where
  | null
  | bool (b : Bool)
  | int (n : Int)
  | num (x : Float)
  | text (s : String)
  | date (s : String)

namespace Key

/-- The value of a key that counts as a whole number. -/
def whole? : Key → Option Int
  | bool b => some (if b then 1 else 0)
  | int n => some n
  | num x => Double.whole? x
  | _ => none

/-- Are two keys one and the same? -/
def same (a b : Key) : Bool :=
  match a.whole?, b.whole? with
  | some m, some n => m == n
  | none, none =>
    match a, b with
    | null, null => true
    | num x, num y => x == y
    | text s, text t => s == t
    | date s, date t => s == t
    | _, _ => false
  | _, _ => false

/-- A key as text. -/
def shown : Key → String
  | null => "None"
  | bool b => if b then "True" else "False"
  | int n => toString n
  | num x => Decimal.plain.text x
  | text s => s
  | date s => Text.replaceChar 'T' ' ' s

end Key

inductive Value where
  | null
  | bool (b : Bool)
  | int (n : Int)
  | num (x : Float)
  | text (s : String)
  /-- A date, with or without a time. -/
  | date (s : String)
  | list (items : List Value)
  | map (pairs : List (Key × Value))

namespace Value

def key? : Value → Option Key
  | null => some .null
  | bool b => some (.bool b)
  | int n => some (.int n)
  | num x => some (.num x)
  | text s => some (.text s)
  | date s => some (.date s)
  | list _ => none
  | map _ => none

/-- Puts a value under a key, at the place of the key if it is there. -/
def put (k : Key) (v : Value) : List (Key × Value) → List (Key × Value)
  | [] => [(k, v)]
  | p :: ps => if p.1.same k then (p.1, v) :: ps else p :: put k v ps

/-- The value under a key that is text. -/
def get? (name : String) (pairs : List (Key × Value)) : Option Value :=
  (pairs.find? fun p => p.1.same (.text name)).map (·.2)

/-- Is there nothing: no value, false, zero, or an empty text or collection? -/
def isNothing : Value → Bool
  | null => true
  | bool b => !b
  | int n => n == 0
  | num x => x == 0
  | text s => s.isEmpty
  | date _ => false
  | list items => items.isEmpty
  | map pairs => pairs.isEmpty

mutual

/-- The value as a document; `date` says what a date becomes. -/
def toJson (date : String → Json) : Value → Json
  | .null => .null
  | .bool b => .bool b
  | .int n => .int n
  | .num x => .num x
  | .text s => .str s
  | .date s => date s
  | .list items => .arr (itemsToJson date items)
  | .map pairs => .obj (pairsToJson date pairs [])

def itemsToJson (date : String → Json) : List Value → List Json
  | [] => []
  | v :: vs => toJson date v :: itemsToJson date vs

/-- Puts pairs to others; keys that look alike as text are taken as one. -/
def pairsToJson (date : String → Json) : List (Key × Value) → Assoc Json → Assoc Json
  | [], done => done
  | p :: ps, done => pairsToJson date ps (pairToJson date p done)

def pairToJson (date : String → Json) : Key × Value → Assoc Json → Assoc Json
  | (k, v), done => Assoc.set done k.shown (toJson date v)

end

end Value

namespace Node

/-- The pairs that a value under the merge key brings in. Of several mappings the last comes first. -/
def mergedPairs : Node → Except Flaw (List (Node × Node))
  | .map _ pairs => .ok pairs
  | .list _ items => do
    let parts ← items.mapM fun
      | .map _ pairs => .ok pairs
      | _ => .error .merge
    return parts.reverse.flatten
  | .scalar _ _ => .error .merge

/-- A key for a mapping's own value counts as text. -/
def plainKey : Node → Node
  | .scalar .own text => .scalar .text text
  | n => n

/-- The pairs of a mapping after those that it takes in. -/
def mergePairs (pairs : List (Node × Node)) : Except Flaw (List (Node × Node)) := do
  let (takes, own) := pairs.partition fun p => p.1.tag == .merge
  let merged ← takes.mapM fun p => mergedPairs p.2
  return merged.flatten ++ own.map fun p => (plainKey p.1, p.2)

mutual

/-- Writes out what each mapping takes in. -/
def expand : Node → Except Flaw Node
  | .scalar tag text => .ok (.scalar tag text)
  | .list tag items => (expandItems items).map (.list tag)
  | .map tag pairs => do return .map tag (← mergePairs (← expandPairs pairs))

def expandItems : List Node → Except Flaw (List Node)
  | [] => .ok []
  | n :: ns => do
    let n ← expand n
    return n :: (← expandItems ns)

def expandPairs : List (Node × Node) → Except Flaw (List (Node × Node))
  | [] => .ok []
  | p :: ps => do
    let p ← expandPair p
    return p :: (← expandPairs ps)

def expandPair : Node × Node → Except Flaw (Node × Node)
  | (k, v) => do
    let k ← expand k
    return (k, ← expand v)

end

/-- The value of a scalar. -/
def scalarValue (tag : Tag) (text : List Char) : Except Flaw Value :=
  let read {α : Type} (wrap : α → Value) (r : Except Misfit α) : Except Flaw Value :=
    match r with
    | .ok a => .ok (wrap a)
    | .error e => .error (.scalar e)
  match tag with
  | .null => .ok .null
  | .bool => read .bool (readBool text)
  | .int => read .int (readInt text)
  | .float => read .num (readFloat text)
  | .date => read .date (readDate text)
  | .text => .ok (.text (String.ofList text))
  | _ => .error (.tag tag)

mutual

/-- The value of a node whose mappings are written out. -/
def value : Node → Except Flaw Value
  | .scalar tag text => scalarValue tag text
  | .list tag items =>
    if tag == .seq then (itemValues items).map .list else .error (.tag tag)
  | .map tag pairs =>
    if tag == .map then (pairValues pairs []).map .map else .error (.tag tag)

def itemValues : List Node → Except Flaw (List Value)
  | [] => .ok []
  | n :: ns => do
    let v ← value n
    return v :: (← itemValues ns)

def pairValues : List (Node × Node) → List (Key × Value) → Except Flaw (List (Key × Value))
  | [], done => .ok done
  | p :: ps, done => do pairValues ps (← pairValue p done)

def pairValue : Node × Node → List (Key × Value) → Except Flaw (List (Key × Value))
  | (k, v), done => do
    match (← value k).key? with
    | none => .error .key
    | some key => return Value.put key (← value v) done

end

end Node

/-- The value that a text stands for; an empty one stands for nothing. -/
def read (s : String) : Except Flaw Value := do
  match ← Node.ofTokens (tokens s) with
  | none => return .null
  | some n => (← n.expand).value

end Tradeflow.Yaml
