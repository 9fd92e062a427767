/-
  Full upper and lower case of text: one character may become several, and a capital sigma at the
  end of a word becomes the final small sigma.
-/
import Tradeflow.Text.Casing.Tables

namespace Tradeflow.Text

/-- Is the code point in one of the ranges? -/
def inRanges (ranges : List (Nat × Nat)) (n : Nat) : Bool :=
  ranges.any fun (lo, hi) => lo ≤ n && n ≤ hi

namespace Casing

def Run.maps? (r : Run) (n : Nat) : Option Char :=
  if r.first ≤ n ∧ n ≤ r.last ∧ (n - r.first) % r.step = 0 then
    some (Char.ofNat ((n : Int) + r.delta).toNat)
  else none

/-- A character through a table of runs and one of special cases. -/
def mapChar (runs : List Run) (special : List (Nat × List Nat)) (c : Char) : List Char :=
  let n := c.toNat
  match runs.findSome? (·.maps? n) with
  | some d => [d]
  | none =>
    match special.find? (·.1 == n) with
    | some (_, ds) => ds.map Char.ofNat
    | none => [c]

def isAscii (c : Char) : Bool := c.toNat < 128

def upperChar (c : Char) : List Char :=
  if isAscii c then [c.toUpper] else mapChar upperRuns upperSpecial c

def lowerChar (c : Char) : List Char :=
  if isAscii c then [c.toLower] else mapChar lowerRuns lowerSpecial c

def isCased (c : Char) : Bool := inRanges casedRanges c.toNat

def isIgnorable (c : Char) : Bool := inRanges ignorableRanges c.toNat

/-- Does the nearest character that counts have a case? -/
def meetsCased (cs : List Char) : Bool :=
  match cs.dropWhile isIgnorable with
  | [] => false
  | c :: _ => isCased c

def capitalSigma : Char := Char.ofNat 0x3a3

/-- A sigma is final when a letter comes before it and none after it. -/
def lowerSigma (before after : List Char) : Char :=
  if meetsCased before && !meetsCased after then Char.ofNat 0x3c2 else Char.ofNat 0x3c3

/-- Lower case of the rest of a text; `before` holds what came earlier, nearest first. -/
def lowerFrom (before : List Char) : List Char → List Char
  | [] => []
  | c :: rest =>
    (if c = capitalSigma then [lowerSigma before rest] else lowerChar c) ++ lowerFrom (c :: before) rest

end Casing

/-- Full upper case. -/
def upper (s : String) : String := String.ofList (s.toList.flatMap Casing.upperChar)

/-- Full lower case. -/
def lower (s : String) : String := String.ofList (Casing.lowerFrom [] s.toList)

end Tradeflow.Text
