/-
  Documents written as text. A style says what stands between the parts, whether everything outside
  ASCII is escaped, and how far nested values are indented, if at all. Every document has a text: no
  limit is set to how deep it is nested, nor to the digits of a whole number in it.
-/
import Tradeflow.Json.Basic
import Tradeflow.Number.Decimal
import Tradeflow.Text.Basic
import Tradeflow.Text.Units16

namespace Tradeflow.Json

structure Style where
  itemSeparator : String
  keySeparator : String
  /-- Are characters outside ASCII escaped? -/
  ascii : Bool
  /-- How many spaces each level is indented; everything on one line if there is none. -/
  indent : Option Nat

/-- Nothing but what is needed, and every character as it is. -/
def Style.dense : Style := ⟨",", ":", false, none⟩

/-- On one line, with a space after each separator, in ASCII. -/
def Style.line : Style := ⟨", ", ": ", true, none⟩

/-- One item a line, two spaces a level, in ASCII. -/
def Style.indented : Style := ⟨",", ": ", true, some 2⟩

/-- Doubles in documents, with names for those that are not finite. -/
def floatLayout : Decimal.Layout := ⟨-4, 16, false, "NaN", "Infinity"⟩

/-- Each code unit of a character as an escape of four hexadecimal digits. -/
def unitEscapes (c : Char) : List Char :=
  (Text.unitsOfChar c).flatMap fun u => '\\' :: 'u' :: Text.hexPadded 4 u

/-- One character of a string. -/
def writeChar (ascii : Bool) (c : Char) : List Char :=
  if c = '"' then ['\\', '"']
  else if c = '\\' then ['\\', '\\']
  else if c = '\n' then ['\\', 'n']
  else if c = '\r' then ['\\', 'r']
  else if c = '\t' then ['\\', 't']
  else if c = '\x0c' then ['\\', 'f']
  else if c = '\x08' then ['\\', 'b']
  else if c.toNat < 0x20 ∨ (ascii = true ∧ 0x7E < c.toNat) then unitEscapes c
  else [c]

def writeString (ascii : Bool) (s : String) : List Char :=
  '"' :: s.toList.flatMap (writeChar ascii) ++ ['"']

def writeInt (n : Int) : List Char := (toString n).toList

def writeFloat (x : Float) : List Char := (floatLayout.text x).toList

/-- A new line at a level, in a style that has them. -/
def Style.newline (style : Style) (level : Nat) : List Char :=
  match style.indent with
  | none => []
  | some n => '\n' :: List.replicate (n * level) ' '

/-- What stands between two items at a level. -/
def Style.between (style : Style) (level : Nat) : List Char :=
  style.itemSeparator.toList ++ style.newline level

mutual

/-- Writes a document that stands at the given level. -/
def write (style : Style) (level : Nat) : Json → List Char
  | .null => "null".toList
  | .bool true => "true".toList
  | .bool false => "false".toList
  | .int n => writeInt n
  | .num x => writeFloat x
  | .str s => writeString style.ascii s
  | .arr [] => ['[', ']']
  | .arr (x :: xs) =>
    '[' :: style.newline (level + 1) ++ write style (level + 1) x
      ++ writeItems style (level + 1) xs ++ style.newline level ++ [']']
  | .obj [] => ['\x7b', '\x7d']
  | .obj (p :: ps) =>
    '\x7b' :: style.newline (level + 1) ++ writePair style (level + 1) p
      ++ writePairs style (level + 1) ps ++ style.newline level ++ ['\x7d']

/-- Writes the items after the first. -/
def writeItems (style : Style) (level : Nat) : List Json → List Char
  | [] => []
  | x :: xs => style.between level ++ write style level x ++ writeItems style level xs

/-- Writes the pairs after the first. -/
def writePairs (style : Style) (level : Nat) : List (String × Json) → List Char
  | [] => []
  | p :: ps => style.between level ++ writePair style level p ++ writePairs style level ps

def writePair (style : Style) (level : Nat) : String × Json → List Char
  | (k, x) =>
    writeString style.ascii k ++ style.keySeparator.toList ++ write style level x

end

/-- The text of a document. -/
def print (style : Style) (doc : Json) : String := String.ofList (write style 0 doc)

end Tradeflow.Json
