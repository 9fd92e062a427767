/-
  Text in quotes for use in messages: single quotes unless the text holds a single quote and no
  double one, the quote and the backslash escaped, and everything that has no glyph of its own
  written as an escape.
-/
import Tradeflow.Text.Basic
import Tradeflow.Text.Casing
import Tradeflow.Text.Printable

namespace Tradeflow.Text

def isPrintable (c : Char) : Bool :=
  if c.toNat < 127 then 32 ≤ c.toNat else !inRanges unprintableRanges c.toNat

/-- One character inside the given quotes. -/
def quotedChar (quote c : Char) : List Char :=
  if c = quote ∨ c = '\\' then ['\\', c]
  else if c = '\n' then ['\\', 'n']
  else if c = '\r' then ['\\', 'r']
  else if c = '\t' then ['\\', 't']
  else if isPrintable c then [c]
  else
    let n := c.toNat
    if n < 0x100 then '\\' :: 'x' :: hexPadded 2 n
    else if n < 0x10000 then '\\' :: 'u' :: hexPadded 4 n
    else '\\' :: 'U' :: hexPadded 8 n

def singleQuote : Char := '\x27'

def doubleQuote : Char := '"'

/-- The quote that needs no escaping, if there is one. -/
def chosenQuote (cs : List Char) : Char :=
  if cs.contains singleQuote && !cs.contains doubleQuote then doubleQuote else singleQuote

/-- The text in quotes. -/
def quoted (s : String) : String :=
  let cs := s.toList
  let q := chosenQuote cs
  String.ofList (q :: cs.flatMap (quotedChar q) ++ [q])

end Tradeflow.Text
