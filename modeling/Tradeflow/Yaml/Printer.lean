/-
  YAML text of a document. Lists and objects are laid out line by line, two spaces a level, a list
  under a key no deeper than the key; empty ones stand on the line of their key. Text is written
  without quotes if it reads back as the same text, in single quotes if it holds nothing but ASCII and
  line ends, and in double quotes with escapes otherwise. Long text is broken at its spaces.
-/
import Tradeflow.Json.Basic
import Tradeflow.Number.Decimal
import Tradeflow.Text.Basic
import Tradeflow.Yaml.Cursor

namespace Tradeflow.Yaml

/-- The column after which text is broken. -/
def lineWidth : Nat := 80

/-- Doubles in YAML; an exponent always follows a point. -/
def floatLayout : Decimal.Layout := ⟨-4, 16, true, ".nan", ".inf"⟩

/-- The text written so far, last character first, and where the next character would stand. -/
structure Pen where
  done : List Char
  column : Nat
  /-- Was the last thing written a space or a mark that needs none after it? -/
  apart : Bool
  /-- Does the line hold nothing but indentation and marks that open a level? -/
  margin : Bool

namespace Pen

def start : Pen := ⟨[], 0, true, true⟩

def text (p : Pen) : String := String.ofList p.done.reverse

/-- Writes characters of one line. -/
def put (p : Pen) (cs : List Char) : Pen :=
  { p with done := cs.reverse ++ p.done, column := p.column + cs.length }

def newline (p : Pen) : Pen := ⟨'\n' :: p.done, 0, true, true⟩

/-- Moves to a column at the start of a line, on a new line if need be. -/
def indent (p : Pen) (n : Nat) : Pen :=
  let p := if !p.margin || n < p.column || (p.column == n && !p.apart) then p.newline else p
  if p.column < n then { p.put (List.replicate (n - p.column) ' ') with apart := true } else p

/-- Writes a mark after a space, if there is none. -/
def mark (p : Pen) (cs : List Char) : Pen :=
  let p := p.put (if p.apart then cs else ' ' :: cs)
  { p with apart := false, margin := false }

/-- Writes a mark after which no space is needed. -/
def openMark (p : Pen) (cs : List Char) : Pen := { p.mark cs with apart := true }

/-- Writes a mark that opens a level. -/
def levelMark (p : Pen) (c : Char) : Pen :=
  { p.put (if p.apart then [c] else [' ', c]) with apart := false }

/-- Writes a mark right after what stands before it. -/
def close (p : Pen) (cs : List Char) : Pen :=
  { p.put cs with apart := false, margin := false }

end Pen


/-- Is a character written as it is in single quotes? -/
def isSimple (c : Char) : Bool := c == '\n' || (' ' ≤ c && c ≤ '~')

/-- Does the text hold a line end? -/
def hasBreak (cs : List Char) : Bool := cs.any isBreak

/-- Do two characters of the given kinds stand side by side? -/
def hasPair (first second : Char → Bool) : List Char → Bool
  | a :: b :: rest => (first a && second b) || hasPair first second (b :: rest)
  | _ => false

/-- Does a character open a construct of its own at the start of a scalar? -/
def opensScalar (cs : List Char) : Bool :=
  let alone := (cs.drop 1).head?.all isGap
  match cs with
  | [] => false
  | c :: _ => "#,[]\x7b\x7d&*!|>\x27\"%@\x60".toList.contains c || ("?:-".toList.contains c && alone)

/-- Is there a mark inside that would end the scalar: a colon before a gap or a hash after one? -/
def endsInside (cs : List Char) : Bool :=
  hasPair (· == ':') isGap (cs.drop 1 ++ [' ']) || hasPair isGap (· == '#') cs

/-- May a text be written without quotes? -/
def isPlain (cs : List Char) : Bool :=
  let edge (c : Option Char) : Bool := c.any fun c => c == ' ' || isBreak c
  cs.all isSimple && !hasBreak cs && !edge cs.head? && !edge cs.getLast?
    && !Text.startsWith ['-', '-', '-'] cs && !Text.startsWith ['.', '.', '.'] cs
    && !opensScalar cs && !endsInside cs && Tag.ofPlain cs == .text

/-- May a text be written in single quotes? Spaces next to a line end would be lost. -/
def isSingle (cs : List Char) : Bool :=
  cs.all isSimple && !hasPair (· == ' ') isBreak cs && !hasPair isBreak (· == ' ') cs

/-- Cuts a text into runs of spaces, runs of line ends and runs of anything else. -/
def runs (cs : List Char) : List (List Char) :=
  let kind (c : Char) : Nat := if c == ' ' then 0 else if isBreak c then 1 else 2
  cs.splitBy fun a b => kind a == kind b

/-- Writes the runs of a text without quotes, breaking lines at single spaces. -/
def writePlainRuns (broken : Bool) (indent : Nat) (p : Pen) : List (List Char) → Pen
  | [] => p
  | run :: rest =>
    let p :=
      if run = [' '] ∧ lineWidth < p.column ∧ broken = true then
        { p.indent indent with apart := false, margin := false }
      else p.put run
    writePlainRuns broken indent p rest

def writePlain (broken : Bool) (indent : Nat) (p : Pen) (cs : List Char) : Pen :=
  let p := if p.apart then p else p.put [' ']
  writePlainRuns broken indent { p with apart := false, margin := false } (runs cs)

/-- Writes the runs of a text in single quotes. A line end is written as an empty line; a line is
broken at a single space inside. -/
def writeSingleRuns (broken : Bool) (indent : Nat) (first : Bool) (p : Pen) :
    List (List Char) → Pen
  | [] => p
  | run :: rest =>
    let p :=
      if run = [' '] ∧ lineWidth < p.column ∧ broken = true ∧ first = false ∧ rest ≠ [] then
        p.indent indent
      else if run.any isBreak then (run.foldl (fun p _ => p.newline) p.newline).indent indent
      else p.put (run.flatMap fun c => if c == '\x27' then [c, c] else [c])
    writeSingleRuns broken indent false p rest

def writeSingle (broken : Bool) (indent : Nat) (p : Pen) (cs : List Char) : Pen :=
  (writeSingleRuns broken indent true (p.mark ['\x27']) (runs cs)).close ['\x27']

/-- The letter of a short escape. -/
def escapeLetter? (c : Char) : Option Char :=
  [('\x00', '0'), ('\x07', 'a'), ('\x08', 'b'), ('\t', 't'), ('\n', 'n'), ('\x0b', 'v'),
    ('\x0c', 'f'), ('\r', 'r'), ('\x1b', 'e'), ('"', '"'), ('\\', '\\'), ('\x85', 'N'),
    ('\xa0', '_'), ('\u2028', 'L'), ('\u2029', 'P')].lookup c

def escape (c : Char) : List Char :=
  match escapeLetter? c with
  | some letter => ['\\', letter]
  | none =>
    let n := c.toNat
    if n ≤ 0xFF then '\\' :: 'x' :: Text.hexUpper 2 n
    else if n ≤ 0xFFFF then '\\' :: 'u' :: Text.hexUpper 4 n
    else '\\' :: 'U' :: Text.hexUpper 8 n

def needsEscape (c : Char) : Bool := c == '"' || c == '\\' || c < ' ' || '~' < c

/-- A backslash at the end of a line, and one before a space that starts the next. -/
def foldDouble (indent : Nat) (p : Pen) (next : Option Char) : Pen :=
  let p := { (p.put ['\\']).indent indent with apart := false, margin := false }
  if next = some ' ' then p.put ['\\'] else p

/-- Writes a text in double quotes. `held` are the characters not yet written, last first; a line is
broken before a space or after an escape, but not before the second or the last character. -/
def writeDoubleFrom (broken : Bool) (indent : Nat) (first : Bool) (held : List Char) (p : Pen) :
    List Char → Pen
  | [] => p.put held.reverse
  | c :: rest =>
    let inside := !first && !rest.isEmpty && broken
    if needsEscape c then
      let p := (p.put held.reverse).put (escape c)
      let p := if inside && lineWidth + 1 < p.column then foldDouble indent p rest.head? else p
      writeDoubleFrom broken indent false [] p rest
    else if inside && (c == ' ' || held.isEmpty) && lineWidth < p.column + held.length then
      let p := foldDouble indent (p.put held.reverse) (some c)
      writeDoubleFrom broken indent false [c] p rest
    else writeDoubleFrom broken indent false (c :: held) p rest

def writeDouble (broken : Bool) (indent : Nat) (p : Pen) (cs : List Char) : Pen :=
  (writeDoubleFrom broken indent true [] (p.mark ['"']) cs).close ['"']

/-- Writes a text; the text of a key on the line of its value is not broken. -/
def writeText (key : Bool) (indent : Nat) (p : Pen) (s : String) : Pen :=
  let cs := s.toList
  if isPlain cs then writePlain (!key) indent p cs
  else if isSingle cs && !(key && hasBreak cs) then writeSingle (!key) indent p cs
  else writeDouble (!key) indent p cs

/-- Can a key stand on the line of its value? -/
def isSimpleKey (s : String) : Bool := s != "" && !hasBreak s.toList && s.length + 5 < 128

mutual

/-- Writes a value below a level: one mark and a space more than `indent`. `underKey` tells whether it
is the value of a key. -/
def writeValue (indent : Nat) (underKey : Bool) (p : Pen) : Json → Pen
  | .null => writePlain true (indent + 2) p "null".toList
  | .bool b => writePlain true (indent + 2) p (if b then "true".toList else "false".toList)
  | .int n => writePlain true (indent + 2) p (toString n).toList
  | .num x => writePlain true (indent + 2) p (floatLayout.text x).toList
  | .str s => writeText false (indent + 2) p s
  | .arr [] => (p.openMark ['[']).close [']']
  | .obj [] => (p.openMark ['\x7b']).close ['\x7d']
  | .arr (x :: xs) =>
    let inner := if underKey && !p.margin then indent else indent + 2
    writeItems inner p (x :: xs)
  | .obj (q :: qs) => writePairs (indent + 2) p (q :: qs)

def writeItems (indent : Nat) (p : Pen) : List Json → Pen
  | [] => p
  | x :: xs => writeItems indent (writeValue indent false ((p.indent indent).levelMark '-') x) xs

def writePairs (indent : Nat) (p : Pen) : List (String × Json) → Pen
  | [] => p
  | q :: qs => writePairs indent (writePair indent (p.indent indent) q) qs

/-- Writes a key and its value. A key that does not fit on the line of its value is marked. -/
def writePair (indent : Nat) (p : Pen) : String × Json → Pen
  | (k, x) =>
    if isSimpleKey k then
      writeValue indent true ((writeText true (indent + 2) p k).close [':']) x
    else
      let p := writeText false (indent + 2) (p.levelMark '?') k
      writeValue indent true ((p.indent indent).levelMark ':') x

end

/-- The YAML text of an object. -/
def print (pairs : Assoc Json) : String :=
  let p := match pairs with
    | [] => (Pen.start.openMark ['\x7b']).close ['\x7d']
    | _ => writePairs 0 .start pairs
  p.newline.text

end Tradeflow.Yaml
