/-
  A text as tokens. Indentation opens and closes levels. That a scalar is a key shows only at the
  colon behind it: every place where a key may start is remembered, and the token that announces the
  key is put in there later. Such a key stands on one line and is at most 1024 characters long.
-/
import Tradeflow.Yaml.Lexeme

namespace Tradeflow.Yaml

inductive Token where
  | directive (d : Directive)
  | documentStart
  | documentEnd
  /-- A list, or a mapping, starts at a new indentation. -/
  | listStart
  | mapStart
  /-- An indentation ends. -/
  | levelEnd
  | bracketOpen
  | bracketClose
  | braceOpen
  | braceClose
  | comma
  /-- An item of an indented list. -/
  | item
  | key
  | value
  | alias (name : String)
  | anchor (name : String)
  | tag (t : TagText)
  | scalar (plain : Bool) (text : List Char)
  /-- The text cannot be read on from here. -/
  | cut (flaw : Flaw)

/-- A place where a key may start. -/
structure KeySpot where
  /-- How many tokens stand before it. -/
  position : Nat
  /-- Would anything but a key be out of place? -/
  required : Bool
  index : Nat
  line : Nat
  column : Nat

structure Lexer where
  cursor : Cursor
  /-- How many brackets and braces are open. -/
  depth : Nat
  /-- The indentation of the current level, -1 outside of all. -/
  indent : Int
  /-- The indentations of the levels around it. -/
  outer : List Int
  /-- May a key start here? -/
  keyAllowed : Bool
  /-- The last place where a key may start, at each depth. -/
  spots : List (Nat × KeySpot)
  tokens : Array Token

namespace Lexer

def start (cs : List Char) : Lexer := ⟨.start cs, 0, -1, [], true, [], #[]⟩

def push (s : Lexer) (t : Token) : Lexer := { s with tokens := s.tokens.push t }

/-- Puts a token in before some others. -/
def insert (s : Lexer) (position : Nat) (t : Token) : Lexer :=
  { s with tokens := s.tokens.extract 0 position ++ #[t] ++ s.tokens.extract position s.tokens.size }

def moveTo (s : Lexer) (c : Cursor) : Lexer := { s with cursor := c }

def allowKey (s : Lexer) (b : Bool) : Lexer := { s with keyAllowed := b }

/-- Is the place too far back for a key that would end here? -/
def isStale (s : Lexer) (k : KeySpot) : Bool :=
  k.line != s.cursor.line || k.index + 1024 < s.cursor.index

/-- Forgets the places of some depths; none of them may have needed a key. -/
def dropSpots (s : Lexer) (p : Nat × KeySpot → Bool) : Except Flaw Lexer :=
  match s.spots.find? fun k => p k && k.2.required with
  | some k => .error (.text k.2.line k.2.column)
  | none => .ok { s with spots := s.spots.filter (!p ·) }

def dropStale (s : Lexer) : Except Flaw Lexer := s.dropSpots fun k => s.isStale k.2

/-- Forgets the place of the current depth. -/
def dropSpot (s : Lexer) : Except Flaw Lexer := s.dropSpots fun k => k.1 == s.depth

/-- Remembers that a key may start here. -/
def markSpot (s : Lexer) : Except Flaw Lexer :=
  if !s.keyAllowed then .ok s
  else
    let c := s.cursor
    let required := s.depth == 0 && s.indent == c.column
    s.dropSpot.map fun s =>
      { s with spots := (s.depth, ⟨s.tokens.size, required, c.index, c.line, c.column⟩) :: s.spots }

/-- Closes the levels that are indented further than a column. -/
def closeLevels (column : Int) : (levels : List Int) → Lexer → Lexer
  | [], s => s
  | level :: levels, s =>
    if column < s.indent then
      let s := s.push .levelEnd
      closeLevels column levels { s with indent := level, outer := levels }
    else s

def unindent (s : Lexer) (column : Int) : Lexer :=
  if s.depth == 0 then closeLevels column s.outer s else s

/-- Opens a level at a column, if it is further in. -/
def openLevel (s : Lexer) (column : Nat) : Lexer × Bool :=
  if s.indent < column then
    ({ s with indent := column, outer := s.indent :: s.outer }, true)
  else (s, false)

/-- Passes over blanks, comments and line ends. A key may start on a new line. -/
def skipBlank : (fuel : Nat) → Lexer → Lexer
  | 0, s => s
  | fuel + 1, s =>
    let c := s.cursor.skipSpaces
    let c := if c.isAt '#' then c.skipLine else c
    match c.lineEnd? with
    | none => s.moveTo c
    | some (_, c) =>
      let s := s.moveTo c
      skipBlank fuel (if s.depth == 0 then s.allowKey true else s)

/-- Ends all levels before something that stands between documents. -/
def leaveDocument (s : Lexer) : Except Flaw Lexer :=
  (s.unindent (-1)).dropSpot.map (·.allowKey false)

def readMark (s : Lexer) (t : Token) : Except Flaw Lexer :=
  s.leaveDocument.map fun s => (s.moveTo (s.cursor.skip 3)).push t

def readDirective (s : Lexer) : Except Flaw Lexer := do
  let s ← s.leaveDocument
  let (d, c) ← Yaml.readDirective s.cursor.next
  return (s.moveTo c).push (.directive d)

/-- An opening bracket or brace. -/
def readOpen (s : Lexer) (t : Token) : Except Flaw Lexer :=
  s.markSpot.map fun s =>
    let s := (s.moveTo s.cursor.next).push t
    { s.allowKey true with depth := s.depth + 1 }

/-- A closing bracket or brace; there has to be an open one. -/
def readClose (s : Lexer) (t : Token) : Except Flaw Lexer :=
  if s.depth == 0 then .error s.cursor.flaw
  else
    s.dropSpot.map fun s =>
      let s := (s.moveTo s.cursor.next).push t
      { s.allowKey false with depth := s.depth - 1 }

def readComma (s : Lexer) : Except Flaw Lexer :=
  s.dropSpot.map fun s => ((s.moveTo s.cursor.next).push .comma).allowKey true

/-- A mark at which a level may start: outside of brackets it stands where a key may start. -/
def startLevel (s : Lexer) (t : Token) : Except Flaw Lexer :=
  if s.depth != 0 then .ok s
  else if !s.keyAllowed then .error s.cursor.flaw
  else
    let (s, opened) := s.openLevel s.cursor.column
    .ok (if opened then s.push t else s)

def readItem (s : Lexer) : Except Flaw Lexer := do
  let s ← s.startLevel .listStart
  let s ← s.dropSpot
  return ((s.moveTo s.cursor.next).push .item).allowKey true

def readKey (s : Lexer) : Except Flaw Lexer := do
  let s ← s.startLevel .mapStart
  let s ← s.dropSpot
  return ((s.moveTo s.cursor.next).push .key).allowKey (s.depth == 0)

/-- A colon: what stands at the remembered place is the key, if there is such a place. -/
def readValue (s : Lexer) : Except Flaw Lexer := do
  let s ← match s.spots.lookup s.depth with
    | some k =>
      let s := { s with spots := s.spots.filter (·.1 != s.depth) }
      let s := s.insert k.position .key
      let (s, opened) := if s.depth == 0 then s.openLevel k.column else (s, false)
      pure ((if opened then s.insert k.position .mapStart else s).allowKey false)
    | none => do
      let s ← s.startLevel .mapStart
      (s.allowKey (s.depth == 0)).dropSpot
  return (s.moveTo s.cursor.next).push .value

/-- Something that may be a key: an alias, the properties of a node, or a scalar. -/
def readNodePart (s : Lexer) (read : Cursor → Except Flaw (Token × Cursor)) : Except Flaw Lexer := do
  let s ← s.markSpot
  let (t, c) ← read s.cursor
  return ((s.moveTo c).push t).allowKey false

def readPlain (s : Lexer) : Except Flaw Lexer := do
  let s ← s.markSpot
  let p := Yaml.readPlain (s.depth != 0) (s.indent + 1) s.cursor
  return ((s.moveTo p.cursor).push (.scalar true p.text)).allowKey p.lineEnded

def readBlock (s : Lexer) (folded : Bool) : Except Flaw Lexer := do
  let s ← (s.allowKey true).dropSpot
  let (text, c) ← Yaml.readBlock folded s.indent s.cursor
  return (s.moveTo c).push (.scalar false text)

/-- Can a scalar without quotes start here? -/
def startsPlain (s : Lexer) (x : Char) : Bool :=
  !(isGap x || "-?:,[]\x7b\x7d#&*!|>\x27\"%@\x60".toList.contains x)
    || (!s.cursor.next.atGap && (x == '-' || (s.depth == 0 && (x == '?' || x == ':'))))

/-- Reads the token that starts with a character. -/
def readToken (s : Lexer) (x : Char) : Except Flaw Lexer :=
  let c := s.cursor
  let alone := c.next.atGap
  let inFlow := s.depth != 0
  if x == '%' && c.column == 0 then s.readDirective
  else if c.column == 0 && c.atTriple '-' then s.readMark .documentStart
  else if c.column == 0 && c.atTriple '.' then s.readMark .documentEnd
  else if x == '[' then s.readOpen .bracketOpen
  else if x == '\x7b' then s.readOpen .braceOpen
  else if x == ']' then s.readClose .bracketClose
  else if x == '\x7d' then s.readClose .braceClose
  else if x == ',' then s.readComma
  else if x == '-' && alone then s.readItem
  else if x == '?' && (inFlow || alone) then s.readKey
  else if x == ':' && (inFlow || alone) then s.readValue
  else if x == '*' then
    s.readNodePart fun c => (readName c.next).map fun (name, c) => (.alias name, c)
  else if x == '&' then
    s.readNodePart fun c => (readName c.next).map fun (name, c) => (.anchor name, c)
  else if x == '!' then
    s.readNodePart fun c => (readTag c).map fun (t, c) => (.tag t, c)
  else if (x == '|' || x == '>') && !inFlow then s.readBlock (x == '>')
  else if x == '\x27' || x == '"' then
    s.readNodePart fun c => (readQuoted (x == '"') c).map fun (text, c) => (.scalar false text, c)
  else if s.startsPlain x then s.readPlain
  else .error c.flaw

/-- Reads the next token, or ends all levels at the end of the text; the flag tells whether there is
more. -/
def step (s : Lexer) : Except Flaw (Lexer × Bool) := do
  let s ← (skipBlank (s.cursor.rest.length + 1) s).dropStale
  let s := s.unindent s.cursor.column
  match s.cursor.peek with
  | none => return (← s.leaveDocument, false)
  | some x => return (← s.readToken x, true)

/-- Reads tokens up to the end of the text, or to where it cannot be read on. -/
def run : (fuel : Nat) → Lexer → Array Token
  | 0, s => s.tokens.push (.cut s.cursor.flaw)
  | fuel + 1, s =>
    match s.step with
    | .error flaw => s.tokens.push (.cut flaw)
    | .ok (s, true) => run fuel s
    | .ok (s, false) => s.tokens

end Lexer

/-- May a character stand in a text? -/
def isAllowed (c : Char) : Bool :=
  c == '\t' || c == '\n' || c == '\r' || (' ' ≤ c && c ≤ '~') || c == '\x85'
    || ('\xa0' ≤ c && c != '\uFFFE' && c != '\uFFFF')

/-- Every line end of two characters, and every carriage return, as a line feed. -/
def unifyLines : List Char → List Char
  | '\r' :: '\n' :: rest => '\n' :: unifyLines rest
  | '\r' :: rest => '\n' :: unifyLines rest
  | c :: rest => c :: unifyLines rest
  | [] => []

/-- The tokens of a text. A byte order mark in front does not count. -/
def tokens (s : String) : List Token :=
  let cs := unifyLines s.toList
  match cs.find? (!isAllowed ·) with
  | some c => [.cut (.character c)]
  | none =>
    let start := Lexer.start cs
    let start := if start.cursor.isAt '\uFEFF' then start.moveTo start.cursor.next else start
    (Lexer.run (cs.length + 1) start).toList

end Tradeflow.Yaml
