/-
  A place in a text: what is left of it, and the line and column where that starts. Line ends are the
  line feed and the three further ends of a line that Unicode knows. At such a place a text may turn
  out to be no YAML document, or none that is understood (`Flaw`).
-/
import Tradeflow.Yaml.Scalar

namespace Tradeflow.Yaml

/-- Why a text is no document, or none that is understood. -/
inductive Flaw where
  /-- A character that no text may hold. -/
  | character (c : Char)
  /-- Something may not stand, or is missing, at this place; lines and columns count from zero. -/
  | text (line column : Nat)
  /-- An escape names a character that does not exist. -/
  | codePoint
  /-- A token stands where it makes no sense. -/
  | order
  | version (major : Nat)
  | repeatedDirective
  | unknownHandle (handle : String)
  | unknownAlias (name : String)
  | repeatedAnchor (name : String)
  /-- More than one document. -/
  | documents
  /-- A node does not fit its tag, or the tag is not known. -/
  | tag (tag : Tag)
  /-- A list or a mapping stands as a key. -/
  | key
  /-- Something else than mappings is merged into a mapping. -/
  | merge
  | scalar (cause : Misfit)

def isBreak (c : Char) : Bool :=
  c == '\n' || c == '\x85' || c == '\u2028' || c == '\u2029'

/-- Does a character separate words? -/
def isGap (c : Char) : Bool := c == ' ' || c == '\t' || c == '\r' || isBreak c

/-- Is a character a letter, a digit, a hyphen or an underscore? -/
def isNameChar (c : Char) : Bool := c.isAlphanum || c == '-' || c == '_'

structure Cursor where
  rest : List Char
  index : Nat
  line : Nat
  column : Nat

namespace Cursor

def start (cs : List Char) : Cursor := ⟨cs, 0, 0, 0⟩

def peek (c : Cursor) : Option Char := c.rest.head?

/-- Is this character the next one? -/
def isAt (c : Cursor) (x : Char) : Bool := c.peek == some x

/-- Does the text end here, or the word? -/
def atGap (c : Cursor) : Bool := c.peek.all isGap

/-- Does the text end here, or the line? -/
def atBreak (c : Cursor) : Bool := c.peek.all isBreak

/-- The place after the next character. A byte order mark takes no column. -/
def next (c : Cursor) : Cursor :=
  match c.rest with
  | [] => c
  | x :: rest =>
    if isBreak x then ⟨rest, c.index + 1, c.line + 1, 0⟩
    else ⟨rest, c.index + 1, c.line, if x == '\uFEFF' then c.column else c.column + 1⟩

def skip (c : Cursor) : Nat → Cursor
  | 0 => c
  | n + 1 => c.next.skip n

/-- The characters of a kind that come first, and the place after them. -/
def span (c : Cursor) (p : Char → Bool) : List Char × Cursor :=
  let run := c.rest.takeWhile p
  (run, c.skip run.length)

def skipWhile (c : Cursor) (p : Char → Bool) : Cursor := (c.span p).2

def skipSpaces (c : Cursor) : Cursor := c.skipWhile (· == ' ')

/-- Up to the end of the line. -/
def skipLine (c : Cursor) : Cursor := c.skipWhile (!isBreak ·)

def flaw (c : Cursor) : Flaw := .text c.line c.column

/-- A line end and the place after it. The separators of lines and paragraphs stay as they are. -/
def lineEnd? (c : Cursor) : Option (Char × Cursor) :=
  match c.peek with
  | some x =>
    if !isBreak x then none
    else some (if x == '\u2028' || x == '\u2029' then x else '\n', c.next)
  | none => none

/-- Do three of the same character stand here as a word of their own? -/
def atTriple (c : Cursor) (x : Char) : Bool :=
  c.rest.take 3 == [x, x, x] && (c.rest.drop 3).head?.all isGap

/-- Does a mark between documents stand here? -/
def atDocumentMark (c : Cursor) : Bool := c.atTriple '-' || c.atTriple '.'

/-- The rest of a line that may hold nothing but a comment, and its end. -/
def endLine (c : Cursor) : Except Flaw Cursor :=
  let c := c.skipSpaces
  let c := if c.isAt '#' then c.skipLine else c
  if c.atBreak then .ok c.next else .error c.flaw

end Cursor

/-- Line ends that come one after another, each with the blanks before the next line. -/
def skipLineEnds (blank : Char → Bool) (stop : Cursor → Bool) :
    (fuel : Nat) → Cursor → List Char × Cursor × Bool
  | 0, c => ([], c, false)
  | fuel + 1, c =>
    let c := c.skipWhile blank
    match c.lineEnd? with
    | none => ([], c, false)
    | some (x, c) =>
      if stop c then ([x], c, true)
      else
        let (xs, c, stopped) := skipLineEnds blank stop fuel c
        (x :: xs, c, stopped)

/-- What a line end and the line ends after it stand for inside a scalar: a single line end is a
space, of several the first is dropped. -/
def foldBreaks (first : Char) (others : List Char) : List Char :=
  if first != '\n' then first :: others
  else if others.isEmpty then [' ']
  else others

end Tradeflow.Yaml
