/-
  The pieces of text that tokens are made of: names, tags, directives, and scalars without quotes, in
  quotes and in blocks. Each piece is read at a cursor, which is given back behind it.
-/
import Tradeflow.Yaml.Cursor
import Tradeflow.Text.Encoding

namespace Tradeflow.Yaml

/-- The name of an anchor, after its mark. -/
def readName (c : Cursor) : Except Flaw (String × Cursor) :=
  let (name, c) := c.span isNameChar
  if name.isEmpty then .error c.flaw
  else if c.peek.all fun x => isGap x || "?:,]\x7d%@\x60".toList.contains x then
    .ok (String.ofList name, c)
  else .error c.flaw

/-- A number of a directive. -/
def readDirectiveNumber (c : Cursor) : Except Flaw (Nat × Cursor) :=
  let (ds, c) := c.span Json.isDigit
  if ds.isEmpty then .error c.flaw else .ok (Json.digitsValue ds, c)

/-- A handle of tags: `!`, `!!` or a name between two such marks. -/
def readHandle (c : Cursor) : Except Flaw (String × Cursor) :=
  if !c.isAt '!' then .error c.flaw
  else
    let (name, after) := c.next.span isNameChar
    if name.isEmpty && after.isAt ' ' then .ok ("!", after)
    else if after.isAt '!' then .ok (String.ofList ('!' :: name ++ ['!']), after.next)
    else .error after.flaw

def isUriChar (c : Char) : Bool :=
  c.isAlphanum || "-;/?:@&=+$,_.!~*\x27()[]".toList.contains c

/-- The bytes of some escapes, each two hexadecimal digits after a percent sign. -/
def readUriBytes : (fuel : Nat) → Cursor → Except Flaw (List UInt8 × Cursor)
  | 0, c => .ok ([], c)
  | fuel + 1, c =>
    if !c.isAt '%' then .ok ([], c)
    else
      match (c.rest.drop 1).take 2 with
      | [a, b] =>
        match Text.hexValue? [a, b] with
        | some n => (readUriBytes fuel (c.skip 3)).map fun (bs, c) => (n.toUInt8 :: bs, c)
        | none => .error c.flaw
      | _ => .error c.flaw

/-- The characters of a tag name, with escapes. -/
def readUriChars : (fuel : Nat) → Cursor → Except Flaw (List Char × Cursor)
  | 0, c => .ok ([], c)
  | fuel + 1, c =>
    if c.isAt '%' then do
      let (bytes, after) ← readUriBytes c.rest.length c
      match String.fromUTF8? (ByteArray.mk bytes.toArray) with
      | some s => (readUriChars fuel after).map fun (cs, c) => (s.toList ++ cs, c)
      | none => .error c.flaw
    else
      let (run, after) := c.span isUriChar
      if run.isEmpty then .ok ([], c)
      else (readUriChars fuel after).map fun (cs, c) => (run ++ cs, c)

def readUri (c : Cursor) : Except Flaw (String × Cursor) := do
  let (cs, after) ← readUriChars (c.rest.length + 1) c
  if cs.isEmpty then .error c.flaw else .ok (String.ofList cs, after)

/-- A tag as written: a handle, if there is one, and what follows it. -/
structure TagText where
  handle : Option String
  suffix : String

/-- A tag, from its mark on. A blank or the end must follow. -/
def readTag (c : Cursor) : Except Flaw (TagText × Cursor) := do
  let (tag, after) ←
    if c.next.isAt '<' then do
      let (uri, after) ← readUri (c.skip 2)
      if after.isAt '>' then pure (TagText.mk none uri, after.next) else .error after.flaw
    else if c.next.atGap then pure (TagText.mk none "!", c.next)
    else
      let word := c.next.rest.takeWhile fun x => !(x == ' ' || isBreak x)
      if word.contains '!' then do
        let (handle, after) ← readHandle c
        let (uri, after) ← readUri after
        pure (TagText.mk (some handle) uri, after)
      else do
        let (uri, after) ← readUri c.next
        pure (TagText.mk (some "!") uri, after)
  if after.atBreak || after.isAt ' ' then .ok (tag, after) else .error after.flaw

inductive Directive where
  | version (major minor : Nat)
  | tag (handle lead : String)
  | other (name : String)

/-- The text of a directive after its mark, up to the end of the line. -/
def readDirective (c : Cursor) : Except Flaw (Directive × Cursor) := do
  let (name, c) := c.span isNameChar
  if name.isEmpty || !(c.atBreak || c.isAt ' ') then .error c.flaw
  let (directive, c) ←
    if name == "YAML".toList then do
      let (major, c) ← readDirectiveNumber c.skipSpaces
      if !c.isAt '.' then .error c.flaw
      let (minor, c) ← readDirectiveNumber c.next
      if !(c.atBreak || c.isAt ' ') then .error c.flaw
      pure (Directive.version major minor, c)
    else if name == "TAG".toList then do
      let (handle, c) ← readHandle c.skipSpaces
      if !c.isAt ' ' then .error c.flaw
      let (lead, c) ← readUri c.skipSpaces
      if !(c.atBreak || c.isAt ' ') then .error c.flaw
      pure (Directive.tag handle lead, c)
    else pure (Directive.other (String.ofList name), c.skipLine)
  return (directive, ← c.endLine)

/-- The next characters of a scalar without quotes. It ends at a gap and at a colon before a gap;
inside brackets also at their marks. -/
def plainRun (inFlow : Bool) : List Char → List Char
  | [] => []
  | c :: rest =>
    let ends := isGap c
      || (c == ':' && rest.head?.all fun d => isGap d || (inFlow && ",[]\x7b\x7d".toList.contains d))
      || (inFlow && ",?[]\x7b\x7d".toList.contains c)
    if ends then [] else c :: plainRun inFlow rest

/-- What separates two runs of a scalar without quotes; nothing if the scalar ends. The flag tells
whether a line end was passed. -/
def plainGap (c : Cursor) : List Char × Cursor × Bool :=
  let (spaces, c) := c.span (· == ' ')
  match c.lineEnd? with
  | none => (spaces, c, false)
  | some (first, c) =>
    if c.atDocumentMark then ([], c, true)
    else
      let (others, c, stopped) := skipLineEnds (· == ' ') (·.atDocumentMark) (c.rest.length + 1) c
      (if stopped then [] else foldBreaks first others, c, true)

/-- A scalar without quotes: its text, the place after it, and whether it ended with a line. -/
structure PlainText where
  text : List Char
  cursor : Cursor
  lineEnded : Bool

/-- Reads the runs of a scalar without quotes, whose further lines start at `indent` or later. `gap`
separates the next run from the text before. -/
def readPlainFrom (inFlow : Bool) (indent : Int) : (fuel : Nat) → PlainText → (gap : List Char) →
    PlainText
  | 0, p, _ => p
  | fuel + 1, p, gap =>
    let run := plainRun inFlow p.cursor.rest
    if p.cursor.isAt '#' || run.isEmpty then p
    else
      let (nextGap, c, lineEnded) := plainGap (p.cursor.skip run.length)
      let p : PlainText := ⟨p.text ++ gap ++ run, c, lineEnded⟩
      if nextGap.isEmpty || c.isAt '#' || (!inFlow && (c.column : Int) < indent) then p
      else readPlainFrom inFlow indent fuel p nextGap

def readPlain (inFlow : Bool) (indent : Int) (c : Cursor) : PlainText :=
  readPlainFrom inFlow indent (c.rest.length + 1) ⟨[], c, false⟩ []

/-- What a one-letter escape in double quotes stands for. -/
def escaped? (c : Char) : Option Char :=
  [('0', '\x00'), ('a', '\x07'), ('b', '\x08'), ('t', '\t'), ('\t', '\t'), ('n', '\n'),
    ('v', '\x0b'), ('f', '\x0c'), ('r', '\r'), ('e', '\x1b'), (' ', ' '), ('"', '"'),
    ('\\', '\\'), ('/', '/'), ('N', '\x85'), ('_', '\xa0'), ('L', '\u2028'),
    ('P', '\u2029')].lookup c

/-- How many hexadecimal digits follow the letter of an escape. -/
def escapeDigits? (c : Char) : Option Nat := [('x', 2), ('u', 4), ('U', 8)].lookup c

/-- Line ends inside quotes, where no mark between documents may stand. -/
def quotedBreaks : (fuel : Nat) → Cursor → Except Flaw (List Char × Cursor)
  | 0, c => .ok ([], c)
  | fuel + 1, c =>
    if c.atDocumentMark then .error c.flaw
    else
      let c := c.skipWhile fun x => x == ' ' || x == '\t'
      match c.lineEnd? with
      | none => .ok ([], c)
      | some (x, c) => (quotedBreaks fuel c).map fun (xs, c) => (x :: xs, c)

/-- Blanks and line ends inside quotes. -/
def quotedGap (c : Cursor) : Except Flaw (List Char × Cursor) :=
  let (blanks, c) := c.span fun x => x == ' ' || x == '\t'
  match c.peek, c.lineEnd? with
  | none, _ => .error c.flaw
  | _, none => .ok (blanks, c)
  | _, some (first, c) =>
    (quotedBreaks (c.rest.length + 1) c).map fun (others, c) => (foldBreaks first others, c)

/-- An escape in double quotes, after its backslash. -/
def readEscape (c : Cursor) : Except Flaw (List Char × Cursor) :=
  match c.peek with
  | none => .error c.flaw
  | some x =>
    match escaped? x, escapeDigits? x, c.lineEnd? with
    | some y, _, _ => .ok ([y], c.next)
    | none, some count, _ =>
      let ds := c.next.rest.take count
      match Text.hexValue? ds with
      | some n =>
        if ds.length < count then .error c.flaw
        else if 0x10FFFF < n then .error .codePoint
        else .ok ([Text.charOf n], c.skip (count + 1))
      | none => .error c.flaw
    | none, none, some (_, c) => quotedBreaks (c.rest.length + 1) c
    | none, none, none => .error c.flaw

/-- Reads up to the closing quote. `done` holds the characters read so far, last first. -/
def readQuotedFrom (double : Bool) : (fuel : Nat) → (done : List Char) → Cursor →
    Except Flaw (List Char × Cursor)
  | 0, _, c => .error c.flaw
  | fuel + 1, done, c =>
    match c.peek with
    | none => .error c.flaw
    | some x =>
      if isGap x then
        match quotedGap c with
        | .ok (gap, c) => readQuotedFrom double fuel (gap.reverse ++ done) c
        | .error e => .error e
      else if double && x == '\\' then
        match readEscape c.next with
        | .ok (cs, c) => readQuotedFrom double fuel (cs.reverse ++ done) c
        | .error e => .error e
      else if !double && x == '\x27' && c.next.isAt '\x27' then
        readQuotedFrom double fuel ('\x27' :: done) (c.skip 2)
      else if x == (if double then '"' else '\x27') then .ok (done.reverse, c.next)
      else readQuotedFrom double fuel (x :: done) c.next

/-- A scalar in quotes, from its opening quote on. -/
def readQuoted (double : Bool) (c : Cursor) : Except Flaw (List Char × Cursor) :=
  readQuotedFrom double (c.rest.length + 1) [] c.next

/-- What becomes of the line ends that close a block: dropped, one kept, or all. -/
inductive Chomping where
  | strip
  | clip
  | keep
  deriving DecidableEq, Repr

/-- The marks behind the mark of a block: what becomes of its last line ends, and how far it is
indented. -/
def readBlockMarks (c : Cursor) : Except Flaw ((Chomping × Option Nat) × Cursor) :=
  let chomping? (c : Cursor) : Option Chomping :=
    if c.isAt '+' then some .keep else if c.isAt '-' then some .strip else none
  let digit? (c : Cursor) : Option Nat :=
    c.peek.bind fun x => if Json.isDigit x then some (x.toNat - 48) else none
  let (chomping, width, after) :=
    match chomping? c, digit? c with
    | some k, _ =>
      match digit? c.next with
      | some n => (k, some n, c.skip 2)
      | none => (k, none, c.next)
    | none, some n =>
      match chomping? c.next with
      | some k => (k, some n, c.skip 2)
      | none => (.clip, some n, c.next)
    | none, none => (.clip, none, c)
  if width == some 0 then .error c.flaw
  else if after.atBreak || after.isAt ' ' then .ok ((chomping, width), after)
  else .error after.flaw

/-- The empty lines before a block, and the largest column that blanks reach there. -/
def blockStart : (fuel : Nat) → (widest : Nat) → Cursor → List Char × Nat × Cursor
  | 0, widest, c => ([], widest, c)
  | fuel + 1, widest, c =>
    let c := c.skipSpaces
    let widest := max widest c.column
    match c.lineEnd? with
    | none => ([], widest, c)
    | some (x, c) =>
      let (xs, widest, c) := blockStart fuel widest c
      (x :: xs, widest, c)

/-- Blanks up to a column. -/
def skipTo (column : Nat) (c : Cursor) : Cursor :=
  c.skip (min (c.rest.takeWhile (· == ' ')).length (column - c.column))

/-- Empty lines inside a block, and the indentation of the line after them. -/
def blockBreaks (indent : Nat) : (fuel : Nat) → Cursor → List Char × Cursor
  | 0, c => ([], c)
  | fuel + 1, c =>
    let c := skipTo indent c
    match c.lineEnd? with
    | none => ([], c)
    | some (x, c) =>
      let (xs, c) := blockBreaks indent fuel c
      (x :: xs, c)

/-- Reads the lines of a block. `done` is its text so far, `breaks` the line ends before this line. At
the end the last line end is given apart from the ones after it. -/
def blockLines (folded : Bool) (indent : Nat) : (fuel : Nat) → (done breaks : List Char) → Cursor →
    List Char × List Char × List Char × Cursor
  | 0, done, breaks, c => (done, [], breaks, c)
  | fuel + 1, done, breaks, c =>
    let bare := !(c.isAt ' ' || c.isAt '\t')
    let (line, c) := c.span (!isBreak ·)
    let done := done ++ breaks ++ line
    let (lineEnd, c) := match c.lineEnd? with
      | some (x, c) => ([x], c)
      | none => ([], c)
    let (breaks, c) := blockBreaks indent (c.rest.length + 1) c
    if c.column == indent && c.peek.isSome then
      let joined :=
        if folded && lineEnd == ['\n'] && bare && !(c.isAt ' ' || c.isAt '\t') then
          if breaks.isEmpty then [' '] else []
        else lineEnd
      blockLines folded indent fuel (done ++ joined) breaks c
    else (done, lineEnd, breaks, c)

/-- A scalar in a block, from its mark on. `parent` is the indentation around it. -/
def readBlock (folded : Bool) (parent : Int) (c : Cursor) : Except Flaw (List Char × Cursor) := do
  let ((chomping, width), c) ← readBlockMarks c.next
  let c ← c.endLine
  let least := max 1 (parent + 1).toNat
  let (breaks, indent, c) :=
    match width with
    | some n =>
      let indent := least + n - 1
      let (breaks, c) := blockBreaks indent (c.rest.length + 1) c
      (breaks, indent, c)
    | none =>
      let (breaks, widest, c) := blockStart (c.rest.length + 1) 0 c
      (breaks, max least widest, c)
  let (text, lineEnd, breaks, c) :=
    if c.column == indent && c.peek.isSome then
      blockLines folded indent (c.rest.length + 1) [] breaks c
    else ([], [], breaks, c)
  match chomping with
  | .strip => return (text, c)
  | .clip => return (text ++ lineEnd, c)
  | .keep => return (text ++ lineEnd ++ breaks, c)

end Tradeflow.Yaml
