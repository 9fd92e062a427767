/-
  Text read as a document. The reader works on what is left of the text; where it stops, what is left
  there says how far it came, and the message gives line, column and offset of that place.

  Its domain are texts that name whole characters. An escape may also name half of a surrogate pair
  without the other half; the strings of documents have no place for it, so the replacement character
  stands for it here, and what is said about such texts says nothing about the half itself.
-/
import Tradeflow.Json.Basic
import Tradeflow.Text.Basic
import Tradeflow.Text.Encoding

namespace Tradeflow.Json

/-- Why a text is not a document. -/
inductive Cause where
  | value
  | propertyName
  | colon
  | comma
  | unterminated
  | control
  | escape
  | unicodeEscape
  | extra
  | byteOrderMark
  deriving DecidableEq, Repr

def Cause.text : Cause → String
  | .value => "Expecting value"
  | .propertyName => "Expecting property name enclosed in double quotes"
  | .colon => "Expecting \x27:\x27 delimiter"
  | .comma => "Expecting \x27,\x27 delimiter"
  | .unterminated => "Unterminated string starting at"
  | .control => "Invalid control character at"
  | .escape => "Invalid \\escape"
  | .unicodeEscape => "Invalid \\uXXXX escape"
  | .extra => "Extra data"
  | .byteOrderMark => "Unexpected UTF-8 BOM (decode using utf-8-sig)"

/-- What is wrong, and what was left of the text there. -/
structure Stop where
  cause : Cause
  rest : List Char

abbrev Step (α : Type) := Except Stop (α × List Char)

def isSpace (c : Char) : Bool := c == ' ' || c == '\t' || c == '\n' || c == '\r'

def skipSpace (cs : List Char) : List Char := cs.dropWhile isSpace

def isDigit (c : Char) : Bool := '0' ≤ c && c ≤ '9'

/-- The value of a run of decimal digits. -/
def digitsValue (cs : List Char) : Nat := cs.foldl (fun n c => n * 10 + (c.toNat - 48)) 0

/-- The value of the first four characters as hexadecimal digits; a fifth character must follow. -/
def hex4? : List Char → Option Nat
  | a :: b :: c :: d :: _ :: _ => Text.hexValue? [a, b, c, d]
  | _ => none

/-- The character that a one-letter escape stands for. -/
def escaped? : Char → Option Char
  | '"' => some '"'
  | '\\' => some '\\'
  | '/' => some '/'
  | 'b' => some '\x08'
  | 'f' => some '\x0c'
  | 'n' => some '\n'
  | 'r' => some '\r'
  | 't' => some '\t'
  | _ => none

/-- The second half of a pair of escapes, when the first half `high` opens one. -/
def lowHalf? (high : Nat) : List Char → Except Stop (Option Nat)
  | '\\' :: 'u' :: rest =>
    if 0xD800 ≤ high ∧ high < 0xDC00 ∧ !(rest.drop 4).isEmpty then
      match hex4? rest with
      | none => .error ⟨.unicodeEscape, 'u' :: rest⟩
      | some low => if 0xDC00 ≤ low ∧ low < 0xE000 then .ok (some low) else .ok none
    else .ok none
  | _ => .ok none

/-- The character that an escape stands for, the replacement character if it names half of a pair alone,
and how many characters the escape takes after its backslash. `opening` is the text from the opening
quote on. -/
def readEscape (opening : List Char) (cs : List Char) : Except Stop (Char × Nat) :=
  match cs with
  | [] => .error ⟨.unterminated, opening⟩
  | 'u' :: digits =>
    match hex4? digits with
    | none => .error ⟨.unicodeEscape, cs⟩
    | some high =>
      match lowHalf? high (digits.drop 4) with
      | .error stop => .error stop
      | .ok (some low) => .ok (Char.ofNat (0x10000 + (high - 0xD800) * 0x400 + (low - 0xDC00)), 11)
      | .ok none => .ok (Text.charOf high, 5)
  | e :: _ =>
    match escaped? e with
    | some c => .ok (c, 1)
    | none => .error ⟨.escape, '\\' :: cs⟩

/-- Reads up to the closing quote, passing over the first `skip` characters. `opening` is the text
from the opening quote on, `done` holds the characters read so far, last first. -/
def readChars (opening : List Char) : (skip : Nat) → (done : List Char) → List Char → Step String
  | _, _, [] => .error ⟨.unterminated, opening⟩
  | skip + 1, done, _ :: rest => readChars opening skip done rest
  | 0, done, c :: rest =>
    if c = '"' then .ok (String.ofList done.reverse, rest)
    else if c = '\\' then
      match readEscape opening rest with
      | .error stop => .error stop
      | .ok (c, taken) => readChars opening taken (c :: done) rest
    else if c.toNat < 0x20 then .error ⟨.control, c :: rest⟩
    else readChars opening 0 (c :: done) rest

/-- Reads a string whose opening quote is the first character. -/
def readString (cs : List Char) : Step String :=
  match cs with
  | '"' :: rest => readChars cs 0 [] rest
  | _ => .error ⟨.propertyName, cs⟩

/-- The digits before the point: a single zero, or digits that do not start with one. -/
def wholeDigits : List Char → Option (List Char × List Char)
  | '0' :: rest => some (['0'], rest)
  | cs =>
    let ds := cs.takeWhile isDigit
    if ds.isEmpty then none else some (ds, cs.dropWhile isDigit)

/-- The digits after a point, if a point and a digit follow. -/
def fractionDigits : List Char → List Char × List Char
  | '.' :: rest =>
    let ds := rest.takeWhile isDigit
    if ds.isEmpty then ([], '.' :: rest) else (ds, rest.dropWhile isDigit)
  | cs => ([], cs)

/-- An exponent, if a whole one follows. -/
def exponentPart (cs : List Char) : Option Int × List Char :=
  match cs with
  | [] => (none, cs)
  | c :: rest =>
    if c = 'e' ∨ c = 'E' then
      let (negative, digits) := match rest with
        | '-' :: r => (true, r)
        | '+' :: r => (false, r)
        | r => (false, r)
      let ds := digits.takeWhile isDigit
      if ds.isEmpty then (none, cs)
      else
        let n : Int := digitsValue ds
        (some (if negative then -n else n), digits.dropWhile isDigit)
    else (none, cs)

/-- Reads a number. One with a point or an exponent is a double, any other a whole number. -/
def readNumber (cs : List Char) : Step Json :=
  let (negative, body) := match cs with
    | '-' :: rest => (true, rest)
    | _ => (false, cs)
  match wholeDigits body with
  | none => .error ⟨.value, cs⟩
  | some (whole, rest) =>
    let (fraction, rest) := fractionDigits rest
    let (exponent, rest) := exponentPart rest
    if fraction.isEmpty ∧ exponent.isNone then
      let n : Int := digitsValue whole
      .ok (.int (if negative then -n else n), rest)
    else
      let e : Int := exponent.getD 0 - fraction.length
      .ok (.num (Double.ofDecimal negative (digitsValue (whole ++ fraction)) e), rest)

def notANumber : Float := 0.0 / 0.0

def infinity (negative : Bool) : Float := Double.assemble negative (pow2 52) 2000

/-- Reads a literal or a number. -/
def readAtom (cs : List Char) : Step Json :=
  match cs with
  | 'n' :: 'u' :: 'l' :: 'l' :: rest => .ok (.null, rest)
  | 't' :: 'r' :: 'u' :: 'e' :: rest => .ok (.bool true, rest)
  | 'f' :: 'a' :: 'l' :: 's' :: 'e' :: rest => .ok (.bool false, rest)
  | 'N' :: 'a' :: 'N' :: rest => .ok (.num notANumber, rest)
  | 'I' :: 'n' :: 'f' :: 'i' :: 'n' :: 'i' :: 't' :: 'y' :: rest => .ok (.num (infinity false), rest)
  | '-' :: 'I' :: 'n' :: 'f' :: 'i' :: 'n' :: 'i' :: 't' :: 'y' :: rest =>
    .ok (.num (infinity true), rest)
  | _ => readNumber cs

mutual

/-- Reads one value from the first character on. -/
def readValue : Nat → List Char → Step Json
  | 0, cs => .error ⟨.value, cs⟩
  | fuel + 1, cs =>
    match cs with
    | '"' :: _ =>
      match readString cs with
      | .error stop => .error stop
      | .ok (s, rest) => .ok (.str s, rest)
    | '[' :: rest =>
      match skipSpace rest with
      | ']' :: after => .ok (.arr [], after)
      | items =>
        match readItems fuel items with
        | .error stop => .error stop
        | .ok (xs, after) => .ok (.arr xs, after)
    | '{' :: rest =>
      match skipSpace rest with
      | '}' :: after => .ok (.obj [], after)
      | pairs =>
        match readPairs fuel pairs with
        | .error stop => .error stop
        | .ok (ps, after) => .ok (.obj (Assoc.ofPairs ps), after)
    | _ => readAtom cs

/-- Reads the items of an array up to its end. -/
def readItems : Nat → List Char → Step (List Json)
  | 0, cs => .error ⟨.value, cs⟩
  | fuel + 1, cs =>
    match readValue fuel cs with
    | .error stop => .error stop
    | .ok (x, rest) =>
      match skipSpace rest with
      | ']' :: after => .ok ([x], after)
      | ',' :: after =>
        match readItems fuel (skipSpace after) with
        | .error stop => .error stop
        | .ok (xs, after) => .ok (x :: xs, after)
      | after => .error ⟨.comma, after⟩

/-- Reads the pairs of an object up to its end. -/
def readPairs : Nat → List Char → Step (List (String × Json))
  | 0, cs => .error ⟨.propertyName, cs⟩
  | fuel + 1, cs =>
    match readString cs with
    | .error stop => .error stop
    | .ok (key, rest) =>
      match skipSpace rest with
      | ':' :: rest =>
        match readValue fuel (skipSpace rest) with
        | .error stop => .error stop
        | .ok (x, rest) =>
          match skipSpace rest with
          | '}' :: after => .ok ([(key, x)], after)
          | ',' :: after =>
            match readPairs fuel (skipSpace after) with
            | .error stop => .error stop
            | .ok (ps, after) => .ok ((key, x) :: ps, after)
          | after => .error ⟨.comma, after⟩
      | rest => .error ⟨.colon, rest⟩

end

/-- Where and why the reading of a text stopped. -/
structure ReadError where
  cause : Cause
  /-- How many characters come before the place. -/
  offset : Nat
  line : Nat
  column : Nat
  deriving DecidableEq, Repr

def ReadError.message (e : ReadError) : String :=
  e.cause.text ++ ": line " ++ toString e.line ++ " column " ++ toString e.column
    ++ " (char " ++ toString e.offset ++ ")"

/-- The place in a text before which everything but `rest` stands. -/
def Stop.locate (text : List Char) (stop : Stop) : ReadError :=
  let offset := text.length - stop.rest.length
  let before := text.take offset
  let lastLine := before.reverse.takeWhile (· != '\n')
  ⟨stop.cause, offset, 1 + before.count '\n', 1 + lastLine.length⟩

/-- Reads a whole text: one value with nothing but space around it. -/
def readWhole (text : List Char) : Except Stop Json :=
  match readValue (2 * text.length + 2) (skipSpace text) with
  | .error stop => .error stop
  | .ok (doc, rest) =>
    match skipSpace rest with
    | [] => .ok doc
    | after => .error ⟨.extra, after⟩

/-- The document that some characters stand for. -/
def ofChars (text : List Char) : Except ReadError Json :=
  (readWhole text).mapError (Stop.locate text)

/-- The document that a text stands for. A text may not start with a byte order mark. -/
def ofText (s : String) : Except ReadError Json :=
  match s.toList with
  | '\ufeff' :: _ => .error ⟨.byteOrderMark, 0, 1, 1⟩
  | text => ofChars text

/-- Why some bytes are not a document. -/
inductive BytesError where
  | notText (e : Text.ByteError)
  | notDocument (e : ReadError)

def BytesError.message : BytesError → String
  | .notText e => e.message
  | .notDocument e => e.message

/-- The document that some bytes stand for. -/
def ofBytes (bytes : List UInt8) : Except BytesError Json :=
  match Text.decode bytes with
  | .error e => .error (.notText e)
  | .ok text => (ofChars text).mapError .notDocument

end Tradeflow.Json
