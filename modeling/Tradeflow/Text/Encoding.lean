/-
  Bytes read as text. The encoding is told from a byte order mark or from where zero bytes stand in
  the first four; the reader stops at the first bytes that are not text and says which and why.
-/
import Tradeflow.Text.Basic

namespace Tradeflow.Text

inductive Encoding where
  | utf8
  | utf16 (big : Bool)
  | utf32 (big : Bool)
  deriving DecidableEq, Repr

def Encoding.name : Encoding → String
  | .utf8 => "utf-8"
  | .utf16 big => if big then "utf-16-be" else "utf-16-le"
  | .utf32 big => if big then "utf-32-be" else "utf-32-le"

inductive ByteReason where
  | invalidStart
  | invalidContinuation
  | unexpectedEnd
  | truncated
  | outOfRange
  deriving DecidableEq, Repr

def ByteReason.text : ByteReason → String
  | .invalidStart => "invalid start byte"
  | .invalidContinuation => "invalid continuation byte"
  | .unexpectedEnd => "unexpected end of data"
  | .truncated => "truncated data"
  | .outOfRange => "code point not in range(0x110000)"

/-- The bytes from `start` up to `stop` are not text; `first` is the first of them. -/
structure ByteError where
  encoding : Encoding
  reason : ByteReason
  start : Nat
  stop : Nat
  first : Nat
  deriving DecidableEq, Repr

def ByteError.message (e : ByteError) : String :=
  let place :=
    if e.stop = e.start + 1 then
      "byte 0x" ++ String.ofList (hexPadded 2 e.first) ++ " in position " ++ toString e.start
    else "bytes in position " ++ toString e.start ++ "-" ++ toString (e.stop - 1)
  "\x27" ++ e.encoding.name ++ "\x27 codec can\x27t decode " ++ place ++ ": " ++ e.reason.text

/-- Stands for a code point that is no character. -/
def replacement : Char := Char.ofNat 0xFFFD

def charOf (n : Nat) : Char := if 0xD800 ≤ n ∧ n < 0xE000 then replacement else Char.ofNat n

/-- A character of several bytes whose end is still to come. -/
structure Pending where
  start : Nat
  first : Nat
  value : Nat
  left : Nat
  low : Nat
  high : Nat

/-- What the first byte of a character of several bytes announces. -/
def pendingOf? (start b : Nat) : Option Pending :=
  if b < 0xC2 then none
  else if b < 0xE0 then some ⟨start, b, b - 0xC0, 1, 0x80, 0xBF⟩
  else if b = 0xE0 then some ⟨start, b, 0, 2, 0xA0, 0xBF⟩
  else if b = 0xED then some ⟨start, b, 0xD, 2, 0x80, 0x9F⟩
  else if b < 0xF0 then some ⟨start, b, b - 0xE0, 2, 0x80, 0xBF⟩
  else if b = 0xF0 then some ⟨start, b, 0, 3, 0x90, 0xBF⟩
  else if b < 0xF4 then some ⟨start, b, b - 0xF0, 3, 0x80, 0xBF⟩
  else if b = 0xF4 then some ⟨start, b, 4, 3, 0x80, 0x8F⟩
  else none

/-- Reads UTF-8 from position `pos` on. -/
def utf8From (pos : Nat) (pending : Option Pending) : List UInt8 → Except ByteError (List Char)
  | [] =>
    match pending with
    | none => .ok []
    | some p => .error ⟨.utf8, .unexpectedEnd, p.start, pos, p.first⟩
  | byte :: rest =>
    let b := byte.toNat
    match pending with
    | none =>
      if b < 0x80 then (utf8From (pos + 1) none rest).map (Char.ofNat b :: ·)
      else
        match pendingOf? pos b with
        | some p => utf8From (pos + 1) (some p) rest
        | none => .error ⟨.utf8, .invalidStart, pos, pos + 1, b⟩
    | some p =>
      if p.low ≤ b ∧ b ≤ p.high then
        let value := p.value * 64 + (b - 0x80)
        if p.left = 1 then (utf8From (pos + 1) none rest).map (Char.ofNat value :: ·)
        else utf8From (pos + 1) (some ⟨p.start, p.first, value, p.left - 1, 0x80, 0xBF⟩) rest
      else .error ⟨.utf8, .invalidContinuation, p.start, pos, p.first⟩

/-- Reads two-byte units from position `pos` on. -/
def units16From (big : Bool) (pos : Nat) : List UInt8 → Except ByteError (List Nat)
  | [] => .ok []
  | [b] => .error ⟨.utf16 big, .truncated, pos, pos + 1, b.toNat⟩
  | a :: b :: rest =>
    let unit := if big then a.toNat * 256 + b.toNat else b.toNat * 256 + a.toNat
    (units16From big (pos + 2) rest).map (unit :: ·)

/-- Joins pairs of surrogates. -/
def charsOfUnits : List Nat → List Char
  | [] => []
  | [u] => [charOf u]
  | u :: v :: rest =>
    if 0xD800 ≤ u ∧ u < 0xDC00 ∧ 0xDC00 ≤ v ∧ v < 0xE000 then
      Char.ofNat (0x10000 + (u - 0xD800) * 0x400 + (v - 0xDC00)) :: charsOfUnits rest
    else charOf u :: charsOfUnits (v :: rest)

/-- Reads four-byte code points from position `pos` on. -/
def utf32From (big : Bool) (pos : Nat) : List UInt8 → Except ByteError (List Char)
  | [] => .ok []
  | a :: b :: c :: d :: rest =>
    let value :=
      if big then ((a.toNat * 256 + b.toNat) * 256 + c.toNat) * 256 + d.toNat
      else ((d.toNat * 256 + c.toNat) * 256 + b.toNat) * 256 + a.toNat
    if 0x110000 ≤ value then .error ⟨.utf32 big, .outOfRange, pos, pos + 4, a.toNat⟩
    else (utf32From big (pos + 4) rest).map (charOf value :: ·)
  | a :: rest => .error ⟨.utf32 big, .truncated, pos, pos + 1 + rest.length, a.toNat⟩

/-- How to read some bytes: in which encoding, how many to skip, and the position of the next. -/
structure ByteLayout where
  encoding : Encoding
  skip : Nat
  offset : Nat

/-- Told from a byte order mark, else from zero bytes, else UTF-8. -/
def layoutOf (bytes : List UInt8) : ByteLayout :=
  match bytes.take 4 |>.map UInt8.toNat with
  | [0x00, 0x00, 0xFE, 0xFF] => ⟨.utf32 true, 4, 4⟩
  | [0xFF, 0xFE, 0x00, 0x00] => ⟨.utf32 false, 4, 4⟩
  | 0xFE :: 0xFF :: _ => ⟨.utf16 true, 2, 2⟩
  | 0xFF :: 0xFE :: _ => ⟨.utf16 false, 2, 2⟩
  | 0xEF :: 0xBB :: 0xBF :: _ => ⟨.utf8, 3, 0⟩
  | [0, b, _, _] => if b = 0 then ⟨.utf32 true, 0, 0⟩ else ⟨.utf16 true, 0, 0⟩
  | [_, 0, c, d] => if c = 0 ∧ d = 0 then ⟨.utf32 false, 0, 0⟩ else ⟨.utf16 false, 0, 0⟩
  | [0, _] => ⟨.utf16 true, 0, 0⟩
  | [_, 0] => ⟨.utf16 false, 0, 0⟩
  | _ => ⟨.utf8, 0, 0⟩

/-- The text that some bytes stand for. -/
def decode (bytes : List UInt8) : Except ByteError (List Char) :=
  let l := layoutOf bytes
  let rest := bytes.drop l.skip
  match l.encoding with
  | .utf8 => utf8From l.offset none rest
  | .utf16 big => (units16From big l.offset rest).map charsOfUnits
  | .utf32 big => utf32From big l.offset rest

end Tradeflow.Text
