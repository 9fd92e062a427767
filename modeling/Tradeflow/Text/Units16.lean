/-
  UTF-16 code units of text, and the rolling hash over them. A text is hashed as bytes, two to a code
  unit: the value before a unit is shifted by five bits, less itself, and the unit is added, all in 32
  bits. The last value, read as a signed number, is shown without its sign in hexadecimal. The hash
  detects change; it is not collision resistant.
-/
import Tradeflow.Text.Basic

namespace Tradeflow.Text

/-- The one or two code units of a character. -/
def unitsOfChar (c : Char) : List Nat :=
  let n := c.toNat
  if n < 0x10000 then [n]
  else
    let m := n - 0x10000
    [0xD800 + m / 0x400, 0xDC00 + m % 0x400]

/-- A character is one unit, which is no half of a pair, or the two halves of a pair. -/
theorem unitsOfChar_cases (c : Char) :
    (unitsOfChar c = [c.toNat] ∧ c.toNat < 0x10000 ∧ (c.toNat < 0xD800 ∨ 0xE000 ≤ c.toNat)) ∨
    ∃ high low, unitsOfChar c = [high, low] ∧
      (0xD800 ≤ high ∧ high < 0xDC00) ∧ (0xDC00 ≤ low ∧ low < 0xE000) ∧
      0x10000 + (high - 0xD800) * 0x400 + (low - 0xDC00) = c.toNat := by
  have hvalid : c.toNat < 0xD800 ∨ 0xDFFF < c.toNat ∧ c.toNat < 0x110000 := c.valid
  rcases Nat.lt_or_ge c.toNat 0x10000 with hone | htwo
  · exact .inl ⟨if_pos hone, hone, by omega⟩
  · exact .inr ⟨_, _, if_neg (Nat.not_lt.2 htwo), by omega, by omega, by omega⟩

theorem unit_lt {c : Char} {u : Nat} (h : u ∈ unitsOfChar c) : u < 0x10000 := by
  obtain ⟨hunits, hone, -⟩ | ⟨high, low, hunits, hhigh, hlow, -⟩ := unitsOfChar_cases c
  · rw [hunits] at h
    rw [List.mem_singleton.1 h]
    exact hone
  · rw [hunits] at h
    rcases List.mem_cons.1 h with rfl | h
    · omega
    · rw [List.mem_singleton.1 h]
      omega

/-- A code point: a character, or half of a surrogate pair that stands by itself. -/
inductive CodePoint where
  | char (c : Char)
  | half (n : Fin 0x800)
  deriving DecidableEq, Repr

/-- The code points of a text that has whole characters only. -/
def points (s : String) : List CodePoint := s.toList.map .char

/-- Half of a pair is a code unit as it is. -/
def CodePoint.units : CodePoint → List Nat
  | .char c => unitsOfChar c
  | .half n => [0xD800 + n]

def units16 (points : List CodePoint) : List Nat := points.flatMap CodePoint.units

/-- The two bytes of a code unit, the lower first. -/
def unitBytes (u : Nat) : List UInt8 := [u.toUInt8, (u >>> 8).toUInt8]

/-- A text as bytes in UTF-16. -/
def encode16 (points : List CodePoint) : List UInt8 := (units16 points).flatMap unitBytes

/-- One more unit, in 32 bits. -/
def hashStep (value unit : Nat) : Nat := ((value <<< 5) - value + unit) &&& 0xFFFFFFFF

/-- The rolling value after some bytes, two to a unit. -/
def rollBytes (value : Nat) : List UInt8 → Nat
  | low :: high :: rest => rollBytes (hashStep value (low.toNat ||| (high.toNat <<< 8))) rest
  -- a text leaves no single byte over
  | _ => value

/-- The unsigned rolling value of a text. -/
def rollingValue (points : List CodePoint) : Nat := rollBytes 0 (encode16 points)

/-- A value of 32 bits read as a signed number. -/
def signed32 (value : Nat) : Int :=
  if 0x80000000 ≤ value then (value : Int) - 0x100000000 else value

/-- The hash text of some code points. -/
def hashOfPoints (points : List CodePoint) : String :=
  String.ofList (hex (signed32 (rollingValue points)).natAbs)

/-- The hash text of a content. -/
def contentHash (s : String) : String := hashOfPoints (points s)

end Tradeflow.Text
