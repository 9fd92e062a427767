/-
  Characters and runs of them: finding one run in another, white space in the sense of the Unicode
  property, and hexadecimal digits. Texts consist of whole characters; half of a surrogate pair that
  stands by itself is none.
-/

namespace Tradeflow.Text

/-! ## Search -/

/-- Does `cs` start with `lead`? -/
def startsWith (lead : List Char) (cs : List Char) : Bool :=
  match lead, cs with
  | [], _ => true
  | _ :: _, [] => false
  | a :: lead, c :: cs => a == c && startsWith lead cs

/-- Does `part` occur in `cs`? -/
def occurs (part : List Char) : List Char → Bool
  | [] => part.isEmpty
  | c :: cs => startsWith part (c :: cs) || occurs part cs

/-- Does `part` occur in the text? -/
def contains (s part : String) : Bool := occurs part.toList s.toList

/-- Does the text start a placeholder, two opening braces? -/
def isPlaceholder (s : String) : Bool := startsWith ['\x7b', '\x7b'] s.toList

/-- Writes `new` for every `old`. -/
def replaceChar (old new : Char) (s : String) : String :=
  String.ofList (s.toList.map fun c => if c == old then new else c)

/-! ## White space -/

/-- The property White_Space. -/
def isBlank (c : Char) : Bool :=
  let n := c.toNat
  (9 ≤ n && n ≤ 13) || n == 0x20 || n == 0x85 || n == 0xA0 || n == 0x1680
    || (0x2000 ≤ n && n ≤ 0x200A) || n == 0x2028 || n == 0x2029 || n == 0x202F || n == 0x205F
    || n == 0x3000

/-- Drops blanks at both ends. -/
def trimBlank (cs : List Char) : List Char :=
  ((cs.dropWhile isBlank).reverse.dropWhile isBlank).reverse

/-! ## Hexadecimal digits -/

/-- Lower-case hexadecimal without leading zeros; `0` for zero. -/
def hex (n : Nat) : List Char := Nat.toDigits 16 n

/-- Lower-case hexadecimal of at least `width` digits. -/
def hexPadded (width n : Nat) : List Char :=
  let ds := hex n
  List.replicate (width - ds.length) '0' ++ ds

/-- Upper-case hexadecimal of at least `width` digits. -/
def hexUpper (width n : Nat) : List Char := (hexPadded width n).map Char.toUpper

/-- The value of one hexadecimal digit of either case. -/
def hexDigit? (c : Char) : Option Nat :=
  if '0' ≤ c ∧ c ≤ '9' then some (c.toNat - 48)
  else if 'a' ≤ c ∧ c ≤ 'f' then some (c.toNat - 87)
  else if 'A' ≤ c ∧ c ≤ 'F' then some (c.toNat - 55)
  else none

/-- The value of a run of hexadecimal digits. -/
def hexValue? (cs : List Char) : Option Nat :=
  cs.foldl (fun acc c => match acc, hexDigit? c with
    | some n, some d => some (n * 16 + d)
    | _, _ => none) (some 0)

end Tradeflow.Text
