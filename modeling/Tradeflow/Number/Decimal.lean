/-
  Decimal text of numbers: the fewest digits that read back as the same double, a given count of
  significant digits or of places, and the layouts in which such digits are written.
-/
import Tradeflow.Number.Double

namespace Tradeflow

/-- `digits * 10 ^ exponent`. -/
structure Decimal where
  digits : Nat
  exponent : Int
  deriving DecidableEq, Repr

namespace Decimal

/-- The decimal digits of a natural. -/
def digitsOf (n : Nat) : List Char := Nat.toDigits 10 n

/-- Drops final zeros, which leaves the value as it is. -/
def trim (fuel : Nat) (d : Decimal) : Decimal :=
  match fuel with
  | 0 => d
  | fuel + 1 =>
    if d.digits ≠ 0 ∧ d.digits % 10 = 0 then trim fuel ⟨d.digits / 10, d.exponent + 1⟩ else d

/-- Is `10 ^ e ≤ n / d`? -/
def reaches (n d : Nat) (e : Int) : Bool :=
  if e < 0 then d ≤ n * pow10 (-e).toNat else d * pow10 e.toNat ≤ n

/-- The decimal exponent of the first digit of a positive quotient `n / d`: an estimate from the
binary sizes, put right by at most two steps either way. -/
def leadExponent (n d : Nat) : Int :=
  let guess : Int := ((n.log2 : Int) - (d.log2 : Int)) * 30103 / 100000
  if reaches n d (guess + 2) then guess + 2
  else if reaches n d (guess + 1) then guess + 1
  else if reaches n d guess then guess
  else if reaches n d (guess - 1) then guess - 1
  else guess - 2

/-- The quotient in units of `10 ^ e`, as numerator and denominator. -/
def inUnits (n d : Nat) (e : Int) : Nat × Nat :=
  if e < 0 then (n * pow10 (-e).toNat, d) else (n, d * pow10 e.toNat)

/-- The decimal with `count` significant digits nearest to `n / d`, ties to even. -/
def significant (count : Nat) (n d : Nat) : Decimal :=
  let e := leadExponent n d - (count : Int) + 1
  let (a, b) := inUnits n d e
  ⟨roundHalfEven a b, e⟩

/-- The interval of reals that round to one double, in units of a quarter of its last place: the
lower end, the value and the upper end are `low`, `4 * mantissa` and `4 * mantissa + 2`; the ends
belong to it when the mantissa is even. -/
structure Interval where
  low : Nat
  mid : Nat
  high : Nat
  closed : Bool
  unit : Int

/-- The reals that round to `mantissa * 2 ^ exponent`. Below a power of two the doubles are twice
as dense. -/
def intervalOf (mantissa : Nat) (exponent : Int) : Interval :=
  let mid := 4 * mantissa
  let low := if mantissa = pow2 52 ∧ Double.leastExponent < exponent then mid - 1 else mid - 2
  ⟨low, mid, mid + 2, mantissa % 2 == 0, exponent - 2⟩

/-- Does `c * 10 ^ e` lie in the interval? -/
def Interval.holds (i : Interval) (c : Nat) (e : Int) : Bool :=
  let ten := if e < 0 then 1 else pow10 e.toNat
  let tenth := if e < 0 then pow10 (-e).toNat else 1
  let two := if i.unit < 0 then 1 else pow2 i.unit.toNat
  let half := if i.unit < 0 then pow2 (-i.unit).toNat else 1
  let point := c * ten * half
  let low := i.low * two * tenth
  let high := i.high * two * tenth
  if i.closed then low ≤ point ∧ point ≤ high else low < point ∧ point < high

/-- On the grid of multiples of `10 ^ e`, the neighbour of the value that reads back, the nearer one
if both do, the even one on a tie. -/
def gridHit (i : Interval) (e : Int) : Option Nat :=
  let (n, d) := Double.quotient i.mid i.unit
  let (a, b) := inUnits n d e
  let c := a / b
  let r := a % b
  let below := i.holds c e
  let above := i.holds (c + 1) e
  if below ∧ above then
    if 2 * r < b ∨ (2 * r = b ∧ c % 2 = 0) then some c else some (c + 1)
  else if below then some c
  else if above then some (c + 1)
  else none

/-- Tries ever finer grids, `count` of them. -/
def searchGrids (i : Interval) (e : Int) : (count : Nat) → Decimal
  | 0 => ⟨i.mid, 0⟩
  | count + 1 =>
    match gridHit i e with
    | some c => ⟨c, e⟩
    | none => searchGrids i (e - 1) count

/-- The decimal of fewest digits that reads back as `mantissa * 2 ^ exponent`. Seventeen digits
always do. -/
def shortest (mantissa : Nat) (exponent : Int) : Decimal :=
  if mantissa = 0 then ⟨0, 0⟩
  else
    let (n, d) := Double.quotient mantissa exponent
    trim 20 (searchGrids (intervalOf mantissa exponent) (leadExponent n d) 18)

/-- How digits are laid out. -/
structure Layout where
  /-- Positional notation ends below `10 ^ least`. -/
  least : Int
  /-- Positional notation ends at `10 ^ most`. -/
  most : Int
  /-- Does a single digit before an exponent get `.0`? -/
  pointBeforeExponent : Bool
  nan : String
  infinite : String

/-- Positional from 0.0001 up to sixteen digits before the point, always with a point or an
exponent of at least two digits. -/
def plain : Layout := ⟨-4, 16, false, "nan", "inf"⟩

def zeros (n : Nat) : List Char := List.replicate n '0'

/-- Writes the digits of a trimmed decimal. -/
def Layout.write (layout : Layout) (d : Decimal) : List Char :=
  let ds := digitsOf d.digits
  let count : Int := ds.length
  -- the exponent of the first digit
  let lead := if d.digits = 0 then 0 else d.exponent + count - 1
  if lead < layout.least ∨ layout.most ≤ lead then
    let size := lead.natAbs
    let exponentDigits := if size < 10 then '0' :: digitsOf size else digitsOf size
    let mark := if lead < 0 then '-' else '+'
    let fraction := ds.drop 1
    let point :=
      if fraction.isEmpty then (if layout.pointBeforeExponent then ['.', '0'] else [])
      else '.' :: fraction
    ds.take 1 ++ point ++ 'e' :: mark :: exponentDigits
  else if lead < 0 then '0' :: '.' :: zeros (lead.natAbs - 1) ++ ds
  else
    let whole := lead.toNat + 1
    let padded := ds ++ zeros (whole - ds.length)
    let fraction := padded.drop whole
    padded.take whole ++ '.' :: (if fraction.isEmpty then ['0'] else fraction)

/-- The text of a double in the given layout. -/
def Layout.text (layout : Layout) (x : Float) : String :=
  match Double.view x with
  | .nan => layout.nan
  | .infinite negative => if negative then "-" ++ layout.infinite else layout.infinite
  | .finite negative m e =>
    String.ofList ((if negative then ['-'] else []) ++ layout.write (shortest m e))

/-- The double nearest to the value of `x` with `count` significant digits. -/
def roundSignificant (count : Nat) (x : Float) : Float :=
  match Double.view x with
  | .finite negative m e =>
    if m = 0 then x
    else
      let (n, d) := Double.quotient m e
      let r := significant count n d
      Double.ofDecimal negative r.digits r.exponent
  | _ => x

/-- Writes `units * 10 ^ (-places)` with exactly that many places. -/
def fixedText (negative : Bool) (units places : Nat) : String :=
  let ds := digitsOf units
  let padded := zeros (places + 1 - ds.length) ++ ds
  let whole := padded.take (padded.length - places)
  let fraction := padded.drop (padded.length - places)
  String.ofList ((if negative then ['-'] else []) ++ whole
    ++ (if places = 0 then [] else '.' :: fraction))

/-- A double with exactly so many places, ties to even. -/
def fixed (places : Nat) (x : Float) : String :=
  match Double.view x with
  | .nan => plain.nan
  | .infinite negative => if negative then "-" ++ plain.infinite else plain.infinite
  | .finite negative m e =>
    let (n, d) := Double.quotient m e
    fixedText negative (roundHalfEven (n * pow10 places) d) places

/-- The double nearest to `x` rounded to `places` decimal places, ties to even. -/
def roundPlaces (places : Nat) (x : Float) : Float :=
  match Double.view x with
  | .finite negative m e =>
    let (n, d) := Double.quotient m e
    Double.ofQuotient negative (roundHalfEven (n * pow10 places) d) (pow10 places)
  | _ => x

end Decimal

end Tradeflow
