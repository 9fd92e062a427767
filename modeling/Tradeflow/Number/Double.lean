/-
  What a double stands for, exactly, and the double nearest to a quotient of naturals. A finite
  double is a sign and `mantissa * 2 ^ exponent`; `ofQuotient` is its inverse up to rounding, with
  halves going to the even neighbour and values past the largest double going to infinity.
-/

namespace Tradeflow

/-! ## Powers of two and of ten -/

def pow2 (n : Nat) : Nat := Nat.pow 2 n

def pow10 (n : Nat) : Nat := Nat.pow 10 n

theorem pow2_zero : pow2 0 = 1 := rfl

theorem pow2_succ (n : Nat) : pow2 (n + 1) = pow2 n * 2 := rfl

theorem pow10_zero : pow10 0 = 1 := rfl

theorem pow10_succ (n : Nat) : pow10 (n + 1) = pow10 n * 10 := rfl

theorem pow2_pos (n : Nat) : 0 < pow2 n := by
  induction n with
  | zero => exact Nat.one_pos
  | succ n ih => rw [pow2_succ]; omega

theorem pow10_pos (n : Nat) : 0 < pow10 n := by
  induction n with
  | zero => exact Nat.one_pos
  | succ n ih => rw [pow10_succ]; omega

/-! ## Doubles -/

/-- The exact meaning of a double. -/
inductive DoubleView where
  | nan
  | infinite (negative : Bool)
  | finite (negative : Bool) (mantissa : Nat) (exponent : Int)
  deriving DecidableEq, Repr

/-- The quotient `n / d` as a whole number, a half going to the even neighbour. -/
def roundHalfEven (n d : Nat) : Nat :=
  let q := n / d
  let r := n % d
  if 2 * r < d then q
  else if d < 2 * r then q + 1
  else if q % 2 = 0 then q
  else q + 1

/-- Never more than half a unit away. -/
theorem roundHalfEven_near (n d : Nat) (hd : 0 < d) :
    2 * n ≤ 2 * (d * roundHalfEven n d) + d ∧ 2 * (d * roundHalfEven n d) ≤ 2 * n + d := by
  have h := Nat.div_add_mod n d
  have hr := Nat.mod_lt n hd
  simp only [roundHalfEven]
  generalize n / d = q at *
  generalize n % d = r at *
  have e : d * (q + 1) = d * q + d := Nat.mul_succ d q
  split
  · omega
  · split
    · omega
    · split <;> omega

/-- A multiple of the divisor is divided exactly. -/
theorem roundHalfEven_mul (q d : Nat) (hd : 0 < d) : roundHalfEven (d * q) d = q := by
  simp [roundHalfEven, Nat.mul_div_cancel_left q hd, hd]

namespace Double

/-- Exponent of the smallest positive double. -/
def leastExponent : Int := -1074

/-- The bits of a double taken apart. -/
def view (x : Float) : DoubleView :=
  let bits : Nat := x.toBits.toNat
  let negative := decide (bits / pow2 63 % 2 = 1)
  let biased : Nat := bits / pow2 52 % 2048
  let fraction : Nat := bits % pow2 52
  if biased = 2047 then
    if fraction = 0 then .infinite negative else .nan
  else if biased = 0 then .finite negative fraction leastExponent
  else .finite negative (fraction + pow2 52) ((biased : Int) - 1075)

def isFinite (x : Float) : Bool :=
  match view x with
  | .finite .. => true
  | _ => false

def sameBits (x y : Float) : Bool := x.toBits == y.toBits

/-- The double with the given sign that stands for `mantissa * 2 ^ exponent`, when the mantissa has
at most 53 bits and the exponent is not below the least one. -/
def assemble (negative : Bool) (mantissa : Nat) (exponent : Int) : Float :=
  let sign := if negative then pow2 63 else 0
  let magnitude :=
    if mantissa < pow2 52 then mantissa
    else
      let biased := (exponent + 1075).toNat
      if 2047 ≤ biased then 2047 * pow2 52 else biased * pow2 52 + (mantissa - pow2 52)
  Float.ofBits (UInt64.ofNat (sign + magnitude))

/-- The quotient `num / den` scaled by `2 ^ (-exponent)` and rounded. -/
def scaledMantissa (num den : Nat) (exponent : Int) : Nat :=
  if exponent < 0 then roundHalfEven (num * pow2 (-exponent).toNat) den
  else roundHalfEven num (den * pow2 exponent.toNat)

/-- The double nearest to `num / den`, ties to the even mantissa. -/
def ofQuotient (negative : Bool) (num den : Nat) : Float :=
  if num = 0 then assemble negative 0 leastExponent
  else
    let guess : Int := (num.log2 : Int) - (den.log2 : Int) - 53
    let first := max guess leastExponent
    -- at the guess the quotient lies between 2^52 and 2^54, so one or two more halvings suffice
    let exponent :=
      if scaledMantissa num den first < pow2 53 then first
      else if scaledMantissa num den (first + 1) < pow2 53 then first + 1
      else first + 2
    assemble negative (scaledMantissa num den exponent) exponent

/-- The double nearest to `digits * 10 ^ exponent`. Exponents far outside the range of doubles are
settled without building the power. -/
def ofDecimal (negative : Bool) (digits : Nat) (exponent : Int) : Float :=
  if digits = 0 then ofQuotient negative 0 1
  else
    let size : Int := (digits.log2 : Int) * 30103 / 100000 + exponent
    if 400 < size then assemble negative (pow2 52) 2000
    else if size < -400 then ofQuotient negative 0 1
    else if 0 ≤ exponent then ofQuotient negative (digits * pow10 exponent.toNat) 1
    else ofQuotient negative digits (pow10 (-exponent).toNat)

/-- The double nearest to a whole number. -/
def ofInt (n : Int) : Float := ofQuotient (decide (n < 0)) n.natAbs 1

/-- A finite magnitude `mantissa * 2 ^ exponent` as a quotient. -/
def quotient (mantissa : Nat) (exponent : Int) : Nat × Nat :=
  if exponent < 0 then (mantissa, pow2 (-exponent).toNat) else (mantissa * pow2 exponent.toNat, 1)

/-- A finite double without a fraction, as a whole number. -/
def whole? (x : Float) : Option Int :=
  match view x with
  | .finite negative m e =>
    let (n, d) := quotient m e
    if n % d = 0 then
      let q : Int := n / d
      some (if negative then -q else q)
    else none
  | _ => none

end Double

end Tradeflow
