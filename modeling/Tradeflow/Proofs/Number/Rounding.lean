/-
  Rounding of quotients to doubles, over the rationals. A positive double is `m * 2 ^ e` for one
  canonical `m` and `e`, and the rationals that round to it make up an interval (`RoundsTo`): half a
  unit either way, a quarter below a power of two, the ends included when `m` is even.
  `ofQuotient_of_roundsTo`: a quotient in that interval is rounded to the double.
  `assemble_view`: a finite double is put together again from its parts.
-/
import Mathlib.Algebra.Order.Field.Power
import Mathlib.Data.Rat.Cast.Order
import Mathlib.Tactic.FieldSimp
import Mathlib.Tactic.Linarith
import Mathlib.Tactic.Positivity
import Mathlib.Tactic.Ring
import Tradeflow.Proofs.Number.SignedZero

namespace Tradeflow

/-! ## Powers -/

@[simp]
theorem cast_pow2 (n : Nat) : ((pow2 n : Nat) : Rat) = 2 ^ n := Nat.cast_pow 2 n

@[simp]
theorem cast_pow10 (n : Nat) : ((pow10 n : Nat) : Rat) = 10 ^ n := Nat.cast_pow 10 n

theorem zpow_of_not_neg (b : Rat) {e : Int} (h : ¬ e < 0) : b ^ e = b ^ e.toNat := by
  rw [← zpow_natCast, Int.toNat_of_nonneg (Int.not_lt.1 h)]

theorem zpow_of_neg (b : Rat) {e : Int} (h : e < 0) : b ^ e = 1 / b ^ (-e).toNat := by
  rw [← zpow_natCast, Int.toNat_of_nonneg (by omega), zpow_neg, one_div, inv_inv]

/-- A power as a quotient of naturals, one of which is one. -/
theorem zpow_eq_quotient {b : Rat} {power : Nat → Nat} (hcast : ∀ n, (power n : Rat) = b ^ n)
    (hpos : ∀ n, 0 < power n) (e : Int) :
    0 < (if e < 0 then power (-e).toNat else 1) ∧
      b ^ e = ((if e < 0 then 1 else power e.toNat : Nat) : Rat) /
        ((if e < 0 then power (-e).toNat else 1 : Nat) : Rat) := by
  split
  case isTrue he => exact ⟨hpos _, by rw [zpow_of_neg b he, Nat.cast_one, hcast]⟩
  case isFalse he =>
    exact ⟨Nat.one_pos, by rw [zpow_of_not_neg b he, Nat.cast_one, hcast, div_one]⟩

/-! ## Rounding to whole numbers -/

section Halves

variable {n d m : Nat}

theorem sub_half_le_iff (hd : 0 < d) : (m : Rat) - 1 / 2 ≤ n / d ↔ 2 * (d * m) ≤ 2 * n + d := by
  rw [le_div_iff₀ (Nat.cast_pos.2 hd)]
  constructor
  · intro h
    have hcast : ((2 * (d * m) : Nat) : Rat) ≤ ((2 * n + d : Nat) : Rat) := by
      push_cast
      linarith
    exact_mod_cast hcast
  · intro h
    have hcast : ((2 * (d * m) : Nat) : Rat) ≤ ((2 * n + d : Nat) : Rat) := Nat.cast_le.2 h
    push_cast at hcast
    linarith

theorem le_add_half_iff (hd : 0 < d) : (n / d : Rat) ≤ m + 1 / 2 ↔ 2 * n ≤ 2 * (d * m) + d := by
  rw [div_le_iff₀ (Nat.cast_pos.2 hd)]
  constructor
  · intro h
    have hcast : ((2 * n : Nat) : Rat) ≤ ((2 * (d * m) + d : Nat) : Rat) := by
      push_cast
      linarith
    exact_mod_cast hcast
  · intro h
    have hcast : ((2 * n : Nat) : Rat) ≤ ((2 * (d * m) + d : Nat) : Rat) := Nat.cast_le.2 h
    push_cast at hcast
    linarith

/-- A quotient within half a unit of a number is in one of the two units that meet there. -/
theorem div_eq_or_succ (hd : 0 < d) (hlow : 2 * (d * m) ≤ 2 * n + d)
    (hhigh : 2 * n ≤ 2 * (d * m) + d) : n / d = m ∨ n / d + 1 = m := by
  have hnd := Nat.div_add_mod n d
  have hmod := Nat.mod_lt n hd
  have hle : n / d ≤ m := by
    by_contra hlt
    have hmul : d * (m + 1) ≤ d * (n / d) := Nat.mul_le_mul_left d (by omega)
    rw [Nat.mul_add] at hmul
    omega
  have hge : m ≤ n / d + 1 := by
    by_contra hlt
    have hmul : d * (n / d + 2) ≤ d * m := Nat.mul_le_mul_left d (by omega)
    rw [Nat.mul_add] at hmul
    omega
  omega

/-- What is within half a unit of a number, and not at an end unless the number is even, rounds to
it. -/
theorem roundHalfEven_eq (hd : 0 < d) (hlow : (m : Rat) - 1 / 2 ≤ n / d)
    (hhigh : (n / d : Rat) ≤ m + 1 / 2)
    (hends : m % 2 = 0 ∨ (n / d : Rat) ≠ m - 1 / 2 ∧ (n / d : Rat) ≠ m + 1 / 2) :
    roundHalfEven n d = m := by
  have hlow' := (sub_half_le_iff hd).1 hlow
  have hhigh' := (le_add_half_iff hd).1 hhigh
  have hends' : m % 2 = 0 ∨ 2 * (d * m) ≠ 2 * n + d ∧ 2 * n ≠ 2 * (d * m) + d := by
    have hd' : (d : Rat) ≠ 0 := Nat.cast_ne_zero.2 (Nat.ne_of_gt hd)
    refine hends.imp_right fun ⟨hl, hh⟩ => ⟨fun heq => hl ?_, fun heq => hh ?_⟩
    · have hcast : ((2 * (d * m) : Nat) : Rat) = ((2 * n + d : Nat) : Rat) := congrArg _ heq
      push_cast at hcast
      rw [div_eq_iff hd']
      linarith
    · have hcast : ((2 * n : Nat) : Rat) = ((2 * (d * m) + d : Nat) : Rat) := congrArg _ heq
      push_cast at hcast
      rw [div_eq_iff hd']
      linarith
  have hnd := Nat.div_add_mod n d
  have hmod := Nat.mod_lt n hd
  unfold roundHalfEven
  dsimp only
  rcases div_eq_or_succ hd hlow' hhigh' with hquot | hquot
  · rw [hquot] at hnd ⊢
    split
    · rfl
    · rw [if_neg (by omega), if_pos (by omega)]
  · rw [← hquot, Nat.mul_add] at hlow' hends'
    rw [if_neg (by omega)]
    split
    · exact hquot
    · rw [if_neg (by omega), hquot]

/-- What is at most half a unit below an even number rounds to it or more. -/
theorem le_roundHalfEven (hd : 0 < d) (hm : m % 2 = 0) (h : (m : Rat) - 1 / 2 ≤ n / d) :
    m ≤ roundHalfEven n d := by
  rcases le_total (n / d : Rat) (m + 1 / 2) with hle | hge
  · exact (roundHalfEven_eq hd h hle (.inl hm)).ge
  · have hquot : m ≤ n / d := by
      rw [Nat.le_div_iff_mul_le hd]
      have hcast : ((m * d : Nat) : Rat) ≤ (n : Rat) := by
        rw [le_div_iff₀ (Nat.cast_pos.2 hd)] at hge
        have hpos : (0 : Rat) < d := Nat.cast_pos.2 hd
        push_cast
        linarith
      exact_mod_cast hcast
    unfold roundHalfEven
    dsimp only
    split
    · exact hquot
    · split
      · omega
      · split <;> omega

end Halves

namespace Double

/-! ## Canonical mantissas and what rounds to them -/

/-- The mantissa and exponent of a finite double: the mantissa is full, except at the least
exponent. -/
structure Canonical (m : Nat) (e : Int) : Prop where
  lt : m < pow2 53
  least : leastExponent ≤ e
  most : e ≤ 971
  full : leastExponent < e → pow2 52 ≤ m

/-- How far below a mantissa its interval begins. Below a power of two doubles are twice as
dense. -/
def margin (m : Nat) (e : Int) : Rat := if m = pow2 52 ∧ leastExponent < e then 1 / 4 else 1 / 2

/-- A rational rounds to the double `m * 2 ^ e`. -/
structure RoundsTo (m : Nat) (e : Int) (x : Rat) : Prop where
  low : (m - margin m e) * 2 ^ e ≤ x
  high : x ≤ (m + 1 / 2) * 2 ^ e
  ends : m % 2 = 0 ∨ x ≠ (m - margin m e) * 2 ^ e ∧ x ≠ (m + 1 / 2) * 2 ^ e

theorem margin_le (m : Nat) (e : Int) : margin m e ≤ 1 / 2 := by
  unfold margin
  split <;> norm_num

theorem quarter_le_margin (m : Nat) (e : Int) : 1 / 4 ≤ margin m e := by
  unfold margin
  split <;> norm_num

theorem pow2_52 : pow2 52 = 4503599627370496 := rfl

theorem pow2_53 : pow2 53 = 9007199254740992 := rfl

variable {m : Nat} {e : Int} {x : Rat}

theorem Canonical.add_half_lt (h : Canonical m e) : (m : Rat) + 1 / 2 < 2 ^ (53 : Int) := by
  have hcast : ((m + 1 : Nat) : Rat) ≤ ((pow2 53 : Nat) : Rat) := Nat.cast_le.2 h.lt
  rw [cast_pow2] at hcast
  push_cast at hcast
  norm_num at hcast ⊢
  linarith

theorem Canonical.le_sub_margin (h : Canonical m e) (he : leastExponent < e) :
    (pow2 52 : Rat) - 1 / 4 ≤ m - margin m e := by
  rcases Nat.eq_or_lt_of_le (h.full he) with heq | hlt
  · rw [margin, if_pos ⟨heq.symm, he⟩, heq]
  · have hcast : ((pow2 52 + 1 : Nat) : Rat) ≤ (m : Rat) := Nat.cast_le.2 hlt
    have hmargin := margin_le m e
    push_cast at hcast ⊢
    linarith

/-- Where a rational that rounds to a double lies, in units of the last place. -/
theorem RoundsTo.units (h : RoundsTo m e x) :
    (m : Rat) - margin m e ≤ x / 2 ^ e ∧ x / 2 ^ e ≤ m + 1 / 2 ∧
      (m % 2 = 0 ∨ x / 2 ^ e ≠ m - margin m e ∧ x / 2 ^ e ≠ m + 1 / 2) := by
  have hpos : (0 : Rat) < 2 ^ e := by positivity
  refine ⟨(le_div_iff₀ hpos).2 h.low, (div_le_iff₀ hpos).2 h.high,
    h.ends.imp_right fun ⟨hl, hh⟩ => ⟨fun heq => hl ?_, fun heq => hh ?_⟩⟩
  · exact (div_eq_iff hpos.ne').1 heq
  · exact (div_eq_iff hpos.ne').1 heq

/-! ## Rounding a quotient -/

/-- What is rounded at an exponent is the quotient in units of that power of two. -/
theorem exists_scaledMantissa (num den : Nat) (e : Int) (hden : 0 < den) :
    ∃ n d, 0 < d ∧ scaledMantissa num den e = roundHalfEven n d ∧
      (n / d : Rat) = num / den / 2 ^ e := by
  unfold scaledMantissa
  split
  case isTrue he =>
    refine ⟨_, _, hden, rfl, ?_⟩
    rw [zpow_of_neg 2 he, Nat.cast_mul, cast_pow2]
    field_simp
  case isFalse he =>
    refine ⟨_, _, Nat.mul_pos hden (pow2_pos _), rfl, ?_⟩
    rw [zpow_of_not_neg 2 he, Nat.cast_mul, cast_pow2]
    field_simp

theorem scaledMantissa_eq {num den : Nat} (hden : 0 < den) (h : RoundsTo m e (num / den)) :
    scaledMantissa num den e = m := by
  obtain ⟨n, d, hd, hscaled, hunits⟩ := exists_scaledMantissa num den e hden
  obtain ⟨hlow, hhigh, hends⟩ := h.units
  have hmargin := margin_le m e
  rw [hscaled]
  rw [← hunits] at hlow hhigh hends
  refine roundHalfEven_eq hd (by linarith) hhigh (hends.imp_right fun ⟨hl, hh⟩ => ⟨?_, hh⟩)
  intro heq
  apply hl
  linarith

/-- At a smaller exponent the mantissa would be too large. -/
theorem pow2_53_le_scaledMantissa {num den : Nat} (hden : 0 < den) (hcanonical : Canonical m e)
    (he : leastExponent < e) (h : RoundsTo m e (num / den)) {k : Nat} (hk : 0 < k) :
    pow2 53 ≤ scaledMantissa num den (e - k) := by
  obtain ⟨n, d, hd, hscaled, hunits⟩ := exists_scaledMantissa num den (e - k) hden
  rw [hscaled]
  refine le_roundHalfEven hd (by decide) ?_
  have hlow := h.units.1
  have hmargin := hcanonical.le_sub_margin he
  have hshift : (num / den : Rat) / 2 ^ (e - k) = num / den / 2 ^ e * 2 ^ k := by
    rw [zpow_sub₀ two_ne_zero, zpow_natCast]
    field_simp
  have htwo : (2 : Rat) ≤ 2 ^ k := by
    calc (2 : Rat) = 2 ^ 1 := (pow_one 2).symm
      _ ≤ 2 ^ k := pow_le_pow_right₀ one_le_two hk
  rw [hunits, hshift]
  have hbase : ((pow2 52 : Nat) : Rat) - 1 / 4 ≤ num / den / 2 ^ e := hmargin.trans hlow
  have hpos : (0 : Rat) ≤ ((pow2 52 : Nat) : Rat) - 1 / 4 := by
    rw [pow2_52]
    norm_num
  calc ((pow2 53 : Nat) : Rat) - 1 / 2 = (((pow2 52 : Nat) : Rat) - 1 / 4) * 2 := by
        rw [pow2_52, pow2_53]
        norm_num
    _ ≤ num / den / 2 ^ e * 2 ^ k := mul_le_mul hbase htwo two_pos.le (hpos.trans hbase)

/-- A quotient lies within a factor of two of the quotient of the powers of two below its parts. -/
theorem log2_bounds {num den : Nat} (hnum : num ≠ 0) (hden : den ≠ 0) :
    (2 : Rat) ^ ((num.log2 : Int) - den.log2 - 1) < num / den ∧
      (num / den : Rat) < 2 ^ ((num.log2 : Int) - den.log2 + 1) := by
  have hn : (2 : Rat) ^ num.log2 ≤ num := by exact_mod_cast Nat.log2_self_le hnum
  have hn' : (num : Rat) < 2 ^ (num.log2 + 1) := by exact_mod_cast Nat.lt_log2_self
  have hd : (2 : Rat) ^ den.log2 ≤ den := by exact_mod_cast Nat.log2_self_le hden
  have hd' : (den : Rat) < 2 ^ (den.log2 + 1) := by exact_mod_cast Nat.lt_log2_self
  have hpos : (0 : Rat) < den := Nat.cast_pos.2 (Nat.pos_of_ne_zero hden)
  constructor
  · rw [show (num.log2 : Int) - den.log2 - 1 = (num.log2 : Int) - ((den.log2 + 1 : Nat) : Int) by
        push_cast; ring,
      zpow_sub₀ two_ne_zero, zpow_natCast, zpow_natCast]
    exact div_lt_div₀' hn hd' (by positivity) hpos
  · rw [show (num.log2 : Int) - den.log2 + 1 = ((num.log2 + 1 : Nat) : Int) - (den.log2 : Int) by
        push_cast; ring,
      zpow_sub₀ two_ne_zero, zpow_natCast, zpow_natCast]
    exact div_lt_div₀ hn' hd (by positivity) (by positivity)

/-- The estimate of the exponent is the exponent or one or two less. -/
theorem guess_bounds {num den : Nat} (hnum : num ≠ 0) (hden : den ≠ 0) (hcanonical : Canonical m e)
    (h : RoundsTo m e (num / den)) :
    (num.log2 : Int) - den.log2 - 53 ≤ e ∧
      (leastExponent < e → e ≤ (num.log2 : Int) - den.log2 - 53 + 2) := by
  obtain ⟨hlow, hhigh⟩ := log2_bounds hnum hden
  have hpos : (0 : Rat) < 2 ^ e := by positivity
  constructor
  · have hlt : (2 : Rat) ^ ((num.log2 : Int) - den.log2 - 1) < 2 ^ (53 + e) :=
      calc (2 : Rat) ^ ((num.log2 : Int) - den.log2 - 1) < num / den := hlow
        _ ≤ (m + 1 / 2) * 2 ^ e := h.high
        _ < 2 ^ (53 : Int) * 2 ^ e := mul_lt_mul_of_pos_right hcanonical.add_half_lt hpos
        _ = 2 ^ (53 + e) := (zpow_add₀ two_ne_zero _ _).symm
    have hexponent := (zpow_lt_zpow_iff_right₀ one_lt_two).1 hlt
    omega
  · intro he
    have hm : (2 : Rat) ^ (51 : Int) < m - margin m e := by
      have hbase := hcanonical.le_sub_margin he
      refine lt_of_lt_of_le ?_ hbase
      norm_num
    have hlt : (2 : Rat) ^ (51 + e) < 2 ^ ((num.log2 : Int) - den.log2 + 1) :=
      calc (2 : Rat) ^ (51 + e) = 2 ^ (51 : Int) * 2 ^ e := zpow_add₀ two_ne_zero _ _
        _ < (m - margin m e) * 2 ^ e := mul_lt_mul_of_pos_right hm hpos
        _ ≤ num / den := h.low
        _ < 2 ^ ((num.log2 : Int) - den.log2 + 1) := hhigh
    have hexponent := (zpow_lt_zpow_iff_right₀ one_lt_two).1 hlt
    omega

/-- A quotient is rounded to the double in whose interval it lies. -/
theorem ofQuotient_of_roundsTo {num den : Nat} (negative : Bool) (hnum : num ≠ 0) (hden : den ≠ 0)
    (hcanonical : Canonical m e) (h : RoundsTo m e (num / den)) :
    ofQuotient negative num den = assemble negative m e := by
  have hden' : 0 < den := Nat.pos_of_ne_zero hden
  have hself : scaledMantissa num den e < pow2 53 := by
    rw [scaledMantissa_eq hden' h]
    exact hcanonical.lt
  obtain ⟨hle, hge⟩ := guess_bounds hnum hden hcanonical h
  have hleast := hcanonical.least
  unfold ofQuotient
  rw [if_neg hnum]
  dsimp only
  generalize hfirst : max ((num.log2 : Int) - den.log2 - 53) leastExponent = first
  -- the search starts at the exponent itself or one or two below it, where mantissas are too large
  have hcases : first = e ∨
      leastExponent < e ∧ (first = e - (1 : Nat) ∨ first = e - (2 : Nat)) := by
    rcases lt_or_eq_of_le hleast with hlt | heq
    · have := hge hlt
      omega
    · omega
  have hlarge : ∀ k : Nat, leastExponent < e → 0 < k →
      ¬ scaledMantissa num den (e - k) < pow2 53 :=
    fun k he hk => Nat.not_lt.2 (pow2_53_le_scaledMantissa hden' hcanonical he h hk)
  have hexponent : (if scaledMantissa num den first < pow2 53 then first
      else if scaledMantissa num den (first + 1) < pow2 53 then first + 1 else first + 2) = e := by
    rcases hcases with rfl | ⟨he, rfl | rfl⟩
    · rw [if_pos hself]
    · have hnext : e - ((1 : Nat) : Int) + 1 = e := by omega
      rw [if_neg (hlarge 1 he Nat.one_pos), hnext, if_pos hself]
    · have hnext : e - ((2 : Nat) : Int) + 1 = e - ((1 : Nat) : Int) := by omega
      rw [if_neg (hlarge 2 he Nat.two_pos), hnext, if_neg (hlarge 1 he Nat.one_pos)]
      omega
  rw [hexponent, scaledMantissa_eq hden' h]

/-! ## Parts of a double -/

/-- A word is its sign, its exponent and its fraction. -/
theorem word_eq (bits : Nat) (h : bits < pow2 64) :
    (if bits / pow2 63 % 2 = 1 then pow2 63 else 0) +
      (bits / pow2 52 % 2048 * pow2 52 + bits % pow2 52) = bits := by
  have h52 : pow2 52 = 4503599627370496 := rfl
  have h63 : pow2 63 = 9223372036854775808 := rfl
  have h64 : pow2 64 = 18446744073709551616 := rfl
  rw [h52, h63]
  rw [h64] at h
  split <;> omega

/-- The parts of a finite double are canonical, and it is put together again from them. -/
theorem assemble_view {x : Float} {negative : Bool} {m : Nat} {e : Int}
    (h : view x = .finite negative m e) : Canonical m e ∧ assemble negative m e = x := by
  have hword := word_eq x.toBits.toNat x.toBits.toNat_lt
  have hself : Float.ofBits (UInt64.ofNat x.toBits.toNat) = x := by
    rw [UInt64.ofNat_toNat]
    exact congrArg Float.ofModel (pack_unpack x.toModel)
  have hfraction : x.toBits.toNat % pow2 52 < pow2 52 := Nat.mod_lt _ (pow2_pos 52)
  have hbiased : x.toBits.toNat / pow2 52 % 2048 < 2048 := Nat.mod_lt _ (by decide)
  unfold view at h
  dsimp only at h
  unfold assemble
  dsimp only
  generalize x.toBits.toNat = bits at *
  generalize bits % pow2 52 = fraction at *
  generalize bits / pow2 52 % 2048 = biased at *
  split at h
  · split at h <;> cases h
  · split at h
    case isTrue _ hzero =>
      cases h
      constructor
      · exact
          { lt := hfraction.trans (by decide)
            least := le_refl _
            most := by decide
            full := fun he => absurd he (lt_irrefl _) }
      · rw [hzero, Nat.zero_mul, Nat.zero_add] at hword
        simp only [decide_eq_true_eq]
        rw [if_pos hfraction, hword, hself]
    case isFalse hfinite hnormal =>
      cases h
      constructor
      · exact
          { lt := by
              rw [pow2_53]
              rw [pow2_52] at hfraction ⊢
              omega
            least := by
              unfold leastExponent
              omega
            most := by omega
            full := fun _ => Nat.le_add_left _ _ }
      · have hexponent : ((biased : Int) - 1075 + 1075).toNat = biased := by omega
        have hfull : ¬ fraction + pow2 52 < pow2 52 := Nat.not_lt.2 (Nat.le_add_left _ _)
        have hregular : ¬ 2047 ≤ biased := by omega
        simp only [decide_eq_true_eq]
        rw [if_neg hfull, hexponent, if_neg hregular, Nat.add_sub_cancel, hword, hself]

end Double

end Tradeflow
