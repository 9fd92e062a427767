/-
  The shortest decimal of a double reads back as the double. Grids of ever finer decimals are tried
  until one has a point in the interval of the double (`searchGrids_holds`); the eighteenth always
  has, as it is finer than a quarter of the last place (`gridHit_isSome`). Estimates of decimal
  exponents from binary ones are good enough over the range of doubles (`powers_near`), both where
  the search starts (`zpow_leadExponent_le`) and where a decimal is read (`ofDecimal_of_roundsTo`).
  `ofDecimal_shortest`: whatever digits and exponent stand for the same number as the shortest
  decimal of a finite double, reading them gives the double.
-/
import Mathlib.Data.Nat.Cast.Order.Field
import Tradeflow.Number.Decimal
import Tradeflow.Proofs.Number.Rounding

namespace Tradeflow

namespace Decimal

open Double

/-! ## Quotients in units of powers -/

/-- The number that a decimal stands for. -/
def value (d : Decimal) : Rat := d.digits * 10 ^ d.exponent

theorem quotient_eq (m : Nat) (e : Int) :
    0 < (quotient m e).2 ∧ ((quotient m e).1 / (quotient m e).2 : Rat) = m * 2 ^ e := by
  unfold quotient
  split
  case isTrue he =>
    refine ⟨pow2_pos _, ?_⟩
    rw [zpow_of_neg 2 he, cast_pow2, mul_one_div]
  case isFalse he =>
    refine ⟨Nat.one_pos, ?_⟩
    rw [zpow_of_not_neg 2 he, Nat.cast_mul, cast_pow2, Nat.cast_one, div_one]

theorem inUnits_eq (n : Nat) {d : Nat} (hd : 0 < d) (e : Int) :
    0 < (inUnits n d e).2 ∧ ((inUnits n d e).1 / (inUnits n d e).2 : Rat) = n / d / 10 ^ e := by
  unfold inUnits
  split
  case isTrue he =>
    refine ⟨hd, ?_⟩
    rw [zpow_of_neg 10 he, Nat.cast_mul, cast_pow10]
    field_simp
  case isFalse he =>
    refine ⟨Nat.mul_pos hd (pow10_pos _), ?_⟩
    rw [zpow_of_not_neg 10 he, Nat.cast_mul, cast_pow10]
    field_simp

theorem zpow_le_of_reaches {n d : Nat} {e : Int} (hd : 0 < d) (h : reaches n d e = true) :
    (10 : Rat) ^ e ≤ n / d := by
  have hd' : (0 : Rat) < d := Nat.cast_pos.2 hd
  unfold reaches at h
  rw [le_div_iff₀ hd']
  split at h
  case isTrue he =>
    rw [zpow_of_neg 10 he, one_div_mul_eq_div, div_le_iff₀ (by positivity)]
    exact_mod_cast of_decide_eq_true h
  case isFalse he =>
    rw [zpow_of_not_neg 10 he, mul_comm]
    exact_mod_cast of_decide_eq_true h

/-! ## Points of an interval -/

variable {m : Nat} {e : Int}

/-- The ends of an interval and a point, over the rationals. -/
theorem Interval.holds_iff (i : Interval) (c : Nat) (g : Int) :
    i.holds c g = true ↔
      if i.closed then (i.low : Rat) * 2 ^ i.unit ≤ c * 10 ^ g ∧
        (c : Rat) * 10 ^ g ≤ i.high * 2 ^ i.unit
      else (i.low : Rat) * 2 ^ i.unit < c * 10 ^ g ∧ (c : Rat) * 10 ^ g < i.high * 2 ^ i.unit := by
  obtain ⟨htenth, hten⟩ := zpow_eq_quotient cast_pow10 pow10_pos g
  obtain ⟨hhalf, htwo⟩ := zpow_eq_quotient cast_pow2 pow2_pos i.unit
  unfold Interval.holds
  dsimp only
  rw [hten, htwo]
  generalize (if g < 0 then 1 else pow10 g.toNat : Nat) = ten
  generalize (if g < 0 then pow10 (-g).toNat else 1 : Nat) = tenth at *
  generalize (if i.unit < 0 then 1 else pow2 i.unit.toNat : Nat) = two
  generalize (if i.unit < 0 then pow2 (-i.unit).toNat else 1 : Nat) = half at *
  have htenth' : (0 : Rat) < tenth := Nat.cast_pos.2 htenth
  have hhalf' : (0 : Rat) < half := Nat.cast_pos.2 hhalf
  rw [← mul_div_assoc, ← mul_div_assoc, ← mul_div_assoc, div_le_div_iff₀ hhalf' htenth',
    div_le_div_iff₀ htenth' hhalf', div_lt_div_iff₀ hhalf' htenth',
    div_lt_div_iff₀ htenth' hhalf']
  split
  · rw [decide_eq_true_eq]
    norm_cast
  · rw [decide_eq_true_eq]
    norm_cast

theorem quarter_zpow (e : Int) : (4 : Rat) * 2 ^ (e - 2) = 2 ^ e := by
  rw [zpow_sub₀ two_ne_zero]
  norm_num
  ring

/-- The middle of the interval of a double is its value. -/
theorem mid_intervalOf :
    ((intervalOf m e).mid : Rat) * 2 ^ (intervalOf m e).unit = m * 2 ^ e := by
  rw [← quarter_zpow e]
  show ((4 * m : Nat) : Rat) * 2 ^ (e - 2) = _
  push_cast
  ring

/-- The lower end of the interval of a double. -/
theorem low_intervalOf (hm : 0 < m) :
    ((intervalOf m e).low : Rat) * 2 ^ (intervalOf m e).unit = (m - margin m e) * 2 ^ e := by
  have hlow : ((intervalOf m e).low : Rat) = 4 * (m - margin m e) := by
    unfold intervalOf margin
    dsimp only
    split
    · rw [Nat.cast_sub (by omega)]
      push_cast
      ring
    · rw [Nat.cast_sub (by omega)]
      push_cast
      ring
  rw [hlow, ← quarter_zpow e]
  show 4 * ((m : Rat) - margin m e) * 2 ^ (e - 2) = _
  ring

/-- The upper end. -/
theorem high_intervalOf :
    ((intervalOf m e).high : Rat) * 2 ^ (intervalOf m e).unit = (m + 1 / 2) * 2 ^ e := by
  rw [← quarter_zpow e]
  show ((4 * m + 2 : Nat) : Rat) * 2 ^ (e - 2) = _
  push_cast
  ring

/-- A point of the interval of a double rounds to the double. -/
theorem roundsTo_of_holds {c : Nat} {g : Int} (hm : 0 < m)
    (h : (intervalOf m e).holds c g = true) : RoundsTo m e (c * 10 ^ g) := by
  rw [Interval.holds_iff, low_intervalOf hm, high_intervalOf] at h
  split at h
  case isTrue hclosed =>
    exact ⟨h.1, h.2, .inl (eq_of_beq hclosed)⟩
  case isFalse hclosed =>
    exact ⟨h.1.le, h.2.le, .inr ⟨h.1.ne', h.2.ne⟩⟩

/-! ## The search -/

theorem holds_of_gridHit {i : Interval} {g : Int} {c : Nat} (h : gridHit i g = some c) :
    i.holds c g = true := by
  unfold gridHit at h
  dsimp only at h
  split at h
  case isTrue hboth =>
    split at h
    · cases h
      exact hboth.1
    · cases h
      exact hboth.2
  case isFalse =>
    split at h
    case isTrue hbelow =>
      cases h
      exact hbelow
    case isFalse =>
      split at h
      case isTrue habove =>
        cases h
        exact habove
      case isFalse => cases h

/-- If one of the grids has a point in the interval, the search ends with such a point. -/
theorem searchGrids_holds {i : Interval} {g : Int} {count k : Nat} (hk : k < count)
    (h : (gridHit i (g - k)).isSome = true) :
    i.holds (searchGrids i g count).digits (searchGrids i g count).exponent = true ∧
      g - count < (searchGrids i g count).exponent := by
  induction count generalizing g k with
  | zero => exact absurd hk (Nat.not_lt_zero k)
  | succ count ih =>
    unfold searchGrids
    cases hhit : gridHit i g with
    | some c => exact ⟨holds_of_gridHit hhit, by dsimp only; omega⟩
    | none =>
      cases k with
      | zero =>
        rw [Nat.cast_zero, Int.sub_zero, hhit] at h
        cases h
      | succ k =>
        have hnext : g - ((k + 1 : Nat) : Int) = g - 1 - (k : Int) := by omega
        rw [hnext] at h
        obtain ⟨hholds, hlt⟩ := ih (Nat.lt_of_succ_lt_succ hk) h
        exact ⟨hholds, by dsimp only; omega⟩

/-- The point below the value of a double, on a grid finer than a quarter of its last place, is in
its interval. -/
theorem holds_below {c : Nat} {g : Int} (hm : 0 < m) (hfine : (10 : Rat) ^ g ≤ 2 ^ (e - 2))
    (hle : (c : Rat) * 10 ^ g ≤ m * 2 ^ e) (hlt : (m : Rat) * 2 ^ e < (c + 1) * 10 ^ g) :
    (intervalOf m e).holds c g = true := by
  have hquarter := quarter_zpow e
  have hpos : (0 : Rat) < 2 ^ e := by positivity
  have hmargin : 1 / 4 * (2 : Rat) ^ e ≤ margin m e * 2 ^ e :=
    mul_le_mul_of_nonneg_right (quarter_le_margin m e) hpos.le
  have hlow : (m - margin m e) * 2 ^ e < (c : Rat) * 10 ^ g := by linarith
  have hhigh : (c : Rat) * 10 ^ g < (m + 1 / 2) * 2 ^ e := by linarith
  rw [Interval.holds_iff, low_intervalOf hm, high_intervalOf]
  split
  · exact ⟨hlow.le, hhigh.le⟩
  · exact ⟨hlow, hhigh⟩

/-- A grid finer than a quarter of the last place has a point in the interval. -/
theorem gridHit_isSome {g : Int} (hm : 0 < m) (hfine : (10 : Rat) ^ g ≤ 2 ^ (e - 2)) :
    (gridHit (intervalOf m e) g).isSome = true := by
  have hgrid : (0 : Rat) < 10 ^ g := by positivity
  obtain ⟨hd, hvalue⟩ := quotient_eq (intervalOf m e).mid (intervalOf m e).unit
  obtain ⟨hb, hunits⟩ := inUnits_eq
    (quotient (intervalOf m e).mid (intervalOf m e).unit).1 hd g
  rw [hvalue, mid_intervalOf] at hunits
  unfold gridHit
  dsimp only
  generalize (inUnits (quotient (intervalOf m e).mid (intervalOf m e).unit).1
    (quotient (intervalOf m e).mid (intervalOf m e).unit).2 g) = units at *
  obtain ⟨a, b⟩ := units
  dsimp only at *
  have hb' : (0 : Rat) < b := Nat.cast_pos.2 hb
  have hle : ((a / b : Nat) : Rat) ≤ a / b := Nat.cast_div_le
  have hlt : (a / b : Rat) < ((a / b : Nat) : Rat) + 1 := by
    rw [div_lt_iff₀ hb']
    exact_mod_cast Nat.lt_mul_of_div_lt (Nat.lt_succ_self (a / b)) hb
  rw [hunits, le_div_iff₀ hgrid] at hle
  rw [hunits, div_lt_iff₀ hgrid] at hlt
  rw [holds_below hm hfine hle hlt]
  split
  · split <;> rfl
  · rfl

/-! ## Decimal exponents from binary ones -/

/-- The decimal exponent that is estimated for a power of two. -/
def estimate (k : Nat) : Nat := k * 30103 / 100000

/-- The estimate is the exponent or one off, in the range of doubles and well beyond. -/
theorem powers_near {k : Nat} (hk : k < 3000) :
    10 ^ estimate k ≤ 10 * 2 ^ k ∧ 2 ^ (k + 1) ≤ 10 ^ (estimate k + 2) := by
  have hall : (List.range 3000).all (fun k => decide (10 ^ estimate k ≤ 10 * 2 ^ k ∧
      2 ^ (k + 1) ≤ 10 ^ (estimate k + 2))) = true := by
    decide +kernel
  exact of_decide_eq_true (List.all_eq_true.1 hall k (List.mem_range.2 hk))

theorem zpow_estimate_le {k : Nat} (hk : k < 3000) : (10 : Rat) ^ estimate k ≤ 10 * 2 ^ k := by
  exact_mod_cast (powers_near hk).1

theorem pow_le_zpow_estimate {k : Nat} (hk : k < 3000) :
    (2 : Rat) ^ (k + 1) ≤ 10 ^ (estimate k + 2) := by
  exact_mod_cast (powers_near hk).2

/-- Two less than the estimate for a quotient is never too much. -/
theorem zpow_guess_le {l : Int} (hlow : -3000 < l) (hhigh : l < 3000) :
    (10 : Rat) ^ (l * 30103 / 100000 - 2) ≤ 2 ^ (l - 1) := by
  rcases Int.le_total 0 l with hpos | hneg
  · obtain ⟨k, rfl⟩ := Int.eq_ofNat_of_zero_le hpos
    have hguess : (k : Int) * 30103 / 100000 = (estimate k : Int) := by
      unfold estimate
      omega
    have hestimate := zpow_estimate_le (show k < 3000 by omega)
    rw [hguess, zpow_sub₀ (by norm_num), zpow_sub₀ two_ne_zero, zpow_natCast, zpow_natCast,
      div_le_div_iff₀ (by norm_num) (by norm_num)]
    have hpow : (0 : Rat) ≤ 2 ^ k := by positivity
    norm_num
    linarith
  · obtain ⟨k, rfl⟩ : ∃ k : Nat, l = -(k : Int) := ⟨(-l).toNat, by omega⟩
    have hguess : -(k : Int) * 30103 / 100000 - 2 ≤ -((estimate k + 2 : Nat) : Int) := by
      unfold estimate
      omega
    calc (10 : Rat) ^ (-(k : Int) * 30103 / 100000 - 2)
        ≤ 10 ^ (-((estimate k + 2 : Nat) : Int)) := zpow_le_zpow_right₀ (by norm_num) hguess
      _ = (10 ^ (estimate k + 2))⁻¹ := by rw [zpow_neg, zpow_natCast]
      _ ≤ (2 ^ (k + 1))⁻¹ :=
        inv_anti₀ (by positivity) (pow_le_zpow_estimate (by omega))
      _ = 2 ^ (-(k : Int) - 1) := by
        rw [show -(k : Int) - 1 = -((k + 1 : Nat) : Int) by push_cast; ring, zpow_neg, zpow_natCast]

/-- The lead exponent is not too large, and little below the estimate. -/
theorem zpow_leadExponent_le {n d : Nat} (hn : n ≠ 0) (hd : d ≠ 0)
    (hlow : -3000 < (n.log2 : Int) - d.log2) (hhigh : (n.log2 : Int) - d.log2 < 3000) :
    (10 : Rat) ^ leadExponent n d ≤ n / d ∧
      ((n.log2 : Int) - d.log2) * 30103 / 100000 - 2 ≤ leadExponent n d := by
  have hd' : 0 < d := Nat.pos_of_ne_zero hd
  have hguess := (zpow_guess_le hlow hhigh).trans (log2_bounds hn hd).1.le
  unfold leadExponent
  dsimp only
  generalize ((n.log2 : Int) - d.log2) * 30103 / 100000 = guess at *
  split
  case isTrue h => exact ⟨zpow_le_of_reaches hd' h, by omega⟩
  case isFalse =>
    split
    case isTrue h => exact ⟨zpow_le_of_reaches hd' h, by omega⟩
    case isFalse =>
      split
      case isTrue h => exact ⟨zpow_le_of_reaches hd' h, by omega⟩
      case isFalse =>
        split
        case isTrue h => exact ⟨zpow_le_of_reaches hd' h, by omega⟩
        case isFalse => exact ⟨hguess, le_refl _⟩

/-! ## The shortest decimal -/

theorem trim_value (fuel : Nat) (d : Decimal) :
    (trim fuel d).value = d.value ∧ d.exponent ≤ (trim fuel d).exponent := by
  induction fuel generalizing d with
  | zero => exact ⟨rfl, le_refl _⟩
  | succ fuel ih =>
    rw [trim]
    split
    case isTrue h =>
      obtain ⟨hvalue, hle⟩ := ih ⟨d.digits / 10, d.exponent + 1⟩
      have hdigits : (d.digits : Rat) = ((d.digits / 10 : Nat) : Rat) * 10 := by
        exact_mod_cast (Nat.div_mul_cancel (Nat.dvd_of_mod_eq_zero h.2)).symm
      refine ⟨hvalue.trans ?_, by dsimp only at hle; omega⟩
      show ((d.digits / 10 : Nat) : Rat) * 10 ^ (d.exponent + 1) = d.digits * 10 ^ d.exponent
      rw [hdigits, zpow_add_one₀ (by norm_num)]
      ring
    case isFalse => exact ⟨rfl, le_refl _⟩

/-- A positive double lies between the powers of two at the ends of the range. -/
theorem value_bounds (hm : 0 < m) (h : Canonical m e) :
    (2 : Rat) ^ (-1074 : Int) ≤ m * 2 ^ e ∧ (m : Rat) * 2 ^ e < 2 ^ (1024 : Int) := by
  have hpos : (0 : Rat) < 2 ^ e := by positivity
  constructor
  · have hone : (1 : Rat) ≤ m := Nat.one_le_cast.2 hm
    calc (2 : Rat) ^ (-1074 : Int) ≤ 2 ^ e := zpow_le_zpow_right₀ one_le_two h.least
      _ ≤ m * 2 ^ e := le_mul_of_one_le_left hpos.le hone
  · have hlt : (m : Rat) < 2 ^ (53 : Int) := by
      have hhalf := h.add_half_lt
      linarith
    calc (m : Rat) * 2 ^ e < 2 ^ (53 : Int) * 2 ^ e := mul_lt_mul_of_pos_right hlt hpos
      _ = 2 ^ (53 + e) := (zpow_add₀ two_ne_zero _ _).symm
      _ ≤ 2 ^ (1024 : Int) := zpow_le_zpow_right₀ one_le_two (by have := h.most; omega)

/-- Seventeen places behind the first digit of a double there is at most a quarter of its last
place. -/
theorem fine_of_lead (h : Canonical m e) {lead : Int} (hlead : (10 : Rat) ^ lead ≤ m * 2 ^ e) :
    (10 : Rat) ^ (lead - ((17 : Nat) : Int)) ≤ 2 ^ (e - 2) := by
  have hlt : (m : Rat) ≤ 2 ^ (53 : Int) := by
    have hhalf := h.add_half_lt
    linarith
  have hpos : (0 : Rat) < 2 ^ e := by positivity
  have hbound : (m : Rat) * 2 ^ e ≤ 2 ^ (53 : Int) * 2 ^ e :=
    mul_le_mul_of_nonneg_right hlt hpos.le
  rw [zpow_sub₀ (by norm_num), zpow_sub₀ two_ne_zero, zpow_natCast,
    div_le_div_iff₀ (by norm_num) (by norm_num)]
  norm_num at hbound ⊢
  linarith

/-- The shortest decimal of a double rounds to it, and its exponent is not far below the range. -/
theorem shortest_roundsTo (hm : 0 < m) (h : Canonical m e) :
    RoundsTo m e (shortest m e).value ∧ -400 ≤ (shortest m e).exponent := by
  obtain ⟨hd, hvalue⟩ := quotient_eq m e
  unfold shortest
  rw [if_neg (Nat.ne_of_gt hm)]
  dsimp only
  generalize quotient m e = nd at *
  obtain ⟨n, d⟩ := nd
  dsimp only at *
  have hmpos : (0 : Rat) < m := Nat.cast_pos.2 hm
  have hn : n ≠ 0 := by
    rintro rfl
    rw [Nat.cast_zero, zero_div] at hvalue
    have : (0 : Rat) < m * 2 ^ e := by positivity
    linarith
  have hd0 : d ≠ 0 := Nat.ne_of_gt hd
  obtain ⟨hleast, hmost⟩ := value_bounds hm h
  obtain ⟨hlow, hhigh⟩ := log2_bounds hn hd0
  rw [← hvalue] at hleast hmost
  have hlow' := (zpow_lt_zpow_iff_right₀ one_lt_two).1 (hlow.trans hmost)
  have hhigh' := (zpow_lt_zpow_iff_right₀ one_lt_two).1 (hleast.trans_lt hhigh)
  obtain ⟨hlead, hestimate⟩ := zpow_leadExponent_le hn hd0 (by omega) (by omega)
  generalize leadExponent n d = lead at *
  rw [hvalue] at hlead
  obtain ⟨hholds, hexponent⟩ := searchGrids_holds (show 17 < 18 by decide)
    (gridHit_isSome hm (fine_of_lead h hlead))
  obtain ⟨htrim, hle⟩ := trim_value 20 (searchGrids (intervalOf m e) lead 18)
  constructor
  · rw [htrim]
    exact roundsTo_of_holds hm hholds
  · omega

/-! ## Reading a decimal -/

/-- What rounds to a positive double lies between the powers of two just past the ends of the
range. -/
theorem bounds_of_roundsTo {x : Rat} (hm : 0 < m) (h : Canonical m e) (hx : RoundsTo m e x) :
    (2 : Rat) ^ (-1075 : Int) ≤ x ∧ x < 2 ^ (1024 : Int) := by
  have hpos : (0 : Rat) < 2 ^ e := by positivity
  have hmargin := margin_le m e
  constructor
  · have hone : (1 : Rat) ≤ m := Nat.one_le_cast.2 hm
    have hhalf : (2 : Rat) ^ (-1 : Int) ≤ m - margin m e := by
      rw [zpow_neg_one]
      linarith
    calc (2 : Rat) ^ (-1075 : Int) ≤ 2 ^ (-1 + e) :=
          zpow_le_zpow_right₀ one_le_two (by have := h.least; unfold leastExponent at this; omega)
      _ = 2 ^ (-1 : Int) * 2 ^ e := zpow_add₀ two_ne_zero _ _
      _ ≤ (m - margin m e) * 2 ^ e := mul_le_mul_of_nonneg_right hhalf hpos.le
      _ ≤ x := hx.low
  · calc x ≤ (m + 1 / 2) * 2 ^ e := hx.high
      _ < 2 ^ (53 : Int) * 2 ^ e := mul_lt_mul_of_pos_right h.add_half_lt hpos
      _ = 2 ^ (53 + e) := (zpow_add₀ two_ne_zero _ _).symm
      _ ≤ 2 ^ (1024 : Int) := zpow_le_zpow_right₀ one_le_two (by have := h.most; omega)

/-- Powers of ten well outside the range of doubles. -/
theorem powers_outside :
    (2 : Rat) ^ (1024 : Int) * 10 ^ (400 : Int) < 2 ^ 3000 ∧
      (10 : Rat) * 2 ^ (1024 : Int) ≤ 10 ^ (401 : Int) ∧
      (10 : Rat) ^ (-399 : Int) ≤ 2 ^ (-1075 : Int) := by
  have hnat : 2 ^ 1024 * 10 ^ 400 < 2 ^ 3000 ∧ 10 * 2 ^ 1024 ≤ 10 ^ 401 ∧ 2 ^ 1075 ≤ 10 ^ 399 := by
    decide +kernel
  refine ⟨?_, ?_, ?_⟩
  · rw [zpow_ofNat, zpow_ofNat]
    exact_mod_cast hnat.1
  · rw [zpow_ofNat, zpow_ofNat]
    exact_mod_cast hnat.2.1
  · rw [zpow_neg, zpow_neg, zpow_ofNat, zpow_ofNat]
    refine inv_anti₀ (by positivity) ?_
    exact_mod_cast hnat.2.2

/-- The digits of a decimal in the range of doubles are not too many to estimate their number. -/
theorem log2_digits_lt {digits : Nat} {g : Int} (hdigits : digits ≠ 0) (hg : -400 ≤ g)
    (hhigh : (digits : Rat) * 10 ^ g < 2 ^ (1024 : Int)) : digits.log2 < 3000 := by
  have hlog : (2 : Rat) ^ digits.log2 ≤ digits := by exact_mod_cast Nat.log2_self_le hdigits
  have hgrid : (1 : Rat) ≤ 10 ^ g * 10 ^ (400 : Int) := by
    rw [← zpow_add₀ (by norm_num)]
    exact one_le_zpow₀ (by norm_num) (by omega)
  have hlt : (2 : Rat) ^ digits.log2 < 2 ^ 3000 :=
    calc (2 : Rat) ^ digits.log2 ≤ digits := hlog
      _ ≤ digits * (10 ^ g * 10 ^ (400 : Int)) :=
        le_mul_of_one_le_right (Nat.cast_nonneg _) hgrid
      _ = digits * 10 ^ g * 10 ^ (400 : Int) := (mul_assoc _ _ _).symm
      _ < 2 ^ (1024 : Int) * 10 ^ (400 : Int) := mul_lt_mul_of_pos_right hhigh (by norm_num)
      _ < 2 ^ 3000 := powers_outside.1
  exact (pow_lt_pow_iff_right₀ one_lt_two).1 hlt

/-- The estimated size of a decimal in the range of doubles is neither too large nor too small. -/
theorem size_bounds {digits : Nat} {g : Int} (hdigits : digits ≠ 0) (hg : -400 ≤ g)
    (hlow : (2 : Rat) ^ (-1075 : Int) ≤ digits * 10 ^ g)
    (hhigh : (digits : Rat) * 10 ^ g < 2 ^ (1024 : Int)) :
    ¬ 400 < (digits.log2 : Int) * 30103 / 100000 + g ∧
      ¬ (digits.log2 : Int) * 30103 / 100000 + g < -400 := by
  have hten : (0 : Rat) < 10 ^ g := by positivity
  have hlog : (2 : Rat) ^ digits.log2 ≤ digits := by exact_mod_cast Nat.log2_self_le hdigits
  have hlog' : (digits : Rat) < 2 ^ (digits.log2 + 1) := by exact_mod_cast Nat.lt_log2_self
  have hrange := log2_digits_lt hdigits hg hhigh
  have hestimate : (digits.log2 : Int) * 30103 / 100000 = (estimate digits.log2 : Int) := by
    unfold estimate
    omega
  rw [hestimate]
  constructor
  · intro hlarge
    have hcontra : (10 : Rat) ^ (401 : Int) < 10 * 2 ^ (1024 : Int) :=
      calc (10 : Rat) ^ (401 : Int) ≤ 10 ^ ((estimate digits.log2 : Int) + g) :=
            zpow_le_zpow_right₀ (by norm_num) (by omega)
        _ = 10 ^ estimate digits.log2 * 10 ^ g := by rw [zpow_add₀ (by norm_num), zpow_natCast]
        _ ≤ 10 * 2 ^ digits.log2 * 10 ^ g :=
          mul_le_mul_of_nonneg_right (zpow_estimate_le hrange) hten.le
        _ ≤ 10 * digits * 10 ^ g :=
          mul_le_mul_of_nonneg_right (mul_le_mul_of_nonneg_left hlog (by norm_num)) hten.le
        _ = 10 * (digits * 10 ^ g) := mul_assoc _ _ _
        _ < 10 * 2 ^ (1024 : Int) := mul_lt_mul_of_pos_left hhigh (by norm_num)
    exact absurd hcontra (not_lt.2 powers_outside.2.1)
  · intro hsmall
    have hcontra : (2 : Rat) ^ (-1075 : Int) < 10 ^ (-399 : Int) :=
      calc (2 : Rat) ^ (-1075 : Int) ≤ digits * 10 ^ g := hlow
        _ < 2 ^ (digits.log2 + 1) * 10 ^ g := mul_lt_mul_of_pos_right hlog' hten
        _ ≤ 10 ^ (estimate digits.log2 + 2) * 10 ^ g :=
          mul_le_mul_of_nonneg_right (pow_le_zpow_estimate hrange) hten.le
        _ = 10 ^ (((estimate digits.log2 + 2 : Nat) : Int) + g) := by
          rw [zpow_add₀ (by norm_num), zpow_natCast]
        _ ≤ 10 ^ (-399 : Int) := zpow_le_zpow_right₀ (by norm_num) (by push_cast; omega)
    exact absurd hcontra (not_lt.2 powers_outside.2.2)

/-- A decimal in the interval of a double is read as the double. -/
theorem ofDecimal_of_roundsTo {digits : Nat} {g : Int} (negative : Bool) (hm : 0 < m)
    (h : Canonical m e) (hg : -400 ≤ g) (hrounds : RoundsTo m e (digits * 10 ^ g)) :
    ofDecimal negative digits g = assemble negative m e := by
  obtain ⟨hlow, hhigh⟩ := bounds_of_roundsTo hm h hrounds
  have hdigits : digits ≠ 0 := by
    rintro rfl
    rw [Nat.cast_zero, zero_mul] at hlow
    exact absurd hlow (not_le.2 (by positivity))
  obtain ⟨hlarge, hsmall⟩ := size_bounds hdigits hg hlow hhigh
  unfold ofDecimal
  dsimp only
  rw [if_neg hdigits, if_neg hlarge, if_neg hsmall]
  split
  case isTrue hpos =>
    have hvalue : (digits : Rat) * 10 ^ g = (digits * pow10 g.toNat : Nat) / (1 : Nat) := by
      rw [zpow_of_not_neg 10 (Int.not_lt.2 hpos), Nat.cast_mul, cast_pow10, Nat.cast_one, div_one]
    rw [hvalue] at hrounds
    exact ofQuotient_of_roundsTo negative
      (Nat.mul_ne_zero hdigits (Nat.ne_of_gt (pow10_pos _))) one_ne_zero h hrounds
  case isFalse hneg =>
    have hvalue : (digits : Rat) * 10 ^ g = digits / (pow10 (-g).toNat : Nat) := by
      rw [zpow_of_neg 10 (Int.not_le.1 hneg), cast_pow10, mul_one_div]
    rw [hvalue] at hrounds
    exact ofQuotient_of_roundsTo negative hdigits (Nat.ne_of_gt (pow10_pos _)) h hrounds

/-- Digits and an exponent that stand for the shortest decimal of a finite double are read as that
double. -/
theorem ofDecimal_shortest {x : Float} {negative : Bool} (hx : view x = .finite negative m e)
    {digits : Nat} {g : Int} (hg : -400 ≤ g)
    (hvalue : (digits : Rat) * 10 ^ g = (shortest m e).value) :
    ofDecimal negative digits g = x := by
  obtain ⟨hcanonical, hassemble⟩ := assemble_view hx
  rcases Nat.eq_zero_or_pos m with rfl | hm
  · have hzero : (shortest 0 e).value = 0 := by
      show ((0 : Nat) : Rat) * 10 ^ (0 : Int) = 0
      rw [Nat.cast_zero, zero_mul]
    have hdigits : digits = 0 := by
      rw [hzero] at hvalue
      have hten : (10 : Rat) ^ g ≠ 0 := by positivity
      exact Nat.cast_eq_zero.1 ((mul_eq_zero.1 hvalue).resolve_right hten)
    have he : e = leastExponent := by
      by_contra hne
      have hle := hcanonical.full (lt_of_le_of_ne hcanonical.least (Ne.symm hne))
      rw [pow2_52] at hle
      omega
    rw [hdigits, ← hassemble, he]
    rfl
  · rw [← hassemble]
    refine ofDecimal_of_roundsTo negative hm hcanonical hg ?_
    rw [hvalue]
    exact (shortest_roundsTo hm hcanonical).1

end Decimal

end Tradeflow
