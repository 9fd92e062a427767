/-
  Doubles that are nearest to a rational: products and quotients are rounded once.

  `Nearest q u` says that `u` stands for `R` units of a power of two, where `R` is the whole number nearest
  to `q` in these units; they are as fine as 53 places allow, but not finer than the least double. Too many
  units are infinite. So rounding never leads past a double (`Nearest.le_units`, `Nearest.ge_units`), keeps
  what is one (`Nearest.eq`), and moves by half a unit at most (`Nearest.error`).

  A quotient of mantissas is cut off, and what was cut off is told from half a unit only (`Accuracy`). That
  is enough: a mantissa with two more places, one for half a unit and one for what is beyond, is rounded to
  the same number (`whole_shiftRight_two`), and that number is as near as it can be to the quotient
  (`near_of_residue`).

  `nearest_mul`, `nearest_div`: products and quotients of doubles that are not negative are nearest to the
  exact ones.
-/
import Tradeflow.Proofs.Number.Extent
import Tradeflow.Proofs.Number.Monotone

namespace Tradeflow

namespace Double

open Float.Model Float.Model.UnpackedFloat

/-! ## What was cut off a mantissa -/

/-- The fraction `num / den` of a unit, as far as rounding tells it: whether it is half a unit or more,
and whether it is anything beyond that. -/
def residue (num den : Nat) : Nat :=
  if num = 0 then 0 else if 2 * num < den then 1 else if 2 * num = den then 2 else 3

/-- A mantissa that was cut off is a mantissa of two more places that is cut off now. -/
theorem whole_shiftRight_two (M num den : Nat) :
    whole (4 * M + residue num den) >>> 2 =
      ExtendedMantissa.ofMantissaAndAccuracy M (accuracyOfFraction num den) := by
  have hshift : ∀ r < 4, whole (4 * M + r) >>> 2 = ⟨M, r / 2 % 2 != 0, r % 2 != 0⟩ := by
    intro r hr
    rw [shiftRight_succ]
    congr 1
    · omega
    · congr 1
      omega
    · congr 1
      omega
  unfold residue accuracyOfFraction
  split
  · exact hshift 0 (by decide)
  · rcases lt_trichotomy (2 * num) den with h | h | h
    · rw [if_pos h, Nat.compare_eq_lt.2 h]
      exact hshift 1 (by decide)
    · rw [if_neg (by omega), if_pos h, Nat.compare_eq_eq.2 h]
      exact hshift 2 (by decide)
    · rw [if_neg (by omega), if_neg (by omega), Nat.compare_eq_gt.2 h]
      exact hshift 3 (by decide)

theorem shiftRight_shiftRight (em : ExtendedMantissa) (j k : Nat) :
    (em >>> j) >>> k = em >>> (j + k) := by
  induction k with
  | zero => rfl
  | succ k ih =>
    show ((em >>> j) >>> k).shiftRightOne = (em >>> (j + k)).shiftRightOne
    rw [ih]

theorem residue_cases {num den : Nat} (h : num < den) :
    residue num den = 0 ∧ (num / den : Rat) = 0 ∨
    residue num den = 1 ∧ 0 < (num / den : Rat) ∧ (num / den : Rat) < 1 / 2 ∨
    residue num den = 2 ∧ (num / den : Rat) = 1 / 2 ∨
    residue num den = 3 ∧ 1 / 2 < (num / den : Rat) ∧ (num / den : Rat) < 1 := by
  have hden : (0 : Rat) < den := Nat.cast_pos.2 (by omega)
  unfold residue
  rcases Nat.eq_zero_or_pos num with rfl | hpos
  · exact .inl ⟨rfl, by simp⟩
  · have hnum : (0 : Rat) < num := Nat.cast_pos.2 hpos
    have hlt : (num : Rat) < den := Nat.cast_lt.2 h
    rw [if_neg (Nat.ne_of_gt hpos)]
    rcases lt_trichotomy (2 * num) den with hhalf | hhalf | hhalf
    · have hcast : (2 : Rat) * num < den := by exact_mod_cast hhalf
      rw [if_pos hhalf]
      refine .inr (.inl ⟨rfl, div_pos hnum hden, ?_⟩)
      rw [div_lt_iff₀ hden]
      linarith
    · have hcast : (2 : Rat) * num = den := by exact_mod_cast hhalf
      rw [if_neg (by omega), if_pos hhalf]
      refine .inr (.inr (.inl ⟨rfl, ?_⟩))
      rw [div_eq_iff hden.ne']
      linarith
    · have hcast : (den : Rat) < 2 * num := by exact_mod_cast hhalf
      rw [if_neg (by omega), if_neg (by omega)]
      refine .inr (.inr (.inr ⟨rfl, ?_, (div_lt_one hden).2 hlt⟩))
      rw [lt_div_iff₀ hden]
      linarith

/-- What is rounded of a mantissa and a residue is within half a unit of the mantissa and the fraction. -/
theorem near_of_residue (M k : Nat) {num den : Nat} (h : num < den) :
    |(roundHalfEven (4 * M + residue num den) (2 ^ (k + 2)) : Rat) * 2 ^ k - (M + num / den)| ≤
      2 ^ k / 2 := by
  have hnear := roundHalfEven_near (4 * M + residue num den) (2 ^ (k + 2)) (Nat.two_pow_pos _)
  have hfraction := residue_cases h
  generalize roundHalfEven (4 * M + residue num den) (2 ^ (k + 2)) = R at *
  generalize (num / den : Rat) = f at *
  generalize residue num den = r at *
  have hunits : (2 : Nat) ^ (k + 2) * R = 4 * (R * 2 ^ k) := by
    rw [Nat.pow_add]
    ring
  rw [hunits, Nat.pow_add] at hnear
  rw [abs_le]
  cases k with
  | zero =>
    have hlow : 4 * M + r ≤ 4 * R + 2 := by omega
    have hhigh : 4 * R ≤ 4 * M + r + 2 := by omega
    rw [pow_zero, mul_one]
    rcases hfraction with ⟨rfl, hf⟩ | ⟨rfl, hf⟩ | ⟨rfl, hf⟩ | ⟨rfl, hf⟩
    · have hR : R = M := by omega
      rw [hR]
      constructor <;> linarith
    · have hR : R = M := by omega
      rw [hR]
      constructor <;> linarith
    · have hR : R = M ∨ R = M + 1 := by omega
      rcases hR with hR | hR <;> rw [hR] <;> push_cast <;> constructor <;> linarith
    · have hR : R = M + 1 := by omega
      rw [hR]
      push_cast
      constructor <;> linarith
  | succ k =>
    -- The bounds are whole numbers, and what was cut off is less than one.
    have hlow : M ≤ R * 2 ^ (k + 1) + 2 ^ k ∧ (r ≠ 0 → M + 1 ≤ R * 2 ^ (k + 1) + 2 ^ k) := by
      rw [Nat.pow_succ] at hnear ⊢
      omega
    have hhigh : R * 2 ^ (k + 1) ≤ M + 2 ^ k := by
      have hr : r < 4 := by
        rcases hfraction with ⟨rfl, -⟩ | ⟨rfl, -⟩ | ⟨rfl, -⟩ | ⟨rfl, -⟩ <;> decide
      rw [Nat.pow_succ] at hnear ⊢
      omega
    have hhigh' : (R : Rat) * 2 ^ (k + 1) ≤ M + 2 ^ k := by exact_mod_cast hhigh
    have hlow' : (M : Rat) ≤ R * 2 ^ (k + 1) + 2 ^ k := by exact_mod_cast hlow.1
    have hhalf : (2 : Rat) ^ (k + 1) / 2 = 2 ^ k := by
      rw [pow_succ]
      ring
    have hnext : f = 0 ∨ (M : Rat) + 1 ≤ R * 2 ^ (k + 1) + 2 ^ k := by
      rcases hfraction with ⟨-, hf⟩ | ⟨hr, -⟩ | ⟨hr, -⟩ | ⟨hr, -⟩
      · exact .inl hf
      all_goals exact .inr (by exact_mod_cast hlow.2 (by omega))
    have hf : 0 ≤ f ∧ f < 1 := by
      rcases hfraction with ⟨-, rfl⟩ | ⟨-, hf⟩ | ⟨-, rfl⟩ | ⟨-, hf⟩
      · norm_num
      · constructor <;> linarith
      · norm_num
      · constructor <;> linarith
    rw [hhalf]
    constructor
    · rcases hnext with rfl | hnext <;> linarith
    · linarith

/-! ## The nearest double -/

/-- A double is nearest to a rational that is not negative: it is a whole number of units that are as
fine as 53 places allow, half a unit away at most; or it is infinite, and there are too many. -/
structure Nearest (q : Rat) (x : Float) : Prop where
  upward : Upward x
  units : ∃ (g : Int) (R : Nat), -1074 ≤ g ∧ q < 2 ^ 53 * 2 ^ g ∧ (2 ^ 52 * 2 ^ g ≤ q ∨ g = -1074) ∧
    |R * 2 ^ g - q| ≤ 2 ^ g / 2 ∧
    (extent x = (R * 2 ^ g : Rat) ∨ extent x = ⊤ ∧ 2 ^ (1024 : Int) ≤ (R * 2 ^ g : Rat))

variable {x y : Float} {q : Rat}

/-- Units of a power of two, in units of the least one. -/
theorem units_eq (R : Nat) {g : Int} (hg : -1074 ≤ g) :
    ((R * 2 ^ (g + 1074).toNat : Nat) : Rat) * 2 ^ (-1074 : Int) = R * 2 ^ g := by
  rw [Nat.cast_mul, Nat.cast_pow, Nat.cast_ofNat, ← zpow_natCast, mul_assoc, ← zpow_add₀ two_ne_zero]
  congr 2
  omega

theorem extent_of_holds {N : Nat} (h : Holds N x.toModel.unpack) :
    extent x = (N * 2 ^ (-1074 : Int) : Rat) := by
  rcases Measures.cases h with ⟨⟨s, hu⟩, rfl⟩ | ⟨m, e, hm, hu, hleast, rfl⟩
  · rw [extent_of_isFinite ((isFinite_iff x).2 (.inl ⟨s, hu⟩)), exact_of_zero hu, Nat.cast_zero,
      zero_mul]
  · rw [extent_of_isFinite ((isFinite_iff x).2 (.inr ⟨_, m, e, hm, hu⟩)), exact_of_positive hu,
      units_eq m hleast]

theorem two_pow_le_units {N : Nat} (h : 2098 ≤ N.log2) :
    (2 : Rat) ^ (1024 : Int) ≤ N * 2 ^ (-1074 : Int) := by
  have hself : ((2 ^ N.log2 : Nat) : Rat) ≤ N :=
    Nat.cast_le.2 (Nat.log2_self_le (n := N) (by rintro rfl; exact absurd h (by decide)))
  rw [Nat.cast_pow, Nat.cast_ofNat, ← zpow_natCast] at hself
  calc (2 : Rat) ^ (1024 : Int) ≤ 2 ^ ((N.log2 : Int) + -1074) :=
        zpow_le_zpow_right₀ one_le_two (by omega)
    _ = 2 ^ (N.log2 : Int) * 2 ^ (-1074 : Int) := zpow_add₀ two_ne_zero _ _
    _ ≤ N * 2 ^ (-1074 : Int) := mul_le_mul_of_nonneg_right hself (zpow_pos two_pos _).le

theorem shiftToTargetExponent_residue (M num den : Nat) {E g : Int} {k : Nat}
    (hg : max ((M.log2 : Int) + 1 + E - 53) (-1074) = g) (hk : k = (g - E).toNat) :
    shiftToTargetExponent .binary64 M E (accuracyOfFraction num den) =
      (whole (4 * M + residue num den) >>> (2 + k), E + k) := by
  have htarget : Format.binary64.targetExponent (totalExponent M E) =
      max ((M.log2 : Int) + 1 + E - 53) (-1074) := rfl
  rw [shiftToTargetExponent, shiftToExponent, htarget, hg, ← hk, ← shiftRight_shiftRight,
    whole_shiftRight_two]

/-- What a rounded mantissa stands for, once it is moved again and is a word. -/
theorem extent_of_rounded {M R : Nat} {E g : Int} {accuracy : Accuracy} {first : ExtendedMantissa}
    (hx : x.toModel.unpack = repack (roundWithAccuracy .binary64 .positive M E accuracy))
    (hfirst : shiftToTargetExponent .binary64 M E accuracy = (first, g))
    (hrounded : first.roundedMantissa = R) (hleast : -1074 ≤ g) (hmost : R ≤ 2 ^ 53)
    (hfull : g = -1074 ∨ 2 ^ 52 ≤ R) :
    extent x = (R * 2 ^ g : Rat) ∨ extent x = ⊤ ∧ 2 ^ (1024 : Int) ≤ (R * 2 ^ g : Rat) := by
  have hlast := shiftToTargetExponent_eq R hleast
  rcases Nat.eq_zero_or_pos R with rfl | hR
  · left
    have hzero : roundWithAccuracy .binary64 .positive M E accuracy = .zero .positive := by
      unfold roundWithAccuracy
      rw [hfirst]
      dsimp only
      rw [hrounded, hlast]
      rfl
    rw [hzero, repack_zero] at hx
    rw [extent_of_isFinite ((isFinite_iff x).2 (.inl ⟨_, hx⟩)), exact_of_zero hx, Nat.cast_zero,
      zero_mul]
  · obtain ⟨hpos, hlog⟩ := log2_shift (M := R) (k := R.log2 - 52) (by omega) hR
    have hround := roundWithAccuracy_eq .positive hfirst (by rw [hrounded]; exact hlast)
      (hpos.trans_eq (mantissa_shift (whole R) _).symm)
    have hplaces : R.log2 ≤ 53 := (log2_mono hmost).trans (by decide)
    have hcarry := mul_of_carry (q := R - 1) (R := R) (by omega) (by omega) (by omega)
    have hunits : R / 2 ^ (R.log2 - 52) * 2 ^ (g + (R.log2 - 52 : Nat) + 1074).toNat =
        R * 2 ^ (g + 1074).toNat := by
      have hexponent : (g + (R.log2 - 52 : Nat) + 1074).toNat =
          R.log2 - 52 + (g + 1074).toNat := by omega
      rw [hexponent, Nat.pow_add, ← Nat.mul_assoc, hcarry]
    have hnormal : (R / 2 ^ (R.log2 - 52)).log2 = 52 ∨ g + (R.log2 - 52 : Nat) = -1074 := by
      rcases hfull with hleast | hle
      · omega
      · have := (Nat.le_log2 (Nat.ne_of_gt hR)).2 hle
        omega
    have hword := repack_positive hpos (e := g + (R.log2 - 52 : Nat)) (by omega) (by omega) hnormal
    have hunpack : x.toModel.unpack =
        repack (.finite .positive (R / 2 ^ (R.log2 - 52)) (g + (R.log2 - 52 : Nat)) hpos) :=
      hx.trans (congrArg repack (hround.trans (finite_congr (mantissa_shift (whole R) _) rfl)))
    rw [hunits, ← hunpack] at hword
    rw [← units_eq R hleast]
    exact hword.imp (fun hfits => extent_of_holds hfits.2)
      fun hlarge => ⟨extent_of_infinite hlarge.2, two_pow_le_units hlarge.1⟩

/-- How much is kept of a mantissa that has as many places as fit, or an exponent that is not above the
least one. -/
theorem kept_bounds {M k : Nat} {E g : Int}
    (hg : max ((M.log2 : Int) + 1 + E - 53) (-1074) = g) (hshift : (g - E).toNat = k)
    (hplaces : 52 ≤ M.log2 ∨ E ≤ -1074) :
    E + k = g ∧ M / 2 ^ k < 2 ^ 53 ∧ (g = -1074 ∨ 2 ^ 52 ≤ M / 2 ^ k) := by
  refine ⟨by omega, ?_, ?_⟩
  · refine Nat.div_lt_of_lt_mul ((@Nat.lt_log2_self M).trans_le ?_)
    rw [← Nat.pow_add]
    exact Nat.pow_le_pow_right (by decide) (by omega)
  · by_cases hleast : g = -1074
    · exact .inl hleast
    · have hlog : M.log2 = 52 + k := by omega
      have hM : M ≠ 0 := by
        rintro rfl
        exact absurd hlog (by rw [Nat.log2_zero]; omega)
      refine .inr ((Nat.le_div_iff_mul_le (Nat.two_pow_pos k)).2 ?_)
      rw [← Nat.pow_add, ← hlog]
      exact Nat.log2_self_le hM

/-- A mantissa with what was cut off it is rounded to the nearest double, if it has as many places as
fit or its exponent is not above the least one. -/
theorem nearest_roundWithAccuracy {M num den : Nat} {E : Int}
    (hx : x.toModel.unpack =
      repack (roundWithAccuracy .binary64 .positive M E (accuracyOfFraction num den)))
    (h : num < den) (hq : (M + num / den) * 2 ^ E = q) (hplaces : 52 ≤ M.log2 ∨ E ≤ -1074) :
    Nearest q x := by
  generalize hg : max ((M.log2 : Int) + 1 + E - 53) (-1074) = g
  generalize hshift : (g - E).toNat = k
  obtain ⟨hk, hkept, hfull⟩ := kept_bounds hg hshift hplaces
  have hfirst := shiftToTargetExponent_residue M num den hg hshift.symm
  rw [hk] at hfirst
  have hfraction : (0 : Rat) ≤ num / den ∧ (num / den : Rat) < 1 := by
    have hden : (0 : Rat) < den := Nat.cast_pos.2 (by omega)
    exact ⟨div_nonneg (Nat.cast_nonneg _) hden.le, (div_lt_one hden).2 (Nat.cast_lt.2 h)⟩
  have hcut : (4 * M + residue num den) / 2 ^ (2 + k) = M / 2 ^ k := by
    have hresidue : residue num den < 4 := by
      rcases residue_cases h with ⟨hr, -⟩ | ⟨hr, -⟩ | ⟨hr, -⟩ | ⟨hr, -⟩ <;> omega
    rw [Nat.pow_add, ← Nat.div_div_eq_div_mul]
    congr 1
    omega
  have hnear := near_of_residue M k h
  rw [Nat.add_comm k 2] at hnear
  have hrounded := roundedMantissa_shiftRight (4 * M + residue num den) (2 + k)
  obtain ⟨hlow, hhigh⟩ := div_le_roundHalfEven (4 * M + residue num den) (2 ^ (2 + k))
  rw [hcut] at hlow hhigh
  generalize roundHalfEven (4 * M + residue num den) (2 ^ (2 + k)) = R at *
  have hunit : (2 : Rat) ^ g = 2 ^ k * 2 ^ E := by
    rw [← hk, zpow_add₀ two_ne_zero, zpow_natCast, mul_comm]
  have hpos : (0 : Rat) < 2 ^ E := zpow_pos two_pos E
  refine ⟨?_, g, R, by omega, ?_, ?_, ?_, extent_of_rounded hx hfirst hrounded (by omega) (by omega)
    (hfull.imp_right fun hle => hle.trans hlow)⟩
  · unfold Upward
    rw [hx]
    exact round_sign _ _ _ _
  · have hM : (M : Rat) + 1 ≤ 2 ^ 53 * 2 ^ k := by
      have hlt : M + 1 ≤ 2 ^ 53 * 2 ^ k := (Nat.div_lt_iff_lt_mul (Nat.two_pow_pos k)).1 hkept
      exact_mod_cast hlt
    rw [← hq, hunit, ← mul_assoc]
    exact mul_lt_mul_of_pos_right (by linarith) hpos
  · refine hfull.symm.imp_left fun hle => ?_
    have hM : (2 : Rat) ^ 52 * 2 ^ k ≤ M := by
      have hself : 2 ^ 52 * 2 ^ k ≤ M := (Nat.le_div_iff_mul_le (Nat.two_pow_pos k)).1 hle
      exact_mod_cast hself
    rw [← hq, hunit, ← mul_assoc]
    exact mul_le_mul_of_nonneg_right (by linarith) hpos.le
  · rw [← hq, hunit, ← mul_assoc, ← sub_mul, abs_mul, abs_of_pos hpos, mul_div_right_comm]
    exact mul_le_mul_of_nonneg_right hnear hpos.le

/-! ## What rounding keeps -/

/-- Doubles that are finite and not negative, by mantissa and exponent. -/
theorem Upward.exists_parts (hx : Upward x) (hfinite : isFinite x = true) :
    ∃ (m : Nat) (e : Int), m < 2 ^ 53 ∧ -1074 ≤ e ∧ e ≤ 971 ∧ exact x = m * 2 ^ e := by
  rcases hx with hu | hu | ⟨m, e, hm, hu⟩
  · exact ⟨0, 0, by decide, by decide, by decide, by rw [exact_of_zero hu]; simp⟩
  · rw [(isFinite_eq_false_iff x).2 (.inr ⟨_, hu⟩)] at hfinite
    cases hfinite
  · have hcanonical := canonical_of_unpack hu
    exact ⟨m, e, hcanonical.lt, exponent_of_unpack hu, hcanonical.most, exact_of_positive hu⟩

theorem Upward.exact_nonneg (hx : Upward x) (hfinite : isFinite x = true) : 0 ≤ exact x := by
  obtain ⟨m, e, -, -, -, hexact⟩ := hx.exists_parts hfinite
  rw [hexact]
  positivity

/-- A number of units of a power of two, in finer units. -/
theorem finer_units (m : Nat) {e g : Int} (h : g ≤ e) :
    (m : Rat) * 2 ^ e = ((m * 2 ^ (e - g).toNat : Nat) : Rat) * 2 ^ g := by
  rw [Nat.cast_mul, Nat.cast_pow, Nat.cast_ofNat, ← zpow_natCast, mul_assoc, ← zpow_add₀ two_ne_zero]
  congr 2
  omega

/-- Whole numbers are not passed by what is rounded to the nearest one. -/
theorem le_of_near {R n : Nat} {u q : Rat} (hu : 0 < u) (hnear : |R * u - q| ≤ u / 2) :
    (q ≤ n * u → R ≤ n) ∧ (n * u ≤ q → n ≤ R) := by
  obtain ⟨hlow, hhigh⟩ := abs_le.1 hnear
  constructor <;> intro hq <;> by_contra hlt <;> rw [not_le, ← Nat.add_one_le_iff] at hlt
  · have hcast : (n : Rat) + 1 ≤ R := by exact_mod_cast hlt
    have := mul_le_mul_of_nonneg_right hcast hu.le
    linarith
  · have hcast : (R : Rat) + 1 ≤ n := by exact_mod_cast hlt
    have := mul_le_mul_of_nonneg_right hcast hu.le
    linarith

/-- A coarse unit makes any number of units that fit too large. -/
theorem lt_of_coarser {m : Nat} {e g : Int} (hm : m < 2 ^ 53) (h : e < g) :
    (m : Rat) * 2 ^ e < 2 ^ 52 * 2 ^ g := by
  have hcast : (m : Rat) < 2 ^ 53 := by exact_mod_cast hm
  calc (m : Rat) * 2 ^ e < 2 ^ 53 * 2 ^ e := mul_lt_mul_of_pos_right hcast (zpow_pos two_pos e)
    _ = 2 ^ 52 * 2 ^ (e + 1) := by rw [zpow_add₀ two_ne_zero, zpow_one]; ring
    _ ≤ 2 ^ 52 * 2 ^ g := by
      refine mul_le_mul_of_nonneg_left ?_ (by norm_num)
      exact zpow_le_zpow_right₀ one_le_two h

/-- Rounding does not lead past what 53 places can hold, from below. -/
theorem Nearest.le_units {m : Nat} {e : Int} (h : Nearest q x) (hm : m < 2 ^ 53) (he : -1074 ≤ e)
    (hmost : e ≤ 971) (hq : q ≤ m * 2 ^ e) : extent x ≤ (m * 2 ^ e : Rat) := by
  obtain ⟨g, R, hg, -, hfull, hnear, hextent⟩ := h.units
  have hpos : (0 : Rat) < 2 ^ g := zpow_pos two_pos g
  have hunits : (R : Rat) * 2 ^ g ≤ m * 2 ^ e := by
    rcases lt_or_ge e g with hlt | hge
    · have hcoarse := lt_of_coarser hm hlt
      rcases hfull with hfull | hleast <;> [linarith; omega]
    · rw [finer_units m hge] at hq ⊢
      exact mul_le_mul_of_nonneg_right (Nat.cast_le.2 ((le_of_near hpos hnear).1 hq)) hpos.le
  rcases hextent with hextent | ⟨-, hlarge⟩
  · rw [hextent]
    exact WithTop.coe_le_coe.2 hunits
  · have hlt : (m : Rat) * 2 ^ e < 2 ^ 52 * 2 ^ (972 : Int) := lt_of_coarser hm (by omega)
    have hbound : (2 : Rat) ^ 52 * 2 ^ (972 : Int) = 2 ^ (1024 : Int) := by
      rw [← zpow_natCast, ← zpow_add₀ two_ne_zero]
      rfl
    rw [hbound] at hlt
    exact absurd (hlarge.trans hunits) (not_le.2 hlt)

/-- Rounding does not lead past what 53 places can hold, from above. -/
theorem Nearest.ge_units {m : Nat} {e : Int} (h : Nearest q x) (hm : m < 2 ^ 53) (he : -1074 ≤ e)
    (hq : m * 2 ^ e ≤ q) : ((m * 2 ^ e : Rat) : WithTop Rat) ≤ extent x := by
  obtain ⟨g, R, hg, -, hfull, hnear, hextent⟩ := h.units
  have hpos : (0 : Rat) < 2 ^ g := zpow_pos two_pos g
  have hunits : (m : Rat) * 2 ^ e ≤ R * 2 ^ g := by
    rcases lt_or_ge e g with hlt | hge
    · have hcoarse := lt_of_coarser hm hlt
      have hR : 2 ^ 52 ≤ R := by
        refine (le_of_near (n := 2 ^ 52) hpos hnear).2 ?_
        rcases hfull with hfull | hleast
        · exact_mod_cast hfull
        · omega
      have hcast : (2 : Rat) ^ 52 ≤ R := by exact_mod_cast hR
      exact hcoarse.le.trans (mul_le_mul_of_nonneg_right hcast hpos.le)
    · rw [finer_units m hge] at hq ⊢
      exact mul_le_mul_of_nonneg_right (Nat.cast_le.2 ((le_of_near hpos hnear).2 hq)) hpos.le
  rcases hextent with hextent | ⟨htop, -⟩
  · rw [hextent]
    exact WithTop.coe_le_coe.2 hunits
  · rw [htop]
    exact le_top

/-- What 53 places can hold is left as it is. -/
theorem Nearest.eq_units {m : Nat} {e : Int} (h : Nearest (m * 2 ^ e) x) (hm : m < 2 ^ 53)
    (he : -1074 ≤ e) (hmost : e ≤ 971) : extent x = (m * 2 ^ e : Rat) :=
  le_antisymm (h.le_units hm he hmost le_rfl) (h.ge_units hm he le_rfl)

/-- Rounding does not lead past a double. -/
theorem Nearest.le (h : Nearest q x) (hy : Upward y) (hle : (q : WithTop Rat) ≤ extent y) :
    extent x ≤ extent y := by
  rcases hy.cases with hfinite | hinfinite
  · obtain ⟨m, e, hm, he, hmost, hexact⟩ := hy.exists_parts hfinite
    rw [extent_of_isFinite hfinite, hexact] at hle ⊢
    exact h.le_units hm he hmost (WithTop.coe_le_coe.1 hle)
  · rw [extent_of_infinite hinfinite]
    exact le_top

/-- What is a double is left as it is. -/
theorem Nearest.eq (h : Nearest (exact y) x) (hy : Upward y) (hfinite : isFinite y = true) :
    extent x = exact y := by
  obtain ⟨m, e, hm, he, hmost, hexact⟩ := hy.exists_parts hfinite
  rw [hexact] at h ⊢
  exact h.eq_units hm he hmost

/-- Rounding up adds one part in `2 ^ 53` at most, or half of the least double. -/
theorem Nearest.error (h : Nearest q x) (hfinite : isFinite x = true) :
    exact x ≤ q + q / 2 ^ 53 ∨ exact x ≤ q + 2 ^ (-1075 : Int) := by
  obtain ⟨g, R, hg, -, hfull, hnear, hextent⟩ := h.units
  rw [extent_of_isFinite hfinite] at hextent
  have hexact : exact x = R * 2 ^ g :=
    WithTop.coe_injective (hextent.resolve_right fun hinfinite => WithTop.coe_ne_top hinfinite.1)
  obtain ⟨-, hhigh⟩ := abs_le.1 hnear
  rw [hexact]
  rcases hfull with hfull | rfl
  · left
    have hhalf : (2 : Rat) ^ g / 2 ≤ q / 2 ^ 53 := by
      rw [le_div_iff₀ (by norm_num)]
      linarith
    linarith
  · right
    have hhalf : (2 : Rat) ^ (-1074 : Int) / 2 = 2 ^ (-1075 : Int) := by
      rw [div_eq_iff two_ne_zero, ← zpow_add_one₀ two_ne_zero]
      rfl
    linarith

/-- A number of which a part in `2 ^ 53` is missing is not rounded up to the whole. -/
theorem Nearest.ne {a : Rat} (h : Nearest q x) (hlarge : 2 ^ (-1022 : Int) < a)
    (hq : q + a / 2 ^ 53 ≤ a) : extent x ≠ (a : WithTop Rat) := by
  intro heq
  obtain ⟨g, R, hg, -, hfull, hnear, hextent⟩ := h.units
  have hunits : (R * 2 ^ g : Rat) = a := by
    rcases hextent with hextent | ⟨htop, -⟩
    · exact WithTop.coe_injective (hextent.symm.trans heq)
    · exact absurd (htop.symm.trans heq) WithTop.top_ne_coe
  obtain ⟨-, hhigh⟩ := abs_le.1 hnear
  rw [hunits] at hhigh
  have hcoarse : a ≤ 2 ^ 52 * 2 ^ g := by linarith
  rcases hfull with hfull | rfl
  · have hpos : 0 < a / 2 ^ 53 := div_pos (lt_trans (zpow_pos two_pos _) hlarge) (by norm_num)
    linarith
  · have hleast : (2 : Rat) ^ 52 * 2 ^ (-1074 : Int) = 2 ^ (-1022 : Int) := by
      rw [← zpow_natCast, ← zpow_add₀ two_ne_zero]
      rfl
    linarith

/-- From a double to a larger one it is a part in `2 ^ 53` at least. -/
theorem Nearest.add_le (h : Nearest q x) (hx : isFinite x = true) (hy : Upward y)
    (hfinite : isFinite y = true) (hlt : exact x < exact y) : exact x + exact x / 2 ^ 53 ≤ exact y := by
  obtain ⟨g, R, hg, hmost, hfull, hnear, hextent⟩ := h.units
  obtain ⟨m, e, hm, he, -, hexact⟩ := hy.exists_parts hfinite
  rw [extent_of_isFinite hx] at hextent
  have hunits : exact x = R * 2 ^ g :=
    WithTop.coe_injective (hextent.resolve_right fun hinfinite => WithTop.coe_ne_top hinfinite.1)
  have hpos : (0 : Rat) < 2 ^ g := zpow_pos two_pos g
  rw [hunits, hexact] at hlt ⊢
  rcases lt_or_ge e g with hfine | hcoarse
  · have hsmall := lt_of_coarser hm hfine
    have hfull' : (2 : Rat) ^ 52 * 2 ^ g ≤ q := hfull.resolve_right (by omega)
    have hR := (le_of_near (n := 2 ^ 52) hpos hnear).2 (by exact_mod_cast hfull')
    have hcast : (2 : Rat) ^ 52 ≤ R := by exact_mod_cast hR
    have hle := mul_le_mul_of_nonneg_right hcast hpos.le
    linarith
  · rw [finer_units m hcoarse] at hlt ⊢
    have hnext : R + 1 ≤ m * 2 ^ (e - g).toNat := Nat.cast_lt.1 (lt_of_mul_lt_mul_right hlt hpos.le)
    have hR : R ≤ 2 ^ 53 := (le_of_near (n := 2 ^ 53) hpos hnear).1 (by exact_mod_cast hmost.le)
    have hpart : (R : Rat) * 2 ^ g / 2 ^ 53 ≤ 2 ^ g := by
      rw [div_le_iff₀ (by norm_num), mul_comm]
      exact mul_le_mul_of_nonneg_left (by exact_mod_cast hR) hpos.le
    have hcast : (R : Rat) + 1 ≤ (m * 2 ^ (e - g).toNat : Nat) := by exact_mod_cast hnext
    have hle := mul_le_mul_of_nonneg_right hcast hpos.le
    linarith

/-! ## Products and quotients -/

theorem nearest_zero (hx : x.toModel.unpack = .zero .positive) : Nearest 0 x := by
  refine ⟨.inl hx, -1074, 0, le_refl _, by positivity, .inr rfl, ?_, .inl ?_⟩
  · rw [Nat.cast_zero, zero_mul, sub_zero, abs_zero]
    positivity
  · rw [extent_of_isFinite ((isFinite_iff x).2 (.inl ⟨_, hx⟩)), exact_of_zero hx, Nat.cast_zero,
      zero_mul]

/-- What is finite and not negative is the zero or has a mantissa. -/
theorem Upward.finite_cases (hx : Upward x) (hfinite : isFinite x = true) :
    x.toModel.unpack = .zero .positive ∨ ∃ m e h, x.toModel.unpack = .finite .positive m e h := by
  rcases hx with hu | hu | hu
  · exact .inl hu
  · rw [(isFinite_eq_false_iff x).2 (.inr ⟨_, hu⟩)] at hfinite
    cases hfinite
  · exact .inr hu

theorem nearest_mul (hx : Upward x) (hfx : isFinite x = true) (hy : Upward y)
    (hfy : isFinite y = true) : Nearest (exact x * exact y) (x * y) := by
  rcases hx.finite_cases hfx with hu | ⟨m, e, hm, hu⟩
  · rw [exact_of_zero hu, zero_mul]
    refine nearest_zero ?_
    rw [mul_def, hu]
    rcases hy.finite_cases hfy with hv | ⟨m', e', hm', hv⟩ <;> rw [hv] <;> exact repack_zero _
  · rcases hy.finite_cases hfy with hv | ⟨m', e', hm', hv⟩
    · rw [exact_of_zero hv, mul_zero]
      refine nearest_zero ?_
      rw [mul_def, hu, hv]
      exact repack_zero _
    · have hproduct : (x * y).toModel.unpack = repack (roundWithAccuracy .binary64 .positive
          (m * m') (e + e') (accuracyOfFraction 0 1)) := by
        rw [mul_def, hu, hv]
        rfl
      refine nearest_roundWithAccuracy hproduct Nat.one_pos ?_ ?_
      · rw [exact_of_positive hu, exact_of_positive hv, zpow_add₀ two_ne_zero]
        push_cast
        ring
      · have hlog := (log2_mul hm hm').1
        have hleast := exponent_of_unpack hu
        have hleast' := exponent_of_unpack hv
        have hfull : ∀ {m : Nat} {e : Int}, 0 < m → Canonical m e → e = -1074 ∨ 52 ≤ m.log2 := by
          intro m e hm hcanonical
          rcases eq_or_lt_of_le hcanonical.least with hleast | hlt
          · exact .inl hleast.symm
          · exact .inr ((Nat.le_log2 (Nat.ne_of_gt hm)).2 (hcanonical.full hlt))
        rcases hfull hm (canonical_of_unpack hu) with he | hlong
        · rcases hfull hm' (canonical_of_unpack hv) with he' | hlong <;> omega
        · omega

/-- The quotient of two mantissas with any exponents. -/
theorem nearest_quotient {m m' : Nat} {e e' : Int} {h : 0 < m} {h' : 0 < m'}
    (hx : x.toModel.unpack = repack (UnpackedFloat.div .binary64 (.finite .positive m e h)
      (.finite .positive m' e' h'))) : Nearest (m * 2 ^ e / (m' * 2 ^ e')) x := by
  generalize htarget : min (e - e') (max ((m.log2 : Int) + 1 + e - ((m'.log2 : Int) + 1 + e') - 53)
    (-1074)) = E
  generalize hshift : (e - e' - E).toNat = k
  have hcore : x.toModel.unpack = repack (roundWithAccuracy .binary64 .positive ((m <<< k) / m') E
      (accuracyOfFraction ((m <<< k) % m') m')) := by
    rw [hx, ← hshift, ← htarget]
    rfl
  have hdivisor : (0 : Rat) < m' := Nat.cast_pos.2 h'
  refine nearest_roundWithAccuracy hcore (Nat.mod_lt _ h') ?_ ?_
  · have hsplit : ((m' * ((m <<< k) / m') + (m <<< k) % m' : Nat) : Rat) = (m * 2 ^ k : Nat) := by
      rw [Nat.div_add_mod, Nat.shiftLeft_eq]
    have hexponent : (2 : Rat) ^ e = 2 ^ k * 2 ^ E * 2 ^ e' := by
      rw [← zpow_natCast, ← zpow_add₀ two_ne_zero, ← zpow_add₀ two_ne_zero]
      congr 1
      omega
    have hunit : (2 : Rat) ^ e' ≠ 0 := (zpow_pos two_pos e').ne'
    push_cast at hsplit
    rw [hexponent, ← mul_assoc, mul_div_mul_right _ _ hunit, ← mul_assoc, ← hsplit]
    field_simp
  · by_cases hleast : E ≤ -1074
    · exact .inr hleast
    · left
      have hplaces : m'.log2 + 53 ≤ m.log2 + k := by omega
      have hlow : 2 ^ (52 + (m'.log2 + 1)) ≤ m <<< k := by
        rw [Nat.shiftLeft_eq]
        calc 2 ^ (52 + (m'.log2 + 1)) ≤ 2 ^ (m.log2 + k) :=
              Nat.pow_le_pow_right (by decide) (by omega)
          _ = 2 ^ m.log2 * 2 ^ k := Nat.pow_add ..
          _ ≤ m * 2 ^ k := Nat.mul_le_mul_right _ (Nat.log2_self_le (Nat.ne_of_gt h))
      have hquotient : 2 ^ 52 ≤ (m <<< k) / m' := by
        rw [Nat.le_div_iff_mul_le h']
        calc 2 ^ 52 * m' ≤ 2 ^ 52 * 2 ^ (m'.log2 + 1) :=
              Nat.mul_le_mul_left _ (@Nat.lt_log2_self m').le
          _ = 2 ^ (52 + (m'.log2 + 1)) := (Nat.pow_add ..).symm
          _ ≤ m <<< k := hlow
      exact (Nat.le_log2 (by omega)).2 hquotient

theorem nearest_div (hx : Upward x) (hfx : isFinite x = true) (hy : isFinite y = true)
    (hpositive : Scalar.positive y = true) : Nearest (exact x / exact y) (x / y) := by
  obtain ⟨m', e', hm', hv⟩ := finite_of_positive hy hpositive
  rcases hx.finite_cases hfx with hu | ⟨m, e, hm, hu⟩
  · rw [exact_of_zero hu, zero_div]
    refine nearest_zero ?_
    rw [div_def, hu, hv]
    exact repack_zero _
  · rw [exact_of_positive hu, exact_of_positive hv]
    have hquotient := div_def x y
    rw [hu, hv] at hquotient
    exact nearest_quotient hquotient

end Double

end Tradeflow
