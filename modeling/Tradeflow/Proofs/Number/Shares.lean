/-
  Shares of a whole number, taken in doubles and rounded down. Three things are rounded: the number, once
  it is too long for 53 places, the share itself, and their product. All of it moves the product by few
  parts in `2 ^ 53` (`share_near`), so a twentieth is at most half and nineteen twentieths are at least
  half, of any number that is finite as a double.

  Below `2 ^ 46` the whole part is the right one. Five hundredths are a little more than a twentieth and
  95 a little less than nineteen twentieths, so in the second case a product may have to be rounded up to
  a whole number; it is, as it lacks less than half a unit in the last place (`Nearest.ge_whole`).
-/
import Tradeflow.Proofs.Number.Whole

namespace Tradeflow

namespace Double

open Float.Model Float.Model.UnpackedFloat

variable {x c : Float} {q : Rat}

/-! ## Rounding -/

/-- Rounding moves a number by a part in `2 ^ 53` at most, if it is not among the least. -/
theorem Nearest.near (h : Nearest q x) (hfinite : isFinite x = true) (hq : 2 ^ (-1022 : Int) ≤ q) :
    |exact x - q| ≤ q / 2 ^ 53 := by
  obtain ⟨g, R, -, -, hfull, hnear, hextent⟩ := h.units
  rw [extent_of_isFinite hfinite] at hextent
  have hexact : exact x = R * 2 ^ g :=
    WithTop.coe_injective (hextent.resolve_right fun hinfinite => WithTop.coe_ne_top hinfinite.1)
  have hfull : (2 : Rat) ^ 52 * 2 ^ g ≤ q := by
    rcases hfull with hfull | rfl
    · exact hfull
    · have hleast : (2 : Rat) ^ 52 * 2 ^ (-1074 : Int) = 2 ^ (-1022 : Int) := by
        rw [← zpow_natCast, ← zpow_add₀ two_ne_zero]
        rfl
      rwa [hleast]
  rw [hexact]
  refine hnear.trans ?_
  rw [le_div_iff₀ (by norm_num)]
  linarith

/-- What lacks less than a part in `2 ^ 54` of a whole number is rounded up to it. -/
theorem Nearest.ge_whole {k : Nat} (h : Nearest q x) (hk : k < 2 ^ 53)
    (hq : k < q + q / 2 ^ 54) : ((k : Rat) : WithTop Rat) ≤ extent x := by
  obtain ⟨g, R, hg, hmost, hfull, hnear, hextent⟩ := h.units
  have hunit : (0 : Rat) < 2 ^ g := zpow_pos two_pos g
  rcases le_or_gt (k : Rat) q with hle | hlt
  · have hge := h.ge_units (m := k) (e := 0) hk (by decide) (by rwa [zpow_zero, mul_one])
    rwa [zpow_zero, mul_one] at hge
  -- the units are fractions of one, so the whole number is a number of them
  have hsmall : g ≤ 0 := by
    rcases hfull with hfull | rfl
    · by_contra hlarge
      have htwo : (2 : Rat) ^ (1 : Int) ≤ 2 ^ g := zpow_le_zpow_right₀ one_le_two (by omega)
      have hcast : (k : Rat) < 2 ^ 53 := by exact_mod_cast hk
      rw [zpow_one] at htwo
      linarith
    · decide
  have hwhole : (k : Rat) = ((k * 2 ^ (0 - g).toNat : Nat) : Rat) * 2 ^ g := by
    rw [← finer_units k hsmall, zpow_zero, mul_one]
  have hunits : k * 2 ^ (0 - g).toNat ≤ R := by
    by_contra hless
    have hcast : (R : Rat) + 1 ≤ (k * 2 ^ (0 - g).toNat : Nat) := by exact_mod_cast Nat.not_le.1 hless
    have hone := mul_le_mul_of_nonneg_right hcast hunit.le
    rw [← hwhole] at hone
    obtain ⟨hlow, -⟩ := abs_le.1 hnear
    have hpart : q / 2 ^ 54 < 2 ^ g / 2 := by
      rw [div_lt_iff₀ (by norm_num)]
      linarith
    linarith
  have hle : (k : Rat) ≤ R * 2 ^ g := by
    rw [hwhole]
    exact mul_le_mul_of_nonneg_right (Nat.cast_le.2 hunits) hunit.le
  rcases hextent with hextent | ⟨htop, -⟩
  · rw [hextent]
    exact WithTop.coe_le_coe.2 hle
  · rw [htop]
    exact le_top

theorem Upward.exists_view (hx : Upward x) (hfinite : isFinite x = true) :
    ∃ m e, view x = .finite false m e ∧ exact x = m * 2 ^ e := by
  rcases hx.finite_cases hfinite with hu | ⟨m, e, hm, hu⟩
  · refine ⟨0, leastExponent, (view_eq_seen x).trans (congrArg seen hu), ?_⟩
    rw [exact_of_zero hu, Nat.cast_zero, zero_mul]
  · exact ⟨m, e, (view_eq_seen x).trans (congrArg seen hu), exact_of_positive hu⟩

/-- Rounding down gives the whole number below. -/
theorem floor_bounds (hx : Upward x) (hfinite : isFinite x = true) :
    ∃ i : Nat, Double.floor x = .ok (i : Int) ∧ (i : Rat) ≤ exact x ∧ exact x < i + 1 := by
  obtain ⟨m, e, hview, hexact⟩ := hx.exists_view hfinite
  obtain ⟨hpos, hvalue⟩ := Decimal.quotient_eq m e
  refine ⟨(quotient m e).1 / (quotient m e).2, ?_, ?_⟩
  · rw [floor, hview]
    rfl
  · have hden : (0 : Rat) < (quotient m e).2 := Nat.cast_pos.2 hpos
    rw [hexact, ← hvalue, le_div_iff₀ hden, div_lt_iff₀ hden]
    constructor
    · exact_mod_cast Nat.div_mul_le_self _ _
    · exact_mod_cast Nat.lt_mul_of_div_lt (Nat.lt_succ_self _) hpos

/-! ## Whole numbers of any size -/

theorem nearest_ofNat {n : Nat} (h : 2 ^ 53 ≤ n) : Nearest n (Float.ofNat n) := by
  have hpos : 0 < n := by omega
  have hrounded : (Float.ofNat n).toModel.unpack =
      repack (roundWithAccuracy .binary64 .positive (n <<< 53) (-53) (accuracyOfFraction 0 1)) := by
    rw [unpack_ofNat_large h, ofScientific_whole hpos]
    rfl
  refine nearest_roundWithAccuracy hrounded Nat.one_pos ?_ (.inl ?_)
  · rw [Nat.shiftLeft_eq, Nat.cast_mul, Nat.cast_pow, Nat.cast_ofNat, Nat.cast_zero, zero_div, add_zero,
      mul_assoc, ← zpow_natCast, ← zpow_add₀ two_ne_zero]
    exact mul_one _
  · have hlog := log2_shiftLeft hpos 53
    omega

theorem ofNat_near {n : Nat} (hfinite : isFinite (Float.ofNat n) = true) :
    Upward (Float.ofNat n) ∧ |exact (Float.ofNat n) - n| ≤ (n : Rat) / 2 ^ 53 := by
  rcases Nat.lt_or_ge n (2 ^ 53) with hsmall | hlarge
  · obtain ⟨hupward, -, hexact⟩ := exact_ofNat hsmall
    refine ⟨hupward, ?_⟩
    rw [hexact, sub_self, abs_zero]
    positivity
  · have hnearest := nearest_ofNat hlarge
    refine ⟨hnearest.upward, hnearest.near hfinite ?_⟩
    have hcast : (2 : Rat) ^ 53 ≤ n := by exact_mod_cast hlarge
    exact (zpow_le_zpow_right₀ one_le_two (by decide : (-1022 : Int) ≤ 53)).trans hcast

/-! ## Shares -/

/-- A share of a whole number, up to what is rounded. -/
theorem share_near {n : Nat} (hpos : 0 < n) (hfinite : isFinite (Float.ofNat n) = true) (hc : Upward c)
    (hfc : isFinite c = true) (hlow : 1 / 2 ^ 10 ≤ exact c) (hhigh : exact c ≤ 1) :
    Upward (Float.ofNat n * c) ∧ isFinite (Float.ofNat n * c) = true ∧
      |exact (Float.ofNat n * c) - n * exact c| ≤ n * exact c / 2 ^ 51 := by
  obtain ⟨hupward, hnear⟩ := ofNat_near hfinite
  have hone : (1 : Rat) ≤ n := by exact_mod_cast hpos
  have hhalf : (n : Rat) / 2 ≤ exact (Float.ofNat n) := by
    have := (abs_le.1 hnear).1
    linarith
  have hproduct := nearest_mul hupward hfinite hc hfc
  have hle : exact (Float.ofNat n) * exact c ≤ exact (Float.ofNat n) :=
    mul_le_of_le_one_right (by linarith) hhigh
  have hfloor : (2 : Rat) ^ (-1022 : Int) ≤ exact (Float.ofNat n) * exact c := by
    have hleast : (2 : Rat) ^ (-1022 : Int) ≤ 2 ^ (-11 : Int) :=
      zpow_le_zpow_right₀ one_le_two (by decide)
    have hparts : (2 : Rat) ^ (-11 : Int) = 1 / 2 * (1 / 2 ^ 10) := by norm_num
    refine hleast.trans ?_
    rw [hparts]
    exact mul_le_mul (by linarith) hlow (by norm_num) (by linarith)
  have hfits : extent (Float.ofNat n * c) ≤ (exact (Float.ofNat n) : WithTop Rat) := by
    rw [← extent_of_isFinite hfinite]
    refine hproduct.le hupward ?_
    rw [extent_of_isFinite hfinite]
    exact WithTop.coe_le_coe.2 hle
  have hfp := (finite_of_extent_le hfits).1
  refine ⟨hproduct.upward, hfp, ?_⟩
  have hrounded := hproduct.near hfp hfloor
  have hmoved : |exact (Float.ofNat n) * exact c - n * exact c| ≤ n * exact c / 2 ^ 53 := by
    rw [← sub_mul, abs_mul, abs_of_nonneg (hc.exact_nonneg hfc), mul_div_right_comm]
    exact mul_le_mul_of_nonneg_right hnear (hc.exact_nonneg hfc)
  have hpositive : 0 ≤ n * exact c := mul_nonneg (by linarith) (hc.exact_nonneg hfc)
  calc |exact (Float.ofNat n * c) - n * exact c|
      ≤ |exact (Float.ofNat n * c) - exact (Float.ofNat n) * exact c| +
          |exact (Float.ofNat n) * exact c - n * exact c| := abs_sub_le _ _ _
    _ ≤ exact (Float.ofNat n) * exact c / 2 ^ 53 + n * exact c / 2 ^ 53 := add_le_add hrounded hmoved
    _ ≤ (n * exact c + n * exact c / 2 ^ 53) / 2 ^ 53 + n * exact c / 2 ^ 53 := by
      have := (abs_le.1 hmoved).2
      linarith
    _ ≤ n * exact c / 2 ^ 51 := by linarith

/-- A share of a number that 53 places can hold is rounded once. -/
theorem nearest_share {n : Nat} (hsmall : n < 2 ^ 53) (hc : Upward c) (hfc : isFinite c = true) :
    Nearest (n * exact c) (Float.ofNat n * c) := by
  obtain ⟨hupward, hfinite, hexact⟩ := exact_ofNat hsmall
  rw [← hexact]
  exact nearest_mul hupward hfinite hc hfc

/-- A share rounded down: not past what the product may be rounded to, on either side; and what it is
of the exact share, if the share is near enough to a number of twentieths. -/
theorem floor_share {n a : Nat} (hpos : 0 < n) (hfinite : isFinite (Float.ofNat n) = true) (hc : Upward c)
    (hfc : isFinite c = true) (hlow : 1 / 2 ^ 10 ≤ exact c) (hhigh : exact c ≤ 1) (ha : a ≤ 20)
    (hunder : (a / 20 : Rat) < exact c + exact c / 2 ^ 54)
    (hover : exact c + exact c / 2 ^ 51 ≤ a / 20 + 1 / (20 * 2 ^ 46)) :
    ∃ i : Nat, Double.floor (Float.ofNat n * c) = .ok (i : Int) ∧
      (∀ k : Nat, (k : Rat) ≤ n * exact c - n * exact c / 2 ^ 51 → k ≤ i) ∧
      (i : Rat) ≤ n * exact c + n * exact c / 2 ^ 51 ∧ (n < 2 ^ 46 → i = a * n / 20) := by
  obtain ⟨hupward, hfp, hnear⟩ := share_near hpos hfinite hc hfc hlow hhigh
  obtain ⟨i, hfloor, hle, hlt⟩ := floor_bounds hupward hfp
  obtain ⟨hleast, hmost⟩ := abs_le.1 hnear
  have hn : (0 : Rat) < n := Nat.cast_pos.2 hpos
  have hreach : ∀ k : Nat, (k : Rat) ≤ exact (Float.ofNat n * c) → k ≤ i := fun k hk => by
    have hcast : (k : Rat) < (i + 1 : Nat) := by
      push_cast
      exact hk.trans_lt hlt
    exact Nat.lt_succ_iff.1 (Nat.cast_lt.1 hcast)
  refine ⟨i, hfloor, fun k hk => hreach k (by linarith), by linarith, fun hsmall => ?_⟩
  refine Nat.le_antisymm ?_ (hreach _ ?_)
  · have hpast : (20 * i : Rat) < (a * n + 1 : Nat) := by
      have htwentieths := mul_le_mul_of_nonneg_left hover hn.le
      have hroom : (n : Rat) * (1 / (20 * 2 ^ 46)) < 1 / 20 := by
        have hcast : (n : Rat) < 2 ^ 46 := by exact_mod_cast hsmall
        linarith
      push_cast
      linarith
    have hwhole : 20 * i < a * n + 1 := by exact_mod_cast hpast
    omega
  · have hdiv : ((a * n / 20 : Nat) : Rat) ≤ n * (a / 20) := by
      have hcast : (20 * (a * n / 20 : Nat) : Rat) ≤ (a * n : Nat) := by
        exact_mod_cast Nat.mul_div_le (a * n) 20
      push_cast at hcast
      linarith
    have hlack := mul_lt_mul_of_pos_left hunder hn
    have hmul : a * n ≤ 20 * n := Nat.mul_le_mul_right n ha
    have hge := (nearest_share (n := n) (by omega) hc hfc).ge_whole (k := a * n / 20) (by omega)
      (by linarith)
    rw [extent_of_isFinite hfp] at hge
    exact WithTop.coe_le_coe.1 hge

/-- Five hundredths are a little more than a twentieth. -/
theorem fiveHundredths : Upward (Scalar.decimal 5 2 : Float) ∧
    isFinite (Scalar.decimal 5 2 : Float) = true ∧
    exact (Scalar.decimal 5 2 : Float) = 1 / 20 + 1 / (5 * 2 ^ 56) := by
  have h : isFinite (Scalar.decimal 5 2 : Float) = true ∧
      Scalar.positive (Scalar.decimal 5 2 : Float) = true ∧
      exact (Scalar.decimal 5 2 : Float) = 1 / 20 + 1 / (5 * 2 ^ 56) := by
    decide +kernel
  exact ⟨upward_of_positive h.2.1, h.1, h.2.2⟩

/-- 95 hundredths are a little less than nineteen twentieths. -/
theorem ninetyFiveHundredths : Upward (Scalar.decimal 95 2 : Float) ∧
    isFinite (Scalar.decimal 95 2 : Float) = true ∧
    exact (Scalar.decimal 95 2 : Float) = 19 / 20 - 1 / (5 * 2 ^ 52) := by
  have h : isFinite (Scalar.decimal 95 2 : Float) = true ∧
      Scalar.positive (Scalar.decimal 95 2 : Float) = true ∧
      exact (Scalar.decimal 95 2 : Float) = 19 / 20 - 1 / (5 * 2 ^ 52) := by
    decide +kernel
  exact ⟨upward_of_positive h.2.1, h.1, h.2.2⟩

/-- A twentieth in doubles, rounded down, is half at most. -/
theorem floor_twentieth {n : Nat} (hpos : 0 < n) (hfinite : isFinite (Float.ofNat n) = true) :
    ∃ i : Nat, Double.floor (Float.ofNat n * Scalar.decimal 5 2) = .ok (i : Int) ∧ i ≤ n / 2 ∧
      (n < 2 ^ 46 → i = n / 20) := by
  obtain ⟨hc, hfc, hexact⟩ := fiveHundredths
  obtain ⟨i, hfloor, -, hle, hsmall⟩ := floor_share (a := 1) hpos hfinite hc hfc
    (by rw [hexact]; norm_num) (by rw [hexact]; norm_num) (by decide) (by rw [hexact]; norm_num)
    (by rw [hexact]; norm_num)
  refine ⟨i, hfloor, ?_, fun h => (hsmall h).trans (by rw [Nat.one_mul])⟩
  have hdouble : (2 * i : Rat) ≤ n := by
    rw [hexact] at hle
    have hn : (0 : Rat) < n := Nat.cast_pos.2 hpos
    linarith
  have hwhole : 2 * i ≤ n := by exact_mod_cast hdouble
  omega

/-- Nineteen twentieths in doubles, rounded down, are half at least. -/
theorem floor_nineteenTwentieths {n : Nat} (hpos : 0 < n)
    (hfinite : isFinite (Float.ofNat n) = true) :
    ∃ i : Nat, Double.floor (Float.ofNat n * Scalar.decimal 95 2) = .ok (i : Int) ∧ n / 2 ≤ i ∧
      (n < 2 ^ 46 → i = 19 * n / 20) := by
  obtain ⟨hc, hfc, hexact⟩ := ninetyFiveHundredths
  obtain ⟨i, hfloor, hge, -, hsmall⟩ := floor_share (a := 19) hpos hfinite hc hfc
    (by rw [hexact]; norm_num) (by rw [hexact]; norm_num) (by decide) (by rw [hexact]; norm_num)
    (by rw [hexact]; norm_num)
  refine ⟨i, hfloor, hge _ ?_, hsmall⟩
  have hhalf : (2 * (n / 2 : Nat) : Rat) ≤ n := by exact_mod_cast Nat.mul_div_le n 2
  have hn : (0 : Rat) < n := Nat.cast_pos.2 hpos
  rw [hexact]
  linarith

/-- A share of what is infinite as a double is infinite. -/
theorem not_finite_share {n : Nat} (h : isFinite (Float.ofNat n) = false) :
    isFinite (Float.ofNat n * Scalar.decimal 5 2) = false := by
  have hinfinite : (Float.ofNat n).toModel.unpack = .infinity .positive := by
    rcases rounds_ofNat n with ⟨-, hholds⟩ | ⟨-, hinfinite⟩
    · have hfinite := (show UpTo (Float.ofNat n) (Float.ofNat n) from
        ⟨_, _, hholds, hholds, Nat.le_refl _⟩).isFinite
      rw [h] at hfinite
      cases hfinite
    · exact hinfinite
  obtain ⟨-, hfc, -⟩ := fiveHundredths
  have hpositive : Scalar.positive (Scalar.decimal 5 2 : Float) = true := by decide +kernel
  obtain ⟨m, e, hm, hu⟩ := finite_of_positive hfc hpositive
  rw [isFinite_eq_false_iff, mul_def, hinfinite, hu]
  exact Beyond.repack (.inr ⟨.positive, rfl⟩)

end Double

end Tradeflow
