/-
  Whole numbers as doubles. Below `2 ^ 53` they are exact, however they are come by: converted from a
  word, read as a setting (`ofInt_eq_toFloat`), or as that many millions of millionths
  (`extent_millions`). From there on they are rounded, and never to less than `2 ^ 53`
  (`le_extent_ofInt`), so a comparison with a smaller one is still right.
-/
import Tradeflow.Proofs.Number.Nearest

namespace Tradeflow

namespace Double

open Float.Model Float.Model.UnpackedFloat

/-! ## Below `2 ^ 53` -/

theorem exact_of_measures {x : Float} {n : Nat} (hpos : 0 < n) (h : Measures x (wholeUnits n)) :
    ∃ m e h, x.toModel.unpack = .finite .positive m e h ∧ exact x = n := by
  have hextent := extent_of_holds h
  have hunits : ((wholeUnits n : Nat) : Rat) * 2 ^ (-1074 : Int) = n := by
    rw [wholeUnits, units_eq n (by decide), zpow_zero, mul_one]
  rw [hunits] at hextent
  rcases h.cases with ⟨-, hzero⟩ | ⟨m, e, hm, hu, -, -⟩
  · rw [wholeUnits, Nat.mul_eq_zero] at hzero
    have := Nat.two_pow_pos ((0 : Int) + 1074).toNat
    omega
  · refine ⟨m, e, hm, hu, ?_⟩
    rw [extent_of_isFinite ((isFinite_iff _).2 (.inr ⟨_, m, e, hm, hu⟩))] at hextent
    exact WithTop.coe_injective hextent

/-- A whole number that 53 places can hold is held as it is. -/
theorem exact_toFloat {n : Nat} (hpos : 0 < n) (hsmall : n < 2 ^ 53) :
    ∃ m e h, n.toUInt64.toFloat.toModel.unpack = .finite .positive m e h ∧
      exact n.toUInt64.toFloat = n :=
  exact_of_measures hpos (measures_toFloat hpos hsmall)

theorem exact_ofNat {n : Nat} (hsmall : n < 2 ^ 53) :
    Upward (Float.ofNat n) ∧ isFinite (Float.ofNat n) = true ∧ exact (Float.ofNat n) = n := by
  rcases Nat.eq_zero_or_pos n with rfl | hpos
  · have hzero : (Float.ofNat 0).toModel.unpack = .zero .positive := rfl
    refine ⟨.inl hzero, (isFinite_iff _).2 (.inl ⟨_, hzero⟩), ?_⟩
    rw [exact_of_zero hzero, Nat.cast_zero]
  · obtain ⟨m, e, hm, hu, hexact⟩ :=
      exact_of_measures hpos ((rounds_ofNat n).measures_whole hpos hsmall)
    exact ⟨.inr (.inr ⟨m, e, hm, hu⟩), (isFinite_iff _).2 (.inr ⟨_, m, e, hm, hu⟩), hexact⟩

/-- A multiple of `2 ^ (-53)` that is below one is held as it is. -/
theorem extent_unit {n : Nat} (hsmall : n < 2 ^ 53) :
    Upward (Scalar.unit n : Float) ∧ extent (Scalar.unit n : Float) = (n / 2 ^ 53 : Rat) := by
  obtain ⟨hupward, hfinite, hexact⟩ := exact_ofNat hsmall
  have hwhole : isFinite (9007199254740992 : Float) = true ∧
      Scalar.positive (9007199254740992 : Float) = true ∧ exact (9007199254740992 : Float) = 2 ^ 53 := by
    decide +kernel
  have hquotient := nearest_div hupward hfinite hwhole.1 hwhole.2.1
  have hunits : exact (Float.ofNat n) / exact (9007199254740992 : Float) = n * 2 ^ (-53 : Int) := by
    rw [hexact, hwhole.2.2, zpow_neg, div_eq_mul_inv]
    rfl
  rw [hunits] at hquotient
  refine ⟨hquotient.upward, ?_⟩
  show extent (Float.ofNat n / 9007199254740992) = _
  rw [hquotient.eq_units hsmall (by decide) (by decide), zpow_neg, div_eq_mul_inv]
  rfl

/-- A number of millionths is the double nearest to it. -/
theorem nearest_millionths {n : Nat} (hpos : 0 < n) :
    Nearest (n / 10 ^ 6) (Scalar.decimal n 6 : Float) := by
  rcases Nat.lt_or_ge n (2 ^ 53) with hsmall | hlarge
  · have hscaled : (Scalar.decimal n 6 : Float) =
        n.toUInt64.toFloat / Float.exactlyRepresentablePowersOfTen[6] := by
      show Float.ofScientific n true 6 = _
      unfold Float.ofScientific
      rw [dif_pos ⟨hsmall, by decide⟩]
      rfl
    obtain ⟨m, e, hm, hu, hexact⟩ := exact_toFloat hpos hsmall
    have hpower : isFinite Float.exactlyRepresentablePowersOfTen[6] = true ∧
        Scalar.positive Float.exactlyRepresentablePowersOfTen[6] = true ∧
        exact Float.exactlyRepresentablePowersOfTen[6] = 10 ^ 6 := by
      decide +kernel
    have hquotient := nearest_div (.inr (.inr ⟨m, e, hm, hu⟩))
      ((isFinite_iff _).2 (.inr ⟨_, m, e, hm, hu⟩)) hpower.1 hpower.2.1
    rw [hexact, hpower.2.2] at hquotient
    rw [hscaled]
    exact hquotient
  · have hquotient : (Scalar.decimal n 6 : Float).toModel.unpack =
        repack (UnpackedFloat.div .binary64 (.finite .positive n 0 hpos)
          (.finite .positive (10 ^ 6) 0 (by decide))) := by
      have hslow : (Scalar.decimal n 6 : Float) =
          ⟨.pack (UnpackedFloat.ofScientific .binary64 n (-6))⟩ := by
        show Float.ofScientific n true 6 = _
        unfold Float.ofScientific
        rw [dif_neg (by omega)]
        rfl
      rw [hslow]
      show repack (UnpackedFloat.ofScientific .binary64 n (-6)) = _
      unfold UnpackedFloat.ofScientific
      rw [dif_neg (by omega), if_neg (by decide), if_neg, if_neg (by decide)]
      · rfl
      · show ¬ (-6 : Int) < -(2 ^ 11 + (n.log2 : Int))
        omega
    have hnearest := nearest_quotient hquotient
    rwa [zpow_zero, mul_one, mul_one, Nat.cast_pow, Nat.cast_ofNat] at hnearest

/-- Millions of millionths are a whole number again. -/
theorem extent_millions {n : Nat} (hpos : 0 < n) (hsmall : n < 2 ^ 53) :
    Upward (Scalar.decimal (n * 10 ^ 6) 6) ∧ extent (Scalar.decimal (n * 10 ^ 6) 6) = (n : Rat) := by
  have hnearest := nearest_millionths (n := n * 10 ^ 6) (by omega)
  obtain ⟨m, e, hm, hu, hexact⟩ := exact_toFloat hpos hsmall
  have hvalue : ((n * 10 ^ 6 : Nat) : Rat) / 10 ^ 6 = exact n.toUInt64.toFloat := by
    rw [hexact, Nat.cast_mul, Nat.cast_pow, Nat.cast_ofNat]
    exact mul_div_cancel_right₀ _ (by norm_num)
  rw [hvalue] at hnearest
  refine ⟨hnearest.upward, ?_⟩
  rw [← hexact]
  exact hnearest.eq (.inr (.inr ⟨m, e, hm, hu⟩)) ((isFinite_iff _).2 (.inr ⟨_, m, e, hm, hu⟩))

theorem Canonical.roundsTo {m : Nat} {e : Int} : RoundsTo m e (m * 2 ^ e) := by
  have hpos : (0 : Rat) < 2 ^ e := zpow_pos two_pos e
  have hmargin := quarter_le_margin m e
  have hlow : ((m : Rat) - margin m e) * 2 ^ e < m * 2 ^ e := mul_lt_mul_of_pos_right (by linarith) hpos
  have hhigh : (m : Rat) * 2 ^ e < (m + 1 / 2) * 2 ^ e := mul_lt_mul_of_pos_right (by linarith) hpos
  exact ⟨hlow.le, hhigh.le, .inr ⟨hlow.ne', hhigh.ne⟩⟩

theorem ofInt_eq_toFloat {n : Nat} (hpos : 0 < n) (hsmall : n < 2 ^ 53) :
    ofInt n = n.toUInt64.toFloat := by
  obtain ⟨m, e, hm, hu, hexact⟩ := exact_toFloat hpos hsmall
  obtain ⟨hcanonical, hparts⟩ := assemble_view ((view_eq_seen _).trans (congrArg seen hu))
  have hvalue : ((n : Nat) / (1 : Nat) : Rat) = m * 2 ^ e := by
    rw [Nat.cast_one, div_one, ← hexact, exact_of_positive hu]
  have hround := ofQuotient_of_roundsTo false (Nat.ne_of_gt hpos) Nat.one_ne_zero hcanonical
    (hvalue ▸ Canonical.roundsTo)
  show ofQuotient (decide ((n : Int) < 0)) (n : Int).natAbs 1 = _
  rw [decide_eq_false (by omega), Int.natAbs_natCast, hround]
  exact hparts

/-! ## From `2 ^ 53` on -/

/-- What is put together of a full mantissa and an exponent. -/
theorem extent_assemble {m : Nat} {e : Int} (hlow : 2 ^ 52 ≤ m) (hhigh : m < 2 ^ 53) (he : -1074 ≤ e) :
    Upward (assemble false m e) ∧ ((m * 2 ^ e : Rat) : WithTop Rat) ≤ extent (assemble false m e) := by
  have hm : 0 < m := by omega
  by_cases hmost : e ≤ 971
  · have hlog : m.log2 = 52 := (Nat.log2_eq_iff (by omega)).2 ⟨hlow, hhigh⟩
    have hu : (Float.ofModel (.pack (.finite .positive m e hm))).toModel.unpack =
        .finite .positive m e hm := repack_normal .positive m e hm hlog he hmost
    obtain ⟨-, hparts⟩ := assemble_view ((view_eq_seen _).trans (congrArg seen hu))
    have hsame : assemble false m e = Float.ofModel (.pack (.finite .positive m e hm)) := hparts
    rw [hsame]
    refine ⟨.inr (.inr ⟨m, e, hm, hu⟩), ?_⟩
    rw [extent_of_isFinite ((isFinite_iff _).2 (.inr ⟨_, m, e, hm, hu⟩)), exact_of_positive hu]
  · have hlarge : assemble false m e = Float.ofBits (UInt64.ofNat (0 + 2047 * pow2 52)) := by
      unfold assemble
      dsimp only
      rw [if_neg Bool.false_ne_true, if_neg (show ¬ m < pow2 52 by rw [pow2_52]; omega),
        if_pos (by omega)]
    have hu : (Float.ofBits (UInt64.ofNat (0 + 2047 * pow2 52))).toModel.unpack =
        .infinity .positive := by
      rfl
    rw [hlarge]
    refine ⟨.inr (.inl hu), ?_⟩
    rw [extent_of_infinite hu]
    exact le_top

/-- Rounded to units that are too coarse for 53 places, or just not, a number keeps a full mantissa. -/
theorem roundHalfEven_bounds {n G : Nat} (hG : 0 < G) (hlow : 2 ^ 53 * G ≤ n) (hhigh : n < 2 ^ 54 * G) :
    2 ^ 53 ≤ roundHalfEven n (1 * G) ∧ 2 ^ 52 ≤ roundHalfEven n (2 * G) ∧
      (2 ^ 53 ≤ roundHalfEven n (2 * G) →
        2 ^ 52 ≤ roundHalfEven n (4 * G) ∧ roundHalfEven n (4 * G) < 2 ^ 53) := by
  have hone := roundHalfEven_near n (1 * G) (by omega)
  have htwo := roundHalfEven_near n (2 * G) (by omega)
  have hfour := roundHalfEven_near n (4 * G) (by omega)
  generalize roundHalfEven n (1 * G) = one at *
  generalize roundHalfEven n (2 * G) = two at *
  generalize roundHalfEven n (4 * G) = four at *
  -- In multiples of `G`, a bound on a multiplier is a bound on the multiple.
  rw [Nat.mul_assoc] at hone htwo hfour
  have hbelow : ∀ a b : Nat, a < b → G * a + G ≤ b * G := by
    intro a b hlt
    calc G * a + G = G * (a + 1) := rfl
      _ ≤ G * b := Nat.mul_le_mul_left G hlt
      _ = b * G := Nat.mul_comm G b
  have habove : ∀ a b : Nat, b ≤ a → b * G ≤ G * a := by
    intro a b hle
    rw [Nat.mul_comm]
    exact Nat.mul_le_mul_left G hle
  refine ⟨?_, ?_, fun hlarge => ⟨?_, ?_⟩⟩
  · by_contra hlt
    have := hbelow one (2 ^ 53) (by omega)
    omega
  · by_contra hlt
    have := hbelow two (2 ^ 52) (by omega)
    omega
  · by_contra hlt
    have := hbelow four (2 ^ 52) (by omega)
    have := habove two (2 ^ 53) hlarge
    omega
  · by_contra hge
    have := habove four (2 ^ 53) (by omega)
    omega

/-- A whole number that is too long for 53 places keeps a full mantissa. -/
theorem exists_ofInt {n : Nat} (h : 2 ^ 53 ≤ n) :
    ∃ (m : Nat) (e : Int), 2 ^ 52 ≤ m ∧ m < 2 ^ 53 ∧ 1 ≤ e ∧ ofInt n = assemble false m e := by
  obtain ⟨g, hg⟩ : ∃ g, n.log2 = 53 + g :=
    ⟨n.log2 - 53, by have := (Nat.le_log2 (n := n) (by omega)).2 h; omega⟩
  have hlow : 2 ^ 53 * 2 ^ g ≤ n := by
    rw [← Nat.pow_add, ← hg]
    exact Nat.log2_self_le (by omega)
  have hhigh : n < 2 ^ 54 * 2 ^ g := by
    have hlt : n < 2 ^ (n.log2 + 1) := Nat.lt_log2_self
    rwa [hg, show 53 + g + 1 = 54 + g by omega, Nat.pow_add] at hlt
  obtain ⟨hone, htwo, hfour⟩ := roundHalfEven_bounds (Nat.two_pow_pos g) hlow hhigh
  have hscaled : ∀ i : Nat, scaledMantissa n 1 ((g : Int) + i) = roundHalfEven n (2 ^ i * 2 ^ g) := by
    intro i
    have hexponent : ((g : Int) + i).toNat = i + g := by omega
    unfold scaledMantissa
    rw [if_neg (by omega), hexponent, Nat.one_mul, ← Nat.pow_add]
    rfl
  have hfirst : max ((n.log2 : Int) - (Nat.log2 1 : Nat) - 53) leastExponent = (g : Int) + (0 : Nat) := by
    rw [show Nat.log2 1 = 0 from rfl, leastExponent]
    omega
  have hsecond : (g : Int) + (0 : Nat) + 1 = g + (1 : Nat) := by omega
  have hthird : (g : Int) + (0 : Nat) + 2 = g + (2 : Nat) := by omega
  have hround : ofInt n = ofQuotient false n 1 := by
    show ofQuotient (decide ((n : Int) < 0)) (n : Int).natAbs 1 = _
    rw [decide_eq_false (by omega), Int.natAbs_natCast]
  have hlong : ¬ roundHalfEven n (2 ^ 0 * 2 ^ g) < pow2 53 := Nat.not_lt.2 hone
  rw [hround, ofQuotient, if_neg (by omega)]
  dsimp only
  rw [hfirst, hsecond, hthird, hscaled, hscaled, if_neg hlong]
  split
  case isTrue hfits =>
    rw [hscaled]
    exact ⟨_, _, htwo, hfits, by omega, rfl⟩
  case isFalse hlarge =>
    rw [hscaled]
    obtain ⟨hfull, hfits⟩ := hfour (Nat.not_lt.1 hlarge)
    exact ⟨_, _, hfull, hfits, by omega, rfl⟩

/-- Rounding does not bring a whole number below `2 ^ 53`. -/
theorem le_extent_ofInt {n : Nat} (h : 2 ^ 53 ≤ n) :
    Upward (ofInt n) ∧ (((2 : Rat) ^ 53 : Rat) : WithTop Rat) ≤ extent (ofInt n) := by
  obtain ⟨m, e, hlow, hhigh, he, hofInt⟩ := exists_ofInt h
  obtain ⟨hupward, hle⟩ := extent_assemble hlow hhigh (e := e) (by omega)
  rw [hofInt]
  refine ⟨hupward, le_trans (WithTop.coe_le_coe.2 ?_) hle⟩
  have hm : (2 : Rat) ^ 52 ≤ m := by exact_mod_cast hlow
  calc (2 : Rat) ^ 53 = (2 : Rat) ^ 52 * (2 : Rat) ^ (1 : Int) := by norm_num
    _ ≤ (m : Rat) * 2 ^ e := mul_le_mul hm (zpow_le_zpow_right₀ one_le_two he) (by positivity) (by positivity)

end Double

end Tradeflow
