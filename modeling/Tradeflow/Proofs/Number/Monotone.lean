/-
  Sums of doubles that are not negative, in units of the least positive double. `Holds N` says that a
  number is `N` such units. Rounding keeps 53 places of a number of units, a half going to the even
  neighbour (`roundUnits`), and never changes the order of two numbers (`roundUnits_mono`). A sum holds
  the rounded sum of its terms if that is below `2 ^ 2098` units, and is infinite otherwise
  (`rounds_add`), and so it is with whole numbers (`rounds_ofNat`).
  `upTo_add`: so a sum is finite, and no larger, if a sum of terms that are not smaller is finite.
  Doubles that are not negative are closed under sums, products and rounding.
-/
import Mathlib.Tactic.SplitIfs
import Tradeflow.Proofs.Number.Magnitude

namespace Tradeflow

/-! ## Rounding naturals -/

theorem div_le_roundHalfEven (n d : Nat) :
    n / d ≤ roundHalfEven n d ∧ roundHalfEven n d ≤ n / d + 1 := by
  unfold roundHalfEven
  dsimp only
  split_ifs <;> omega

theorem roundHalfEven_mono {n n' : Nat} (d : Nat) (h : n ≤ n') :
    roundHalfEven n d ≤ roundHalfEven n' d := by
  rcases Nat.lt_or_eq_of_le (Nat.div_le_div_right (c := d) h) with hlt | heq
  · have hhigh := (div_le_roundHalfEven n d).2
    have hlow := (div_le_roundHalfEven n' d).1
    omega
  · have hmod : n % d ≤ n' % d := by
      have hn := Nat.div_add_mod n d
      have hn' := Nat.div_add_mod n' d
      rw [heq] at hn
      omega
    unfold roundHalfEven
    dsimp only
    rw [heq]
    split_ifs <;> omega

/-- A common factor does not matter. -/
theorem roundHalfEven_mul_right (n d : Nat) {c : Nat} (hc : 0 < c) :
    roundHalfEven (n * c) (d * c) = roundHalfEven n d := by
  have hdouble : 2 * (n % d * c) = 2 * (n % d) * c := (Nat.mul_assoc _ _ _).symm
  unfold roundHalfEven
  dsimp only
  rw [Nat.mul_div_mul_right _ _ hc, Nat.mul_mod_mul_right, hdouble]
  simp only [Nat.mul_lt_mul_right hc]

namespace Double

open Float.Model Float.Model.UnpackedFloat

/-! ## Rounding units -/

theorem log2_mul_two_pow {m : Nat} (hm : 0 < m) (j : Nat) : (m * 2 ^ j).log2 = m.log2 + j := by
  rw [← Nat.shiftLeft_eq]
  exact log2_shiftLeft hm j

theorem log2_mono {n n' : Nat} (h : n ≤ n') : n.log2 ≤ n'.log2 := by
  rcases Nat.eq_zero_or_pos n with rfl | hpos
  · exact Nat.zero_le _
  · exact (Nat.le_log2 (by omega)).2 ((Nat.log2_self_le (Nat.ne_of_gt hpos)).trans h)

/-- A number of units with only 53 places left of it. -/
def roundUnits (N : Nat) : Nat :=
  roundHalfEven N (2 ^ (N.log2 - 52)) * 2 ^ (N.log2 - 52)

/-- What has no more places is left as it is. -/
theorem roundUnits_eq {m : Nat} (hm : m < 2 ^ 53) (j : Nat) :
    roundUnits (m * 2 ^ j) = m * 2 ^ j := by
  rcases Nat.eq_zero_or_pos m with rfl | hpos
  · rw [Nat.zero_mul]
    rfl
  · have hplaces : m.log2 < 53 := (Nat.log2_lt (Nat.ne_of_gt hpos)).2 hm
    have hsplit : m * 2 ^ j = 2 ^ (m.log2 + j - 52) * (m * 2 ^ (j - (m.log2 + j - 52))) := by
      rw [Nat.mul_left_comm, ← Nat.pow_add, Nat.add_sub_cancel' (by omega)]
    rw [roundUnits, log2_mul_two_pow hpos]
    conv_lhs => rw [hsplit, roundHalfEven_mul _ _ (Nat.two_pow_pos _), Nat.mul_comm]
    exact hsplit.symm

/-- The power of two below a number is kept, and the one above it is not passed. -/
theorem roundUnits_bounds {N : Nat} (hN : N ≠ 0) :
    2 ^ N.log2 ≤ roundUnits N ∧ roundUnits N ≤ 2 ^ (N.log2 + 1) := by
  unfold roundUnits
  generalize hk : N.log2 - 52 = k
  have hplaces : k ≤ N.log2 := by omega
  have hlow : 2 ^ (N.log2 - k) ≤ N / 2 ^ k := by
    rw [Nat.le_div_iff_mul_le (Nat.two_pow_pos k), ← Nat.pow_add, Nat.sub_add_cancel hplaces]
    exact Nat.log2_self_le hN
  have hhigh : N / 2 ^ k + 1 ≤ 2 ^ (N.log2 + 1 - k) := by
    refine Nat.succ_le_of_lt (Nat.div_lt_of_lt_mul ?_)
    rw [← Nat.pow_add, Nat.add_sub_cancel' (by omega)]
    exact Nat.lt_log2_self
  obtain ⟨hle, hge⟩ := div_le_roundHalfEven N (2 ^ k)
  constructor
  · calc 2 ^ N.log2 = 2 ^ (N.log2 - k) * 2 ^ k := by
          rw [← Nat.pow_add, Nat.sub_add_cancel hplaces]
      _ ≤ roundHalfEven N (2 ^ k) * 2 ^ k := Nat.mul_le_mul_right _ (hlow.trans hle)
  · calc roundHalfEven N (2 ^ k) * 2 ^ k ≤ 2 ^ (N.log2 + 1 - k) * 2 ^ k :=
          Nat.mul_le_mul_right _ (hge.trans hhigh)
      _ = 2 ^ (N.log2 + 1) := by rw [← Nat.pow_add, Nat.sub_add_cancel (by omega)]

theorem roundUnits_mono {N N' : Nat} (h : N ≤ N') : roundUnits N ≤ roundUnits N' := by
  rcases Nat.eq_zero_or_pos N with rfl | hpos
  · exact Nat.zero_le _
  · rcases Nat.lt_or_eq_of_le (log2_mono h) with hlt | heq
    · calc roundUnits N ≤ 2 ^ (N.log2 + 1) := (roundUnits_bounds (Nat.ne_of_gt hpos)).2
        _ ≤ 2 ^ N'.log2 := Nat.pow_le_pow_right (by decide) hlt
        _ ≤ roundUnits N' := (roundUnits_bounds (by omega)).1
    · unfold roundUnits
      rw [heq]
      exact Nat.mul_le_mul_right _ (roundHalfEven_mono _ h)

/-! ## What a double holds -/

/-- Positive, or zero, and as large as `N` units of the least positive double. -/
def Holds (N : Nat) : UnpackedFloat → Prop
  | .zero _ => N = 0
  | .finite .positive m e _ => -1074 ≤ e ∧ m * 2 ^ (e + 1074).toNat = N
  | _ => False

/-- The double for `N` units: they are rounded, and infinite if they have too many places. -/
def Rounds (N : Nat) (u : UnpackedFloat) : Prop :=
  (roundUnits N).log2 < 2098 ∧ Holds (roundUnits N) u ∨
    2098 ≤ (roundUnits N).log2 ∧ u = .infinity .positive

/-- A mantissa of which nothing was cut off yet. -/
def whole (M : Nat) : ExtendedMantissa := ⟨M, false, false⟩

/-- Places that are cut off a mantissa are told from the first of them and from the others. -/
theorem shiftRight_succ (M k : Nat) :
    whole M >>> (k + 1) =
      ⟨M / 2 ^ (k + 1), M / 2 ^ k % 2 != 0, M % 2 ^ k != 0⟩ := by
  induction k with
  | zero =>
    show (⟨M / 2, M % 2 != 0, false⟩ : ExtendedMantissa) = _
    rw [Nat.pow_zero, Nat.div_one, Nat.mod_one]
    rfl
  | succ k ih =>
    have hstep : whole M >>> (k + 1 + 1) =
        (whole M >>> (k + 1)).shiftRightOne := rfl
    have hsticky : (M / 2 ^ k % 2 != 0 || M % 2 ^ k != 0) = (M % 2 ^ (k + 1) != 0) := by
      rw [Nat.mod_pow_succ, Bool.eq_iff_iff, Bool.or_eq_true, bne_iff_ne, bne_iff_ne, bne_iff_ne,
        ne_eq (_ + _), Nat.add_eq_zero_iff, Nat.mul_eq_zero]
      have hpos := Nat.two_pow_pos k
      omega
    rw [hstep, ih, ExtendedMantissa.shiftRightOne, hsticky, Nat.div_div_eq_div_mul, ← Nat.pow_succ]

theorem roundedMantissa_shiftRight (M k : Nat) :
    (whole M >>> k).roundedMantissa = roundHalfEven M (2 ^ k) := by
  cases k with
  | zero =>
    show M = roundHalfEven M 1
    unfold roundHalfEven
    dsimp only
    rw [Nat.mod_one, if_pos (by decide), Nat.div_one]
  | succ k =>
    have hsplit := @Nat.mod_pow_succ M 2 k
    have hrest := Nat.mod_lt M (Nat.two_pow_pos k)
    rw [shiftRight_succ]
    unfold roundHalfEven
    dsimp only
    rw [hsplit, Nat.pow_succ]
    generalize M / (2 ^ k * 2) = q
    generalize M % 2 ^ k = rest at *
    -- the first place that is cut off, and then the others
    rcases Nat.mod_two_eq_zero_or_one (M / 2 ^ k) with hfirst | hfirst
    · rw [hfirst, Nat.mul_zero, if_pos (by omega)]
      by_cases hzero : rest = 0
      · rw [hzero]
        rfl
      · rw [bne_iff_ne.2 hzero]
        rfl
    · rw [hfirst, Nat.mul_one, if_neg (by omega)]
      by_cases hzero : rest = 0
      · subst hzero
        rw [if_neg (by omega)]
        show q + q % 2 = _
        split <;> omega
      · rw [bne_iff_ne.2 hzero, if_pos (by omega)]
        rfl

/-- A mantissa of the right length becomes a word as it is, or is too large for one. -/
theorem repack_positive {m : Nat} {e : Int} (hm : 0 < m) (hplaces : m.log2 ≤ 52)
    (hleast : -1074 ≤ e) (hfull : m.log2 = 52 ∨ e = -1074) :
    (m * 2 ^ (e + 1074).toNat).log2 < 2098 ∧
        Holds (m * 2 ^ (e + 1074).toNat) (repack (.finite .positive m e hm)) ∨
      2098 ≤ (m * 2 ^ (e + 1074).toNat).log2 ∧
        repack (.finite .positive m e hm) = .infinity .positive := by
  rw [log2_mul_two_pow hm]
  by_cases hmost : e ≤ 971
  · refine .inl ⟨by omega, ?_⟩
    by_cases hnormal : m.log2 = 52
    · rw [repack_normal _ m e hm hnormal hleast hmost]
      exact ⟨hleast, rfl⟩
    · rw [repack_subnormal _ m e hm (by omega) hmost]
      exact ⟨Int.le_refl _, by rw [hfull.resolve_left hnormal]⟩
  · refine .inr ⟨by omega, ?_⟩
    rw [repack, pack_finite, if_pos (by omega)]
    rfl

theorem shiftToTargetExponent_eq (M : Nat) {E : Int} (hE : -1074 ≤ E) :
    shiftToTargetExponent .binary64 M E .exact =
      (whole M >>> (M.log2 - 52), E + (M.log2 - 52 : Nat)) := by
  have hshift : (max ((M.log2 : Int) + 1 + E - 53) (-1074) - E).toNat = M.log2 - 52 := by omega
  rw [← hshift]
  rfl

theorem roundUnits_shift {M : Nat} (hM : 0 < M) {j : Nat} (hfull : 52 ≤ M.log2 ∨ j = 0) :
    roundUnits (M * 2 ^ j) = roundHalfEven M (2 ^ (M.log2 - 52)) * 2 ^ (M.log2 - 52 + j) := by
  have hshift : M.log2 + j - 52 = M.log2 - 52 + j := by
    rcases hfull with hlong | rfl
    · exact Nat.sub_add_comm hlong
    · rfl
  rw [roundUnits, log2_mul_two_pow hM, hshift]
  congr 1
  rw [Nat.pow_add, roundHalfEven_mul_right _ _ (Nat.two_pow_pos _)]

/-- Rounding may carry into one place more; the mantissa is a power of two then. -/
theorem mul_of_carry {q R : Nat} (hq : q < 2 ^ 53) (hlow : q ≤ R) (hhigh : R ≤ q + 1) :
    R / 2 ^ (R.log2 - 52) * 2 ^ (R.log2 - 52) = R := by
  by_cases hR : R = 2 ^ 53
  · subst hR
    decide
  · have hlog : R.log2 - 52 = 0 := by
      rcases Nat.eq_zero_or_pos R with rfl | hpos
      · rfl
      · have := (Nat.log2_lt (Nat.ne_of_gt hpos)).2 (show R < 2 ^ 53 by omega)
        omega
    rw [hlog, Nat.pow_zero, Nat.div_one, Nat.mul_one]

/-- A mantissa that has more places than fit, or the least exponent, is rounded once. -/
theorem rounds_roundWithAccuracy {M : Nat} {E : Int} (hM : 0 < M) (hE : -1074 ≤ E)
    (hfull : 52 ≤ M.log2 ∨ E = -1074) :
    Rounds (M * 2 ^ (E + 1074).toNat)
      (repack (roundWithAccuracy .binary64 .positive M E .exact)) := by
  have hfirst := shiftToTargetExponent_eq M hE
  have hunits := roundUnits_shift hM (j := (E + 1074).toNat) (by omega)
  rw [← roundedMantissa_shiftRight] at hunits
  generalize hk : M.log2 - 52 = k at *
  obtain ⟨hkept, hlog⟩ := log2_shift (k := k) (by omega) hM
  have hmantissa : (whole M >>> k).mantissa = M / 2 ^ k := mantissa_shift _ _
  have hplaces := log2_roundedMantissa (whole M >>> k) (hmantissa ▸ hkept)
  have hlow := le_roundedMantissa (whole M >>> k)
  have hhigh := roundedMantissa_le (whole M >>> k)
  rw [hmantissa] at hplaces hlow hhigh
  generalize hR : (whole M >>> k).roundedMantissa = R at *
  have hlast := shiftToTargetExponent_eq R (E := E + k) (by omega)
  have hexact := mul_of_carry ((Nat.log2_lt (Nat.ne_of_gt hkept)).1 (by omega)) hlow hhigh
  obtain ⟨hpos, hlog'⟩ := log2_shift (M := R) (k := R.log2 - 52) (by omega) (hkept.trans_le hlow)
  have hround := roundWithAccuracy_eq .positive hfirst
    (by rw [hR]; exact hlast) (hpos.trans_eq (mantissa_shift (whole R) _).symm)
  have hresult : R / 2 ^ (R.log2 - 52) * 2 ^ (E + k + (R.log2 - 52 : Nat) + 1074).toNat =
      R * 2 ^ (k + (E + 1074).toNat) := by
    have hexponent : (E + k + (R.log2 - 52 : Nat) + 1074).toNat =
        R.log2 - 52 + (k + (E + 1074).toNat) := by omega
    rw [hexponent, Nat.pow_add, ← Nat.mul_assoc, hexact]
  have hword := repack_positive hpos (e := E + k + (R.log2 - 52 : Nat)) (by omega) (by omega)
    (by omega)
  rw [Rounds, hunits, ← hresult, hround, finite_congr (mantissa_shift (whole R) _) rfl]
  exact hword

theorem rounds_round {M : Nat} {E : Int} (hM : 0 < M) (hE : -1074 ≤ E) :
    Rounds (M * 2 ^ (E + 1074).toNat) (repack (UnpackedFloat.round .binary64 .positive M E)) := by
  generalize hk : (E - max ((M.log2 : Int) + 1 + E - 53) (-1074)).toNat = k
  have hround : UnpackedFloat.round .binary64 .positive M E =
      roundWithAccuracy .binary64 .positive (M <<< k) (E - k) .exact := by
    rw [← hk]
    rfl
  have hpos : 0 < M <<< k := by
    rw [Nat.shiftLeft_eq]
    exact Nat.mul_pos hM (Nat.two_pow_pos k)
  have hlog := log2_shiftLeft hM k
  have hunits : M * 2 ^ (E + 1074).toNat = (M <<< k) * 2 ^ (E - k + 1074).toNat := by
    rw [Nat.shiftLeft_eq, Nat.mul_assoc, ← Nat.pow_add]
    congr 2
    omega
  rw [hround, hunits]
  exact rounds_roundWithAccuracy hpos (by omega) (by omega)

/-! ## Sums -/

/-- A double that is not negative, as a number of units. -/
def Measures (x : Float) (N : Nat) : Prop := Holds N x.toModel.unpack

variable {x y x' y' : Float} {a b a' b' : Nat}

theorem Measures.cases (h : Measures x a) :
    (∃ s, x.toModel.unpack = .zero s) ∧ a = 0 ∨
      ∃ m e hm, x.toModel.unpack = .finite .positive m e hm ∧ -1074 ≤ e ∧
        m * 2 ^ (e + 1074).toNat = a := by
  unfold Measures at h
  cases hx : x.toModel.unpack with
  | notANumber | infinity =>
    rw [hx] at h
    exact h.elim
  | zero s =>
    rw [hx] at h
    exact .inl ⟨⟨s, rfl⟩, h⟩
  | finite s m e hm =>
    rw [hx] at h
    cases s with
    | negative => exact h.elim
    | positive => exact .inr ⟨m, e, hm, rfl, h⟩

/-- What a double holds needs no rounding. -/
theorem Measures.rounds (h : Measures x a) : Rounds a x.toModel.unpack := by
  have hexact : roundUnits a = a ∧ a.log2 < 2098 := by
    rcases h.cases with ⟨-, rfl⟩ | ⟨m, e, hm, hx, hleast, rfl⟩
    · exact ⟨rfl, by decide⟩
    · have hcanonical := canonical_of_unpack hx
      have hlog := (Nat.log2_lt (Nat.ne_of_gt hm)).2 hcanonical.lt
      have hmost := hcanonical.most
      refine ⟨roundUnits_eq hcanonical.lt _, ?_⟩
      rw [log2_mul_two_pow hm]
      omega
  refine .inl ?_
  rw [hexact.1]
  exact ⟨hexact.2, h⟩

/-- Two mantissas are moved to the smaller exponent, and their sum is rounded. -/
theorem add_positive {m m' : Nat} (hm : 0 < m) (hm' : 0 < m') (e e' : Int) :
    0 < m <<< (e - min e e').toNat + m' <<< (e' - min e e').toNat ∧
      UnpackedFloat.add .binary64 (.finite .positive m e hm) (.finite .positive m' e' hm') =
        UnpackedFloat.round .binary64 .positive
          (m <<< (e - min e e').toNat + m' <<< (e' - min e e').toNat) (min e e') := by
  have hnormalize : UnpackedFloat.add .binary64 (.finite .positive m e hm)
      (.finite .positive m' e' hm') = UnpackedFloat.normalize .binary64
        ((m <<< (e - min e e').toNat + m' <<< (e' - min e e').toNat : Nat) : Int) (min e e')
        .positive := rfl
  have hpos : 0 < m <<< (e - min e e').toNat + m' <<< (e' - min e e').toNat := by
    rw [Nat.shiftLeft_eq]
    exact Nat.add_pos_left (Nat.mul_pos hm (Nat.two_pow_pos _)) _
  refine ⟨hpos, ?_⟩
  rw [hnormalize, UnpackedFloat.normalize, Int.compare_eq_gt.2 (Int.natCast_pos.2 hpos)]
  rfl

theorem rounds_add_positive {m m' : Nat} {e e' : Int} (hm : 0 < m) (hm' : 0 < m')
    (he : -1074 ≤ e) (he' : -1074 ≤ e') :
    Rounds (m * 2 ^ (e + 1074).toNat + m' * 2 ^ (e' + 1074).toNat)
      (repack (UnpackedFloat.add .binary64 (.finite .positive m e hm)
        (.finite .positive m' e' hm'))) := by
  obtain ⟨hpos, hadd⟩ := add_positive hm hm' e e'
  rw [hadd]
  generalize hE : min e e' = E at *
  have hunits : m * 2 ^ (e + 1074).toNat + m' * 2 ^ (e' + 1074).toNat =
      (m <<< (e - E).toNat + m' <<< (e' - E).toNat) * 2 ^ (E + 1074).toNat := by
    have hexponent : (e + 1074).toNat = (e - E).toNat + (E + 1074).toNat := by omega
    have hexponent' : (e' + 1074).toNat = (e' - E).toNat + (E + 1074).toNat := by omega
    rw [Nat.shiftLeft_eq, Nat.shiftLeft_eq, hexponent, hexponent', Nat.pow_add, Nat.pow_add,
      ← Nat.mul_assoc, ← Nat.mul_assoc, ← Nat.add_mul]
  rw [hunits]
  exact rounds_round hpos (by omega)

theorem rounds_add (hx : Measures x a) (hy : Measures y b) :
    Rounds (a + b) (x + y).toModel.unpack := by
  have hadd : (x + y).toModel.unpack =
      repack (UnpackedFloat.add .binary64 x.toModel.unpack y.toModel.unpack) := rfl
  rcases hx.cases with ⟨⟨s, hu⟩, rfl⟩ | ⟨m, e, hm, hu, he, hunits⟩
  · rcases hy.cases with ⟨⟨s', hv⟩, rfl⟩ | ⟨m', e', hm', hv, -, -⟩
    · rw [hadd, hu, hv]
      show Rounds 0 (repack (if s == s' then .zero s else .zero .positive))
      split
      all_goals
        rw [repack_zero]
        exact .inl ⟨by decide, rfl⟩
    · have hkept : UnpackedFloat.add .binary64 x.toModel.unpack y.toModel.unpack =
          y.toModel.unpack := by
        rw [hu, hv]
        rfl
      rw [hadd, hkept, repack_unpack, Nat.zero_add]
      exact hy.rounds
  · rcases hy.cases with ⟨⟨s', hv⟩, rfl⟩ | ⟨m', e', hm', hv, he', hunits'⟩
    · have hkept : UnpackedFloat.add .binary64 x.toModel.unpack y.toModel.unpack =
          x.toModel.unpack := by
        rw [hu, hv]
        rfl
      rw [hadd, hkept, repack_unpack]
      exact hx.rounds
    · rw [hadd, hu, hv, ← hunits, ← hunits']
      exact rounds_add_positive hm hm' he he'

/-! ## Whole numbers -/

theorem rounds_zero {u : UnpackedFloat} {s : Sign} (hu : u = .zero s) : Rounds 0 u := by
  rw [hu]
  exact .inl ⟨by decide, rfl⟩

/-- A whole number that is large is read as a decimal. -/
theorem unpack_ofNat_large {n : Nat} (h : 2 ^ 53 ≤ n) :
    (Float.ofNat n).toModel.unpack = repack (UnpackedFloat.ofScientific .binary64 n 0) := by
  have hdecimal : Float.ofNat n = ⟨.pack (UnpackedFloat.ofScientific .binary64 n 0)⟩ := by
    show Float.ofScientific n false 0 = _
    unfold Float.ofScientific
    rw [dif_neg (by omega)]
    rfl
  rw [hdecimal]
  rfl

theorem ofScientific_whole {n : Nat} (hpos : 0 < n) :
    UnpackedFloat.ofScientific .binary64 n 0 =
      roundWithAccuracy .binary64 .positive (n <<< 53) (-53) .exact := by
  unfold UnpackedFloat.ofScientific
  rw [dif_neg (by omega), if_neg (by decide), if_neg, if_pos (by decide)]
  · show roundWithAccuracy .binary64 .positive (n <<< 53 * 1) (-53) .exact = _
    rw [Nat.mul_one]
  · show ¬ (0 : Int) < -(2 ^ 11 + (n.log2 : Int))
    omega

/-- A product with one, of what is not less than one itself. -/
theorem rounds_mul_one (hx : Measures x a) (ha : 1074 ≤ a.log2)
    (hy : y.toModel.unpack = .finite .positive (2 ^ 52) (-52) (by decide)) :
    Rounds a (x * y).toModel.unpack := by
  rcases hx.cases with ⟨-, rfl⟩ | ⟨m, e, hm, hu, hleast, rfl⟩
  · exact absurd ha (by decide)
  · have hcanonical := canonical_of_unpack hu
    have hlog := (Nat.log2_lt (Nat.ne_of_gt hm)).2 hcanonical.lt
    rw [log2_mul_two_pow hm] at ha
    have hunits : m * 2 ^ (e + 1074).toNat = m * 2 ^ 52 * 2 ^ (e + -52 + 1074).toNat := by
      rw [Nat.mul_assoc, ← Nat.pow_add]
      congr 2
      omega
    have hmul : (x * y).toModel.unpack =
        repack (roundWithAccuracy .binary64 .positive (m * 2 ^ 52) (e + -52) .exact) := by
      show repack (UnpackedFloat.mul .binary64 x.toModel.unpack y.toModel.unpack) = _
      rw [hu, hy]
      rfl
    rw [hmul, hunits]
    refine rounds_roundWithAccuracy (Nat.mul_pos hm (by decide)) (by omega) (.inl ?_)
    rw [log2_mul_two_pow hm]
    omega

/-- The units that a whole number makes. -/
def wholeUnits (n : Nat) : Nat := n * 2 ^ ((0 : Int) + 1074).toNat

theorem wholeUnits_mono {n n' : Nat} (h : n ≤ n') : wholeUnits n ≤ wholeUnits n' :=
  Nat.mul_le_mul_right _ h

/-- A whole number that 53 places can hold needs no rounding. -/
theorem Rounds.measures_whole {n : Nat} (hpos : 0 < n) (hsmall : n < 2 ^ 53)
    (h : Rounds (wholeUnits n) x.toModel.unpack) : Measures x (wholeUnits n) := by
  have hplaces := (Nat.log2_lt (Nat.ne_of_gt hpos)).2 hsmall
  have hexact : roundUnits (wholeUnits n) = wholeUnits n := roundUnits_eq hsmall _
  have hfits : (wholeUnits n).log2 < 2098 := by
    rw [wholeUnits, log2_mul_two_pow hpos]
    omega
  rcases h with ⟨-, hholds⟩ | ⟨hlarge, -⟩
  · rw [hexact] at hholds
    exact hholds
  · rw [hexact] at hlarge
    exact absurd hlarge (Nat.not_le.2 hfits)

theorem measures_toFloat {n : Nat} (hpos : 0 < n) (hsmall : n < 2 ^ 53) :
    Measures n.toUInt64.toFloat (wholeUnits n) := by
  have hword : n.toUInt64.toNat = n := by
    show n % 2 ^ 64 = n
    omega
  have hround : n.toUInt64.toFloat.toModel.unpack =
      repack (UnpackedFloat.round .binary64 .positive n 0) := by
    have hsign : compare (n : Int) 0 = .gt := Int.compare_eq_gt.2 (by omega)
    show repack (UnpackedFloat.normalize .binary64 (n.toUInt64.toNat : Int) 0 .positive) = _
    rw [hword, UnpackedFloat.normalize, hsign]
    rfl
  refine Rounds.measures_whole hpos hsmall ?_
  rw [hround]
  exact rounds_round (E := 0) hpos (by decide)

theorem rounds_ofNat (n : Nat) : Rounds (wholeUnits n) (Float.ofNat n).toModel.unpack := by
  rcases Nat.eq_zero_or_pos n with rfl | hpos
  · rw [wholeUnits, Nat.zero_mul]
    exact rounds_zero (s := .positive) rfl
  · rcases Nat.lt_or_ge n (2 ^ 53) with hsmall | hlarge
    · rw [ofNat_eq_scaled hsmall]
      refine rounds_mul_one (measures_toFloat hpos hsmall) ?_ rfl
      rw [wholeUnits, log2_mul_two_pow hpos]
      omega
    · have hunits : wholeUnits n = (n <<< 53) * 2 ^ ((-53 : Int) + 1074).toNat := by
        rw [wholeUnits, Nat.shiftLeft_eq, Nat.mul_assoc, ← Nat.pow_add]
        congr 2
      rw [unpack_ofNat_large hlarge, ofScientific_whole hpos, hunits]
      have hlog := log2_shiftLeft hpos 53
      refine rounds_roundWithAccuracy ?_ (by decide) (.inl (by omega))
      rw [Nat.shiftLeft_eq]
      exact Nat.mul_pos hpos (Nat.two_pow_pos _)

/-! ## The order -/

/-- Two finite doubles that are not negative, the first at most as large as the second. -/
def UpTo (x y : Float) : Prop := ∃ a b, Measures x a ∧ Measures y b ∧ a ≤ b

theorem UpTo.isFinite (h : UpTo x y) : isFinite x = true := by
  obtain ⟨a, -, hx, -⟩ := h
  rw [isFinite_iff]
  rcases hx.cases with ⟨hzero, -⟩ | ⟨m, e, hm, hu, -⟩
  · exact .inl hzero
  · exact .inr ⟨_, m, e, hm, hu⟩

/-- Rounding keeps the order, and what is rounded to no more than a finite double is finite. -/
theorem Rounds.upTo {N N' : Nat} (hle : N ≤ N') (hx : Rounds N x.toModel.unpack)
    (hy : Rounds N' y.toModel.unpack) (hfinite : Double.isFinite y = true) : UpTo x y := by
  have hrounded := roundUnits_mono hle
  rcases hy with ⟨hlog', hholds'⟩ | ⟨-, hinfinite⟩
  · rcases hx with ⟨-, hholds⟩ | ⟨hlog, -⟩
    · exact ⟨_, _, hholds, hholds', hrounded⟩
    · exact absurd (hlog.trans (log2_mono hrounded)) (Nat.not_le.2 hlog')
  · have := (isFinite_eq_false_iff y).2 (.inr ⟨_, hinfinite⟩)
    rw [hfinite] at this
    cases this

theorem upTo_add (hx : UpTo x x') (hy : UpTo y y') (hfinite : Double.isFinite (x' + y') = true) :
    UpTo (x + y) (x' + y') := by
  obtain ⟨a, a', hxa, hxa', ha⟩ := hx
  obtain ⟨b, b', hyb, hyb', hb⟩ := hy
  exact (rounds_add hxa hyb).upTo (Nat.add_le_add ha hb) (rounds_add hxa' hyb') hfinite

theorem upTo_ofNat {n n' : Nat} (h : n ≤ n') (hfinite : Double.isFinite (Float.ofNat n') = true) :
    UpTo (Float.ofNat n) (Float.ofNat n') :=
  (rounds_ofNat n).upTo (wholeUnits_mono h) (rounds_ofNat n') hfinite

/-! ## What is not negative -/

/-- Zero, positive, or no number at all. -/
def NotNegative : UnpackedFloat → Prop
  | .finite .negative _ _ _ | .infinity .negative => False
  | _ => True

instance : DecidablePred NotNegative
  | .finite .negative _ _ _ | .infinity .negative => isFalse id
  | .finite .positive _ _ _ | .infinity .positive | .zero _ | .notANumber => isTrue trivial

theorem notNegative_decode (e : BitVec 11) (m : BitVec 52) :
    NotNegative (decode .positive e m) := by
  rcases decode_cases e m with ⟨-, -, hdecode⟩ | ⟨-, -, hdecode⟩ | ⟨-, -, hdecode⟩ |
    ⟨-, hm, hdecode⟩ | ⟨-, -, hm, hdecode⟩
  all_goals
    rw [hdecode]
    trivial

theorem NotNegative.repack {u : UnpackedFloat} (h : NotNegative u) : NotNegative (repack u) := by
  cases u with
  | notANumber => trivial
  | zero s => rwa [repack_zero]
  | infinity s => rwa [repack_infinity]
  | finite s m e hm =>
    cases s with
    | negative => exact h.elim
    | positive =>
      rw [Double.repack, pack_finite]
      split
      · rw [unpack_word]
        exact notNegative_decode _ _
      · split
        all_goals
          rw [unpack_word]
          exact notNegative_decode _ _

theorem notNegative_roundWithAccuracy (M : Nat) (E : Int) :
    NotNegative (roundWithAccuracy .binary64 .positive M E .exact) := by
  have hcases : ∀ (m : Nat) (e : Int), NotNegative
      (if h : m = 0 then .zero .positive else .finite .positive m e (Nat.pos_of_ne_zero h)) := by
    intro m e
    by_cases hm : m = 0
    · rw [dif_pos hm]
      trivial
    · rw [dif_neg hm]
      trivial
  exact hcases _ _

theorem notNegative_round (M : Nat) (E : Int) :
    NotNegative (UnpackedFloat.round .binary64 .positive M E) :=
  notNegative_roundWithAccuracy _ _

/-- Cases of what is not negative. -/
theorem NotNegative.cases {u : UnpackedFloat} (h : NotNegative u) :
    u = .notANumber ∨ u = .infinity .positive ∨ (∃ s, u = .zero s) ∨
      ∃ m e hm, u = .finite .positive m e hm := by
  cases u with
  | notANumber => exact .inl rfl
  | zero s => exact .inr (.inr (.inl ⟨s, rfl⟩))
  | infinity s =>
    cases s with
    | negative => exact h.elim
    | positive => exact .inr (.inl rfl)
  | finite s m e hm =>
    cases s with
    | negative => exact h.elim
    | positive => exact .inr (.inr (.inr ⟨m, e, hm, rfl⟩))

theorem NotNegative.add {u v : UnpackedFloat} (hu : NotNegative u) (hv : NotNegative v) :
    NotNegative (UnpackedFloat.add .binary64 u v) := by
  rcases hu.cases with rfl | rfl | ⟨s, rfl⟩ | ⟨m, e, hm, rfl⟩
  · cases v <;> trivial
  · rcases hv.cases with rfl | rfl | ⟨s, rfl⟩ | ⟨m, e, hm, rfl⟩ <;> trivial
  · rcases hv.cases with rfl | rfl | ⟨s', rfl⟩ | ⟨m, e, hm, rfl⟩
    · trivial
    · trivial
    · show NotNegative (if s == s' then .zero s else .zero .positive)
      split <;> trivial
    · trivial
  · rcases hv.cases with rfl | rfl | ⟨s', rfl⟩ | ⟨m', e', hm', rfl⟩
    · trivial
    · trivial
    · trivial
    · rw [(add_positive hm hm' e e').2]
      exact notNegative_round _ _

theorem NotNegative.mul {u v : UnpackedFloat} (hu : NotNegative u) (hv : NotNegative v) :
    NotNegative (UnpackedFloat.mul .binary64 u v) := by
  rcases hu.cases with rfl | rfl | ⟨s, rfl⟩ | ⟨m, e, hm, rfl⟩
  · cases v <;> trivial
  · rcases hv.cases with rfl | rfl | ⟨s, rfl⟩ | ⟨m, e, hm, rfl⟩ <;> trivial
  · rcases hv.cases with rfl | rfl | ⟨s', rfl⟩ | ⟨m, e, hm, rfl⟩ <;> trivial
  · rcases hv.cases with rfl | rfl | ⟨s', rfl⟩ | ⟨m', e', hm', rfl⟩
    · trivial
    · trivial
    · trivial
    · exact notNegative_roundWithAccuracy _ _

theorem notNegative_add (hx : NotNegative x.toModel.unpack) (hy : NotNegative y.toModel.unpack) :
    NotNegative (x + y).toModel.unpack :=
  (hx.add hy).repack

theorem notNegative_mul (hx : NotNegative x.toModel.unpack) (hy : NotNegative y.toModel.unpack) :
    NotNegative (x * y).toModel.unpack :=
  (hx.mul hy).repack

theorem notNegative_of_not_less (h : Scalar.less x (Scalar.nat 0) = false) :
    NotNegative x.toModel.unpack := by
  have hcompare : x.toModel.unpack.compare (.zero .positive) ≠ some .lt :=
    fun hlt => absurd ((less_iff x (Scalar.nat 0)).2 hlt) (by rw [h]; decide)
  cases hx : x.toModel.unpack with
  | notANumber | zero => trivial
  | infinity s | finite s =>
    rw [hx] at hcompare
    cases s with
    | positive => trivial
    | negative => exact hcompare rfl

/-- A finite double that is not negative is at most as large as itself. -/
theorem upTo_self (h : NotNegative x.toModel.unpack) (hfinite : isFinite x = true) : UpTo x x := by
  rcases (isFinite_iff x).1 hfinite with ⟨s, hu⟩ | ⟨s, m, e, hm, hu⟩
  · have hmeasures : Measures x 0 := by
      unfold Measures
      rw [hu]
      rfl
    exact ⟨0, 0, hmeasures, hmeasures, Nat.le_refl _⟩
  · rw [hu] at h
    cases s with
    | negative => exact h.elim
    | positive =>
      have hmeasures : Measures x (m * 2 ^ (e + 1074).toNat) := by
        unfold Measures
        rw [hu]
        exact ⟨exponent_of_unpack hu, rfl⟩
      exact ⟨_, _, hmeasures, hmeasures, Nat.le_refl _⟩

end Double

end Tradeflow
