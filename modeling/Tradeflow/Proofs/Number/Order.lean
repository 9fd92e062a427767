/-
  Doubles in the order of their exact values, and the signs of what is computed from them. Finite
  doubles compare as the rationals that they stand for (`compare_exact`). A difference of finite
  doubles has the sign of the exact difference, and vanishes only if that does, as exponents end at
  the least one (`negative_sub_iff`, `positive_sub_iff`). A product has the sign of its factors unless
  it is rounded to zero (`negative_mul_iff`), which takes a factor below `2 ^ (-537)` in size
  (`small_of_isZero_mul`).
-/
import Tradeflow.Proofs.Number.Magnitude

namespace Tradeflow

namespace Double

open Float.Model Float.Model.UnpackedFloat

/-! ## Exact values -/

theorem exact_of_zero {x : Float} {s : Sign} (hx : x.toModel.unpack = .zero s) : exact x = 0 := by
  rw [exact, view_eq_seen, hx]
  cases s <;> decide +kernel

theorem exact_of_finite {x : Float} {s : Sign} {m : Nat} {e : Int} {h : 0 < m}
    (hx : x.toModel.unpack = .finite s m e h) :
    exact x = (s.apply (m : Int) : Rat) * 2 ^ e := by
  rw [exact, view_eq_seen, hx]
  dsimp only [seen]
  rw [(Decimal.quotient_eq m e).2]
  cases s with
  | negative =>
    show -((m : Rat) * 2 ^ e) = ((-(m : Int) : Int) : Rat) * 2 ^ e
    push_cast
    rw [neg_mul]
  | positive => rfl

theorem exact_of_positive {x : Float} {m : Nat} {e : Int} {h : 0 < m}
    (hx : x.toModel.unpack = .finite .positive m e h) : exact x = m * 2 ^ e :=
  exact_of_finite hx

theorem exact_of_negative {x : Float} {m : Nat} {e : Int} {h : 0 < m}
    (hx : x.toModel.unpack = .finite .negative m e h) : exact x = -(m * 2 ^ e) := by
  rw [exact_of_finite hx]
  show ((-(m : Int) : Int) : Rat) * 2 ^ e = _
  push_cast
  rw [neg_mul]

theorem mul_zpow_pos {m : Nat} (h : 0 < m) (e : Int) : (0 : Rat) < m * 2 ^ e :=
  mul_pos (Nat.cast_pos.2 h) (zpow_pos two_pos e)

/-- A double above zero does not stand for less than zero. -/
theorem exact_nonneg {x : Float} (h : Scalar.positive x = true) : 0 ≤ exact x := by
  rcases (positive_iff x).1 h with hx | ⟨m, e, hm, hx⟩
  · rw [exact, view_eq_seen, hx]
    exact le_rfl
  · rw [exact_of_positive hx]
    exact (mul_zpow_pos hm e).le

/-! ## Comparisons -/

/-- A larger exponent makes up for any mantissa. -/
theorem Canonical.value_lt {m m' : Nat} {e e' : Int} (h : Canonical m e) (h' : Canonical m' e')
    (he : e < e') : (m : Rat) * 2 ^ e < m' * 2 ^ e' := by
  have hlt : (m : Rat) < m' * 2 := by
    have hfull := h'.full (lt_of_le_of_lt h.least he)
    have hmant := h.lt
    rw [pow2_52] at hfull
    rw [pow2_53] at hmant
    exact_mod_cast (show m < m' * 2 by omega)
  calc (m : Rat) * 2 ^ e < m' * 2 * 2 ^ e := mul_lt_mul_of_pos_right hlt (zpow_pos two_pos e)
    _ = m' * 2 ^ (e + 1) := by rw [zpow_add₀ two_ne_zero, zpow_one]; ring
    _ ≤ m' * 2 ^ e' := by
      refine mul_le_mul_of_nonneg_left ?_ (Nat.cast_nonneg m')
      exact zpow_le_zpow_right₀ one_le_two he

/-- Full mantissas are compared by their exponents first. -/
theorem Canonical.compare_eq {m m' : Nat} {e e' : Int} (h : Canonical m e) (h' : Canonical m' e') :
    (compare e e').then (compare m m') = compare ((m : Rat) * 2 ^ e) (m' * 2 ^ e') := by
  rcases lt_trichotomy e e' with he | rfl | he
  · rw [compare_lt_iff_lt.2 he, compare_lt_iff_lt.2 (h.value_lt h' he)]
    rfl
  · have hpos : (0 : Rat) < 2 ^ e := zpow_pos two_pos e
    rw [compare_eq_iff_eq.2 (rfl : e = e)]
    rcases lt_trichotomy m m' with hm | rfl | hm
    · rw [compare_lt_iff_lt.2 hm,
        compare_lt_iff_lt.2 (mul_lt_mul_of_pos_right (Nat.cast_lt.2 hm) hpos)]
      rfl
    · rw [compare_eq_iff_eq.2 (rfl : m = m), compare_eq_iff_eq.2 rfl]
      rfl
    · rw [compare_gt_iff_gt.2 hm,
        compare_gt_iff_gt.2 (mul_lt_mul_of_pos_right (Nat.cast_lt.2 hm) hpos)]
      rfl
  · rw [compare_gt_iff_gt.2 he, compare_gt_iff_gt.2 (h'.value_lt h he)]
    rfl

theorem compare_neg_neg (a b : Rat) : compare (-a) (-b) = (compare a b).swap := by
  rcases lt_trichotomy a b with h | rfl | h
  · rw [compare_lt_iff_lt.2 h, compare_gt_iff_gt.2 (neg_lt_neg h)]
    rfl
  · rw [compare_eq_iff_eq.2 rfl, compare_eq_iff_eq.2 rfl]
    rfl
  · rw [compare_gt_iff_gt.2 h, compare_lt_iff_lt.2 (neg_lt_neg h)]
    rfl

theorem compare_exact {x y : Float} (hx : isFinite x = true) (hy : isFinite y = true) :
    x.toModel.unpack.compare y.toModel.unpack = some (compare (exact x) (exact y)) := by
  rcases (isFinite_iff x).1 hx with ⟨s, hu⟩ | ⟨s, m, e, hm, hu⟩
  · rcases (isFinite_iff y).1 hy with ⟨s', hv⟩ | ⟨s', m', e', hm', hv⟩
    · rw [hu, hv, exact_of_zero hu, exact_of_zero hv, compare_eq_iff_eq.2 rfl]
      rfl
    · have hsize := mul_zpow_pos hm' e'
      cases s' with
      | negative =>
        rw [hu, hv, exact_of_zero hu, exact_of_negative hv, compare_gt_iff_gt.2 (neg_neg_of_pos hsize)]
        rfl
      | positive =>
        rw [hu, hv, exact_of_zero hu, exact_of_positive hv, compare_lt_iff_lt.2 hsize]
        rfl
  · have hsize := mul_zpow_pos hm e
    rcases (isFinite_iff y).1 hy with ⟨s', hv⟩ | ⟨s', m', e', hm', hv⟩
    · cases s with
      | negative =>
        rw [hu, hv, exact_of_zero hv, exact_of_negative hu, compare_lt_iff_lt.2 (neg_neg_of_pos hsize)]
        rfl
      | positive =>
        rw [hu, hv, exact_of_zero hv, exact_of_positive hu, compare_gt_iff_gt.2 hsize]
        rfl
    · have hsize' := mul_zpow_pos hm' e'
      have hcompare := (canonical_of_unpack hu).compare_eq (canonical_of_unpack hv)
      cases s <;> cases s'
      · rw [hu, hv, exact_of_negative hu, exact_of_negative hv, compare_neg_neg, ← hcompare]
        rfl
      · rw [hu, hv, exact_of_negative hu, exact_of_positive hv, compare_lt_iff_lt.2 ((neg_neg_of_pos hsize).trans hsize')]
        rfl
      · rw [hu, hv, exact_of_positive hu, exact_of_negative hv, compare_gt_iff_gt.2 ((neg_neg_of_pos hsize').trans hsize)]
        rfl
      · rw [hu, hv, exact_of_positive hu, exact_of_positive hv, ← hcompare]
        rfl

variable {x y : Float}

theorem less_iff_exact (hx : isFinite x = true) (hy : isFinite y = true) :
    Scalar.less x y = true ↔ exact x < exact y := by
  rw [less_iff, compare_exact hx hy, Option.some_inj, compare_lt_iff_lt]

theorem equal_iff_exact (hx : isFinite x = true) (hy : isFinite y = true) :
    Scalar.equal x y = true ↔ exact x = exact y := by
  show (x.toModel.unpack.compare y.toModel.unpack == some .eq) = true ↔ _
  rw [beq_iff_eq, compare_exact hx hy, Option.some_inj, compare_eq_iff_eq]

/-- What lies between finite doubles is finite. -/
theorem isFinite_between {z : Float} (hx : isFinite x = true) (hy : isFinite y = true)
    (hxz : Scalar.less x z = true) (hzy : Scalar.less z y = true) : isFinite z = true := by
  rw [less_iff] at hxz hzy
  rw [isFinite_iff]
  rcases (isFinite_iff x).1 hx with ⟨s, hu⟩ | ⟨s, m, e, hm, hu⟩
  all_goals
    rcases (isFinite_iff y).1 hy with ⟨s', hv⟩ | ⟨s', m', e', hm', hv⟩
    all_goals
      rw [hu] at hxz
      rw [hv] at hzy
      cases hw : z.toModel.unpack with
      | notANumber =>
        rw [hw] at hzy
        cases hzy
      | infinity s =>
        rw [hw] at hxz hzy
        cases s
        · cases hxz
        · cases hzy
      | zero s => exact .inl ⟨s, rfl⟩
      | finite s m e hm => exact .inr ⟨s, m, e, hm, rfl⟩

/-! Whatever the numbers, NaN and infinities among them, the order is strict. -/

theorem not_less_self (x : Float) : Scalar.less x x = false := by
  rw [Bool.eq_false_iff]
  intro h
  by_cases hx : isFinite x = true
  · exact lt_irrefl _ ((less_iff_exact hx hx).1 h)
  · rw [less_iff] at h
    rcases (isFinite_eq_false_iff x).1 (Bool.eq_false_iff.2 hx) with hu | ⟨s, hu⟩
    · rw [hu] at h
      cases h
    · rw [hu] at h
      cases s <;> cases h

theorem not_less_of_less (h : Scalar.less x y = true) : Scalar.less y x = false := by
  rw [Bool.eq_false_iff]
  intro h'
  by_cases hx : isFinite x = true
  · have hy := isFinite_between hx hx h h'
    exact lt_asymm ((less_iff_exact hx hy).1 h) ((less_iff_exact hy hx).1 h')
  · have hy : isFinite y = false := Bool.eq_false_iff.2 fun hy => hx (isFinite_between hy hy h' h)
    rw [less_iff] at h h'
    rcases (isFinite_eq_false_iff x).1 (Bool.eq_false_iff.2 hx) with hu | ⟨s, hu⟩
    · rw [hu] at h
      cases h
    · rcases (isFinite_eq_false_iff y).1 hy with hv | ⟨s', hv⟩
      · rw [hv] at h'
        cases h'
      · rw [hu, hv] at h h'
        cases s
        · cases s' <;> cases h'
        · cases s' <;> cases h
/-! ## Signs -/

/-- Not zero, and of a sign. -/
def Signed (s : Sign) (u : UnpackedFloat) : Prop := u = .infinity s ∨ ∃ m e h, u = .finite s m e h

theorem negative_iff (x : Float) :
    Scalar.negative x = true ↔ Signed .negative x.toModel.unpack := by
  rw [Scalar.negative, less_iff]
  show UnpackedFloat.compare _ (.zero .positive) = _ ↔ _
  constructor
  · intro h
    cases hx : x.toModel.unpack with
    | notANumber | zero =>
      rw [hx] at h
      cases h
    | infinity s =>
      rw [hx] at h
      cases s with
      | negative => exact .inl rfl
      | positive => cases h
    | finite s m e hm =>
      rw [hx] at h
      cases s with
      | negative => exact .inr ⟨m, e, hm, rfl⟩
      | positive => cases h
  · rintro (hx | ⟨m, e, hm, hx⟩)
    all_goals
      rw [hx]
      rfl

theorem decode_sign (s : Sign) {e : BitVec 11} {m : BitVec 52} (h : e = -1#11 → m = 0#52) :
    decode s e m = .zero s ∨ Signed s (decode s e m) := by
  rcases decode_cases e m with ⟨-, -, hdecode⟩ | ⟨he, hm, -⟩ | ⟨-, -, hdecode⟩ |
    ⟨-, hm, hdecode⟩ | ⟨-, -, hm, hdecode⟩
  · exact .inr (.inl (hdecode s))
  · exact absurd (h he) hm
  · exact .inl (hdecode s)
  · exact .inr (.inr ⟨_, _, hm, hdecode s⟩)
  · exact .inr (.inr ⟨_, _, hm, hdecode s⟩)

/-- A word keeps the sign of a number that it is made of. -/
theorem repack_sign (s : Sign) (m : Nat) (e : Int) (h : 0 < m) :
    repack (.finite s m e h) = .zero s ∨ Signed s (repack (.finite s m e h)) := by
  rw [repack, pack_finite]
  split
  · rw [unpack_word]
    exact decode_sign s fun _ => rfl
  case isFalse hfits =>
    split
    · rw [unpack_word]
      refine decode_sign s fun he => ?_
      have htop := congrArg BitVec.toNat he
      rw [BitVec.toNat_ofNat, Nat.mod_eq_of_lt (by omega)] at htop
      change _ = 2047 at htop
      omega
    · rw [unpack_word]
      exact decode_sign s fun he => absurd he (by decide)

theorem signed_round (s : Sign) {M : Nat} {E : Int} (hM : 0 < M) (hE : -1074 ≤ (M.log2 : Int) + E) :
    Signed s (repack (UnpackedFloat.round .binary64 s M E)) := by
  have hne := repack_round_ne s s M E hM hE
  obtain ⟨F, E', hF, hround, -, -, -, -⟩ := exists_round s M E hM hE
  rw [hround] at hne ⊢
  exact (repack_sign s F E' hF).resolve_left hne

/-- A number has the sign of a rational, and is zero with it. -/
structure SignOf (q : Rat) (u : UnpackedFloat) : Prop where
  negative : q < 0 → Signed .negative u
  positive : 0 < q → Signed .positive u
  zero : q = 0 → ∃ s, u = .zero s

theorem Signed.not_both {u : UnpackedFloat} (h : Signed .negative u) : ¬ Signed .positive u := by
  rintro (h' | ⟨m', e', hm', h'⟩) <;> rcases h with h | ⟨m, e, hm, h⟩ <;> cases h.symm.trans h'

theorem Signed.ne_zero {s : Sign} {u : UnpackedFloat} (h : Signed s u) (z : Sign) : u ≠ .zero z := by
  rintro rfl
  rcases h with h | ⟨m, e, hm, h⟩ <;> cases h

theorem SignOf.negative_iff {q : Rat} {u : UnpackedFloat} (h : SignOf q u) :
    Signed .negative u ↔ q < 0 := by
  refine ⟨fun hsigned => ?_, h.negative⟩
  rcases lt_trichotomy q 0 with hq | hq | hq
  · exact hq
  · obtain ⟨z, hz⟩ := h.zero hq
    exact absurd hz (hsigned.ne_zero z)
  · exact absurd (h.positive hq) hsigned.not_both

theorem SignOf.positive_iff {q : Rat} {u : UnpackedFloat} (h : SignOf q u) :
    Signed .positive u ↔ 0 < q := by
  refine ⟨fun hsigned => ?_, h.positive⟩
  rcases lt_trichotomy q 0 with hq | hq | hq
  · exact absurd hsigned (h.negative hq).not_both
  · obtain ⟨z, hz⟩ := h.zero hq
    exact absurd hz (hsigned.ne_zero z)
  · exact hq

theorem signOf_exact (hx : isFinite x = true) : SignOf (exact x) x.toModel.unpack := by
  rcases (isFinite_iff x).1 hx with ⟨s, hu⟩ | ⟨s, m, e, hm, hu⟩
  · rw [exact_of_zero hu, hu]
    exact ⟨fun h => absurd h (lt_irrefl _), fun h => absurd h (lt_irrefl _), fun _ => ⟨s, rfl⟩⟩
  · have hsize := mul_zpow_pos hm e
    cases s with
    | negative =>
      have hneg := neg_neg_of_pos hsize
      rw [exact_of_negative hu, hu]
      exact ⟨fun _ => .inr ⟨m, e, hm, rfl⟩, fun h => absurd h hneg.not_gt,
        fun h => absurd h hneg.ne⟩
    | positive =>
      rw [exact_of_positive hu, hu]
      exact ⟨fun h => absurd h hsize.not_gt, fun _ => .inr ⟨m, e, hm, rfl⟩,
        fun h => absurd h hsize.ne'⟩

/-- Rounding keeps the sign of an exact number of units. -/
theorem signOf_normalize {M E : Int} (hE : -1074 ≤ E) :
    SignOf (M * 2 ^ E) (repack (UnpackedFloat.normalize .binary64 M E .positive)) := by
  have hpos : (0 : Rat) < 2 ^ E := zpow_pos two_pos E
  refine ⟨fun h => ?_, fun h => ?_, fun h => ?_⟩
  · have hM : M < 0 := Int.cast_lt_zero.1 (neg_of_mul_neg_left h hpos.le)
    rw [UnpackedFloat.normalize, Int.compare_eq_lt.2 hM]
    exact signed_round _ (by omega) (by omega)
  · have hM : 0 < M := Int.cast_pos.1 ((mul_pos_iff_of_pos_right hpos).1 h)
    rw [UnpackedFloat.normalize, Int.compare_eq_gt.2 hM]
    exact signed_round _ (by omega) (by omega)
  · have hM : M = 0 := Int.cast_eq_zero.1 ((mul_eq_zero_iff_right hpos.ne').1 h)
    rw [hM]
    exact ⟨_, repack_zero _⟩

/-! ## Sums and differences -/

theorem apply_shiftLeft (s : Sign) (m : Nat) {e e₀ : Int} (h : e₀ ≤ e) :
    ((s.apply ((m <<< (e - e₀).toNat : Nat) : Int) : Int) : Rat) * 2 ^ e₀ =
      (s.apply (m : Int) : Rat) * 2 ^ e := by
  have hpow : (2 : Rat) ^ e = 2 ^ (e - e₀).toNat * 2 ^ e₀ := by
    rw [← zpow_natCast, ← zpow_add₀ two_ne_zero]
    congr 1
    omega
  rw [hpow, ← mul_assoc, Nat.shiftLeft_eq]
  congr 1
  cases s with
  | negative =>
    show ((-((m * 2 ^ (e - e₀).toNat : Nat) : Int) : Int) : Rat) = ((-(m : Int) : Int) : Rat) * _
    push_cast
    rw [neg_mul]
  | positive =>
    show (((m * 2 ^ (e - e₀).toNat : Nat) : Int) : Rat) = ((m : Int) : Rat) * _
    push_cast
    rfl

theorem signOf_add (hx : isFinite x = true) (hy : isFinite y = true) :
    SignOf (exact x + exact y) (x + y).toModel.unpack := by
  have hsum : (x + y).toModel.unpack =
      repack (UnpackedFloat.add .binary64 x.toModel.unpack y.toModel.unpack) := rfl
  rcases (isFinite_iff x).1 hx with ⟨s, hu⟩ | ⟨s, m, e, hm, hu⟩
  · rcases (isFinite_iff y).1 hy with ⟨s', hv⟩ | ⟨s', m', e', hm', hv⟩
    · rw [hsum, exact_of_zero hu, exact_of_zero hv, hu, hv, add_zero]
      refine ⟨fun h => absurd h (lt_irrefl _), fun h => absurd h (lt_irrefl _), fun _ => ?_⟩
      show ∃ z, repack (if s == s' then .zero s else .zero .positive) = .zero z
      split
      · exact ⟨_, repack_zero _⟩
      · exact ⟨_, repack_zero _⟩
    · have hkept : UnpackedFloat.add .binary64 x.toModel.unpack y.toModel.unpack =
          y.toModel.unpack := by
        rw [hu, hv]
        rfl
      rw [hsum, hkept, repack_unpack, exact_of_zero hu, zero_add]
      exact signOf_exact hy
  · rcases (isFinite_iff y).1 hy with ⟨s', hv⟩ | ⟨s', m', e', hm', hv⟩
    · have hkept : UnpackedFloat.add .binary64 x.toModel.unpack y.toModel.unpack =
          x.toModel.unpack := by
        rw [hu, hv]
        rfl
      rw [hsum, hkept, repack_unpack, exact_of_zero hv, add_zero]
      exact signOf_exact hx
    · have hunits : UnpackedFloat.add .binary64 x.toModel.unpack y.toModel.unpack =
          UnpackedFloat.normalize .binary64 (s.apply ((m <<< (e - min e e').toNat : Nat) : Int) +
            s'.apply ((m' <<< (e' - min e e').toNat : Nat) : Int)) (min e e') .positive := by
        rw [hu, hv]
        rfl
      have he := exponent_of_unpack hu
      have he' := exponent_of_unpack hv
      rw [hsum, hunits, exact_of_finite hu, exact_of_finite hv,
        ← apply_shiftLeft s m (Int.min_le_left e e'), ← apply_shiftLeft s' m' (Int.min_le_right e e'),
        ← add_mul, ← Int.cast_add]
      exact signOf_normalize (by omega)

theorem isFinite_neg (hx : isFinite x = true) : isFinite (-x) = true ∧ exact (-x) = -exact x := by
  have hneg : (-x).toModel.unpack = x.toModel.unpack.neg := unpack_neg x.toModel
  rcases (isFinite_iff x).1 hx with ⟨s, hu⟩ | ⟨s, m, e, hm, hu⟩
  · rw [hu] at hneg
    exact ⟨(isFinite_iff _).2 (.inl ⟨_, hneg⟩), by
      rw [exact_of_zero hneg, exact_of_zero hu, neg_zero]⟩
  · rw [hu] at hneg
    refine ⟨(isFinite_iff _).2 (.inr ⟨_, _, _, hm, hneg⟩), ?_⟩
    cases s with
    | negative => rw [exact_of_positive hneg, exact_of_negative hu, neg_neg]
    | positive => rw [exact_of_negative hneg, exact_of_positive hu]

theorem signOf_sub (hx : isFinite x = true) (hy : isFinite y = true) :
    SignOf (exact x - exact y) (x - y).toModel.unpack := by
  obtain ⟨hfinite, hexact⟩ := isFinite_neg hy
  have hsum := signOf_add hx hfinite
  rwa [hexact, ← sub_eq_add_neg, ← Double.sub_eq_add_neg] at hsum

/-- A difference of finite doubles is negative just when the first is less. -/
theorem negative_sub_iff (hx : isFinite x = true) (hy : isFinite y = true) :
    Scalar.negative (x - y) = true ↔ Scalar.less x y = true := by
  rw [negative_iff, (signOf_sub hx hy).negative_iff, sub_neg, less_iff_exact hx hy]

theorem positive_sub_iff (hx : isFinite x = true) (hy : isFinite y = true) :
    Scalar.positive (x - y) = true ↔ Scalar.less y x = true := by
  rw [positive_iff]
  show Signed .positive _ ↔ _
  rw [(signOf_sub hx hy).positive_iff, sub_pos, less_iff_exact hy hx]

/-! ## Products -/

theorem mul_def (x y : Float) : (x * y).toModel.unpack =
    repack (UnpackedFloat.mul .binary64 x.toModel.unpack y.toModel.unpack) := rfl

/-- What is rounded to some place keeps its sign, or is zero. -/
theorem round_sign (s : Sign) (M : Nat) (E : Int) (accuracy : Accuracy) :
    repack (roundWithAccuracy .binary64 s M E accuracy) = .zero s ∨
      Signed s (repack (roundWithAccuracy .binary64 s M E accuracy)) := by
  have hcases : ∀ (m : Nat) (e : Int),
      let u : UnpackedFloat :=
        if h : m = 0 then .zero s else .finite s m e (Nat.pos_of_ne_zero h)
      repack u = .zero s ∨ Signed s (repack u) := by
    intro m e
    by_cases hm : m = 0
    · rw [dif_pos hm]
      exact .inl (repack_zero s)
    · rw [dif_neg hm]
      exact repack_sign s m e _
  exact hcases _ _

/-- A product has the sign of its factors, unless it is rounded to zero. -/
theorem Signed.mul {s s' : Sign} (hx : Signed s x.toModel.unpack) (hy : Signed s' y.toModel.unpack) :
    (x * y).toModel.unpack = .zero (s * s') ∨ Signed (s * s') (x * y).toModel.unpack := by
  rw [mul_def]
  rcases hx with hu | ⟨m, e, hm, hu⟩ <;> rcases hy with hv | ⟨m', e', hm', hv⟩ <;> rw [hu, hv]
  · exact .inr (.inl (repack_infinity _))
  · exact .inr (.inl (repack_infinity _))
  · exact .inr (.inl (repack_infinity _))
  · exact round_sign _ _ _ _

/-- Only what is signed has a product that is. -/
theorem signed_of_mul {z : Sign} (h : Signed z (x * y).toModel.unpack) :
    (∃ s, Signed s x.toModel.unpack) ∧ ∃ s, Signed s y.toModel.unpack := by
  rw [mul_def] at h
  have hnan : ¬ Signed z (repack .notANumber) := by
    rintro (h | ⟨m, e, hm, h⟩) <;> cases h
  have hzero : ∀ s, ¬ Signed z (repack (.zero s)) := fun s hs =>
    hs.ne_zero s (repack_zero s)
  cases hu : x.toModel.unpack with
  | notANumber =>
    rw [hu] at h
    exact absurd h hnan
  | zero s =>
    rw [hu] at h
    cases hv : y.toModel.unpack with
    | notANumber | infinity =>
      rw [hv] at h
      exact absurd h hnan
    | zero | finite =>
      rw [hv] at h
      exact absurd h (hzero _)
  | infinity s =>
    rw [hu] at h
    cases hv : y.toModel.unpack with
    | notANumber | zero =>
      rw [hv] at h
      exact absurd h hnan
    | infinity s' => exact ⟨⟨s, .inl rfl⟩, s', .inl rfl⟩
    | finite s' m e hm => exact ⟨⟨s, .inl rfl⟩, s', .inr ⟨m, e, hm, rfl⟩⟩
  | finite s m e hm =>
    rw [hu] at h
    cases hv : y.toModel.unpack with
    | notANumber =>
      rw [hv] at h
      exact absurd h hnan
    | zero s' =>
      rw [hv] at h
      exact absurd h (hzero _)
    | infinity s' => exact ⟨⟨s, .inr ⟨m, e, hm, rfl⟩⟩, s', .inl rfl⟩
    | finite s' m' e' hm' => exact ⟨⟨s, .inr ⟨m, e, hm, rfl⟩⟩, s', .inr ⟨m', e', hm', rfl⟩⟩

/-- A product is negative when its factors are on different sides of zero and it is not rounded to
zero. -/
theorem negative_mul_iff (x y : Float) :
    Scalar.negative (x * y) = true ↔
      (Scalar.negative x = true ∧ Scalar.positive y = true ∨
        Scalar.positive x = true ∧ Scalar.negative y = true) ∧ Scalar.isZero (x * y) = false := by
  have hpositive : ∀ z : Float, Scalar.positive z = true ↔ Signed .positive z.toModel.unpack :=
    positive_iff
  rw [hpositive, hpositive, negative_iff, negative_iff, negative_iff]
  constructor
  · intro h
    have hne : Scalar.isZero (x * y) = false := by
      refine Bool.eq_false_iff.2 fun hzero => ?_
      obtain ⟨z, hz⟩ := (isZero_iff _).1 hzero
      exact h.ne_zero z hz
    obtain ⟨⟨s, hs⟩, s', hs'⟩ := signed_of_mul h
    have hsame : Signed (s * s') (x * y).toModel.unpack :=
      (hs.mul hs').resolve_left (h.ne_zero _)
    refine ⟨?_, hne⟩
    cases s <;> cases s'
    · exact absurd hsame h.not_both
    · exact .inl ⟨hs, hs'⟩
    · exact .inr ⟨hs, hs'⟩
    · exact absurd hsame h.not_both
  · rintro ⟨hsides, hne⟩
    have hkept : ∀ z, (x * y).toModel.unpack ≠ .zero z := fun z hz =>
      Bool.eq_false_iff.1 hne ((isZero_iff _).2 ⟨z, hz⟩)
    rcases hsides with ⟨hs, hs'⟩ | ⟨hs, hs'⟩
    · exact (hs.mul hs').resolve_left (hkept _)
    · exact (hs.mul hs').resolve_left (hkept _)

/-- What is `2 ^ k` or more in size has its leading place there or above. -/
theorem le_log2_of_le {s : Sign} {m : Nat} {e k : Int} {h : 0 < m}
    (hx : x.toModel.unpack = .finite s m e h) (hle : 2 ^ k ≤ |exact x|) :
    k ≤ (m.log2 : Int) + e := by
  have hsize : |exact x| = m * 2 ^ e := by
    have hpos := mul_zpow_pos h e
    cases s with
    | negative => rw [exact_of_negative hx, abs_neg, abs_of_pos hpos]
    | positive => rw [exact_of_positive hx, abs_of_pos hpos]
  have hlt : (m : Rat) * 2 ^ e < 2 ^ ((m.log2 : Int) + 1 + e) := by
    rw [zpow_add₀ two_ne_zero]
    refine mul_lt_mul_of_pos_right ?_ (zpow_pos two_pos e)
    exact_mod_cast @Nat.lt_log2_self m
  rw [hsize] at hle
  have := (zpow_lt_zpow_iff_right₀ (one_lt_two (α := Rat))).1 (hle.trans_lt hlt)
  omega

/-- A product that is rounded to zero has a factor that is next to nothing. -/
theorem small_of_isZero_mul {s s' : Sign} (hx : Signed s x.toModel.unpack)
    (hy : Signed s' y.toModel.unpack) (hzero : Scalar.isZero (x * y) = true) :
    |exact x| < 2 ^ (-537 : Int) ∨ |exact y| < 2 ^ (-537 : Int) := by
  obtain ⟨z, hz⟩ := (isZero_iff _).1 hzero
  rw [mul_def] at hz
  rcases hx with hu | ⟨m, e, hm, hu⟩ <;> rcases hy with hv | ⟨m', e', hm', hv⟩
  · rw [hu, hv] at hz
    cases (repack_infinity _).symm.trans hz
  · rw [hu, hv] at hz
    cases (repack_infinity _).symm.trans hz
  · rw [hu, hv] at hz
    cases (repack_infinity _).symm.trans hz
  · by_contra hlarge
    rw [not_or, not_lt, not_lt] at hlarge
    have hlog := le_log2_of_le hu hlarge.1
    have hlog' := le_log2_of_le hv hlarge.2
    have hproduct := (log2_mul hm hm').1
    obtain ⟨F, E, hF, hround, hlt, hleast, -, -⟩ :=
      exists_roundWithAccuracy (s * s') (m * m') (e + e') (Nat.mul_pos hm hm') (by omega)
    have hmul : UnpackedFloat.mul .binary64 x.toModel.unpack y.toModel.unpack =
        roundWithAccuracy .binary64 (s * s') (m * m') (e + e') .exact := by
      rw [hu, hv]
      rfl
    rw [hmul, hround] at hz
    exact repack_finite_ne _ z F E hF hlt hleast hz

end Double

end Tradeflow
