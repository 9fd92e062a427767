/-
  Sums of doubles and the sign of zero. Adding zero changes no double but the negative zero, and a
  sum is the negative zero only if its terms are. So a running sum that starts with zero is never
  the negative zero, and terms that are zero leave it as it is.

  A double is the word of a sign, an exponent and a mantissa, and `decode` is what arithmetic makes
  of the three; apart from NaN nothing is lost on the way there and back (`pack_decode`). Rounding
  keeps some of a mantissa that is not zero, as exponents end at the least one (`shift_bounds`).
  Hence `not_isNegZero_add` and `add_zero`; `sub_eq_add_neg` is the other fact about balances that
  is needed.
-/
import Mathlib.Algebra.Group.Nat.Defs
import Tradeflow.Number.Scalar

namespace Tradeflow

namespace Double

open Float.Model Float.Model.UnpackedFloat

/-! ## Words and what they stand for -/

/-- What the parts of a word stand for. -/
def decode (s : Sign) (e : BitVec 11) (m : BitVec 52) : UnpackedFloat :=
  if e = -1#11 then if m = 0#52 then .infinity s else .notANumber
  else if e = 0#11 then
    if h : m = 0#52 then .zero s
    else .finite s m.toNat (-1074) (by simpa [BitVec.toNat_pos, BitVec.pos_iff_ne_zero] using h)
  else .finite s (2 ^ 52 + m.toNat) ((e.toNat : Int) - 1075) (by omega)

/-- Infinite, no number, zero, subnormal and normal. -/
theorem decode_cases (e : BitVec 11) (m : BitVec 52) :
    (e = -1#11 ∧ m = 0#52 ∧ ∀ s, decode s e m = .infinity s) ∨
    (e = -1#11 ∧ m ≠ 0#52 ∧ ∀ s, decode s e m = .notANumber) ∨
    (e = 0#11 ∧ m = 0#52 ∧ ∀ s, decode s e m = .zero s) ∨
    (e = 0#11 ∧ ∃ h : 0 < m.toNat, ∀ s, decode s e m = .finite s m.toNat (-1074) h) ∨
    (0 < e.toNat ∧ e.toNat < 2047 ∧ ∃ h, ∀ s, decode s e m =
      .finite s (2 ^ 52 + m.toNat) ((e.toNat : Int) - 1075) h) := by
  unfold decode
  by_cases hinf : e = -1#11
  · by_cases hm : m = 0#52
    · exact .inl ⟨hinf, hm, fun s => by rw [if_pos hinf, if_pos hm]⟩
    · exact .inr (.inl ⟨hinf, hm, fun s => by rw [if_pos hinf, if_neg hm]⟩)
  · by_cases hsub : e = 0#11
    · by_cases hm : m = 0#52
      · exact .inr (.inr (.inl ⟨hsub, hm, fun s => by rw [if_neg hinf, if_pos hsub, dif_pos hm]⟩))
      · exact .inr (.inr (.inr (.inl ⟨hsub, _, fun s => by
          rw [if_neg hinf, if_pos hsub, dif_neg hm]⟩)))
    · have hne : e.toNat ≠ 2047 := fun he => hinf (BitVec.eq_of_toNat_eq he)
      have hlt : e.toNat < 2048 := e.isLt
      have hpos : e.toNat ≠ 0 := fun he => hsub (BitVec.eq_of_toNat_eq he)
      exact .inr (.inr (.inr (.inr ⟨by omega, by omega, _, fun s => by
        rw [if_neg hinf, if_neg hsub]⟩)))

/-- The word with the given parts. -/
def word (s : Sign) (e : BitVec 11) (m : BitVec 52) : BitVec Format.binary64.numBits :=
  packComponents .binary64 s e m

theorem sign_word (s : Sign) (e : BitVec 11) (m : BitVec 52) :
    Sign.ofBitVec (@unpackSign .binary64 (word s e m)) = s := by
  have hbit : @unpackSign .binary64 (word s e m) = s.toBitVec := by
    apply BitVec.eq_of_getLsbD_eq
    intro i hi
    have hzero : i = 0 := by omega
    subst hzero
    delta unpackSign
    simp only [word, packComponents, BitVec.getLsbD_cast, BitVec.getLsbD_extractLsb,
      BitVec.getLsbD_append]
    simp
  rw [hbit]
  cases s <;> rfl

theorem word_parts (b : BitVec Format.binary64.numBits) :
    word (Sign.ofBitVec (unpackSign b)) (unpackExponent b) (unpackMantissa b) = b := by
  have hsign : ∀ v : BitVec 1, (Sign.ofBitVec v).toBitVec = v := by decide
  unfold word packComponents
  rw [hsign]
  apply BitVec.eq_of_getLsbD_eq
  intro i hi
  delta unpackSign unpackExponent unpackMantissa
  simp only [BitVec.getLsbD_append, BitVec.getLsbD_cast, BitVec.getLsbD_extractLsb]
  by_cases hm : i < 52
  · simp [hm]
  · by_cases he : i - 52 < 11
    · have hindex : 52 + (i - 52) = i := by omega
      simp [hm, he, hindex]
    · have hlt : i < 64 := hi
      have hbit : i - 52 - 11 = 0 := by omega
      have hindex : 63 = i := by omega
      simp [hm, he, hbit, hindex]

theorem exists_word (b : BitVec Format.binary64.numBits) : ∃ s e m, b = word s e m :=
  ⟨_, _, _, (word_parts b).symm⟩

theorem toNat_implicit (m : BitVec 52) : (1#1 ++ m).toNat = 2 ^ 52 + m.toNat := by
  rw [BitVec.toNat_append, ← Nat.shiftLeft_add_eq_or_of_lt m.isLt]
  rfl

theorem finite_congr {s : Sign} {m m' : Nat} {e e' : Int} {h : 0 < m} {h' : 0 < m'} (hm : m = m')
    (he : e = e') : UnpackedFloat.finite s m e h = .finite s m' e' h' := by
  subst hm he
  rfl

theorem unpack_eq_decode_parts (b : BitVec Format.binary64.numBits) :
    UnpackedFloat.unpack .binary64 b =
      decode (Sign.ofBitVec (unpackSign b)) (unpackExponent b) (unpackMantissa b) := by
  have hbias : ((Format.binary64.exponentBias : Nat) : Int) = 1023 := rfl
  unfold UnpackedFloat.unpack decode
  dsimp only
  by_cases hinf : unpackExponent b = -1#11
  · rw [if_pos hinf, if_pos hinf]
  · rw [if_neg hinf, if_neg hinf]
    by_cases hsub : unpackExponent b = 0#11
    · rw [if_pos hsub, if_pos hsub]
      by_cases hzero : unpackMantissa b = 0#52
      · rw [dif_pos hzero, dif_pos hzero]
      · rw [dif_neg hzero, dif_neg hzero]
        refine finite_congr rfl ?_
        rw [hsub, hbias]
        rfl
    · rw [if_neg hsub, if_neg hsub]
      refine finite_congr (toNat_implicit _) ?_
      rw [hbias]
      rfl

theorem unpack_word (s : Sign) (e : BitVec 11) (m : BitVec 52) :
    UnpackedFloat.unpack .binary64 (word s e m) = decode s e m := by
  rw [unpack_eq_decode_parts, sign_word]
  rw [word, unpackExponent_packComponents, unpackMantissa_packComponents]

theorem log2_implicit (m : BitVec 52) : (2 ^ 52 + m.toNat).log2 = 52 := by
  have hm : m.toNat < 2 ^ 52 := m.isLt
  exact (Nat.log2_eq_iff (by omega)).2 ⟨by omega, by omega⟩

/-- The word of a finite number: too large, normal or subnormal. -/
theorem pack_finite (s : Sign) (m : Nat) (e : Int) (h : 0 < m) :
    UnpackedFloat.pack .binary64 (.finite s m e h) =
      if 2048 ≤ (e + 1075).toNat + 1 then word s (-1#11) 0#52
      else if m.log2 + 1 = 53 then word s (BitVec.ofNat 11 (e + 1075).toNat) (BitVec.ofNat 52 m)
      else word s 0#11 (BitVec.ofNat 52 m) := by
  have hbiased : (e + ((1023 : Nat) : Int) + ((52 : Nat) : Int)).toNat = (e + 1075).toNat := by
    omega
  rw [← hbiased]
  rfl

/-- Words other than those of NaN are put together again as they were. -/
theorem pack_decode (s : Sign) (e : BitVec 11) (m : BitVec 52) (h : e = -1#11 → m = 0#52) :
    UnpackedFloat.pack .binary64 (decode s e m) = word s e m := by
  rcases decode_cases e m with ⟨he, hm, hdecode⟩ | ⟨he, hm, -⟩ | ⟨he, hm, hdecode⟩ |
    ⟨he, hm, hdecode⟩ | ⟨hpos, hlt, hm, hdecode⟩
  · rw [hdecode, he, hm]
    rfl
  · exact absurd (h he) hm
  · rw [hdecode, he, hm]
    rfl
  · have hlog : m.toNat.log2 < 52 := (Nat.log2_lt (Nat.ne_of_gt hm)).2 m.isLt
    rw [hdecode, pack_finite, if_neg (by decide), if_neg (by omega), BitVec.ofNat_toNat,
      BitVec.setWidth_eq, he]
  · have hbiased : ((e.toNat : Int) - 1075 + 1075).toNat = e.toNat := by omega
    have hmant : BitVec.ofNat 52 (2 ^ 52 + m.toNat) = m := by
      apply BitVec.eq_of_toNat_eq
      rw [BitVec.toNat_ofNat, Nat.add_mod_left, Nat.mod_eq_of_lt m.isLt]
    rw [hdecode, pack_finite, hbiased, log2_implicit, if_neg (by omega), if_pos rfl, hmant,
      BitVec.ofNat_toNat, BitVec.setWidth_eq]

theorem neg_decode (s : Sign) (e : BitVec 11) (m : BitVec 52) :
    (decode s e m).neg = decode (-s) e m := by
  rcases decode_cases e m with ⟨-, -, hdecode⟩ | ⟨-, -, hdecode⟩ | ⟨-, -, hdecode⟩ |
    ⟨-, hm, hdecode⟩ | ⟨-, -, hm, hdecode⟩
  all_goals
    rw [hdecode, hdecode]
    rfl

theorem model_ext {f g : Float.Model} (h : f.toBits.toBitVec = g.toBits.toBitVec) : f = g := by
  obtain ⟨⟨fbits⟩, _⟩ := f
  obtain ⟨⟨gbits⟩, _⟩ := g
  cases h
  rfl

/-- A double is NaN or the word of its parts. -/
theorem model_cases (f : Float.Model) :
    f = Float.Model.pack .notANumber ∨
      ∃ s e m, (e = -1#11 → m = 0#52) ∧ f.toBits.toBitVec = word s e m := by
  obtain ⟨s, e, m, hword⟩ := exists_word f.toBits.toBitVec
  by_cases hnan : e = -1#11 ∧ m ≠ 0#52
  · left
    have hcanonical := f.valid.eq_packedNaN
    rw [hword, word, unpackExponent_packComponents, unpackMantissa_packComponents] at hcanonical
    exact model_ext (hword.trans (hcanonical hnan.1 hnan.2))
  · right
    exact ⟨s, e, m, fun he => Decidable.of_not_not fun hm => hnan ⟨he, hm⟩, hword⟩

theorem pack_unpack (f : Float.Model) : Float.Model.pack f.unpack = f := by
  rcases model_cases f with hnan | ⟨s, e, m, hregular, hword⟩
  · rw [hnan]
    rfl
  · apply model_ext
    show UnpackedFloat.pack .binary64 (UnpackedFloat.unpack .binary64 f.toBits.toBitVec) = _
    rw [hword, unpack_word, pack_decode s e m hregular]

theorem unpack_neg (f : Float.Model) : (-f).unpack = f.unpack.neg := by
  show UnpackedFloat.unpack .binary64 (UnpackedFloat.pack .binary64 f.unpack.neg) = f.unpack.neg
  rcases model_cases f with hnan | ⟨s, e, m, hregular, hword⟩
  · rw [hnan]
    rfl
  · have hdecode : f.unpack = decode s e m := by
      show UnpackedFloat.unpack .binary64 f.toBits.toBitVec = _
      rw [hword, unpack_word]
    rw [hdecode, neg_decode, pack_decode (-s) e m hregular, unpack_word]

/-! ## Negation -/

theorem unpacked_sub (u v : UnpackedFloat) :
    UnpackedFloat.sub .binary64 u v = UnpackedFloat.add .binary64 u v.neg := by
  have happly : ∀ (s : Sign) (n : Int), (-s).apply n = -s.apply n := by
    intro s n
    cases s
    · exact (Int.neg_neg n).symm
    · rfl
  cases u <;> cases v <;> try rfl
  unfold UnpackedFloat.sub UnpackedFloat.add UnpackedFloat.neg
  dsimp only
  rw [happly, Int.sub_eq_add_neg]

theorem add_def (x y : Float) :
    x + y = .ofModel (.pack (UnpackedFloat.add .binary64 x.toModel.unpack y.toModel.unpack)) := rfl

protected theorem sub_eq_add_neg (x y : Float) : x - y = x + -y := by
  have hneg : (-y).toModel.unpack = y.toModel.unpack.neg := unpack_neg y.toModel
  rw [add_def, hneg, ← unpacked_sub]
  rfl

/-! ## Rounding -/

theorem mantissa_shift (em : ExtendedMantissa) (k : Nat) :
    (em >>> k).mantissa = em.mantissa / 2 ^ k := by
  induction k with
  | zero => exact (Nat.div_one _).symm
  | succ k ih =>
    show (em >>> k).mantissa / 2 = _
    rw [ih, Nat.div_div_eq_div_mul, Nat.pow_succ]

theorem le_roundedMantissa (em : ExtendedMantissa) : em.mantissa ≤ em.roundedMantissa := by
  obtain ⟨m, r, s⟩ := em
  cases r <;> cases s <;>
    simp [ExtendedMantissa.roundedMantissa, ExtendedMantissa.accuracy, Accuracy.roundToNearestEven]

theorem roundedMantissa_le (em : ExtendedMantissa) : em.roundedMantissa ≤ em.mantissa + 1 := by
  obtain ⟨m, r, s⟩ := em
  cases r <;> cases s <;>
    simp [ExtendedMantissa.roundedMantissa, ExtendedMantissa.accuracy, Accuracy.roundToNearestEven]
  omega

/-- Moving a mantissa to a larger exponent takes off places below its leading one, so the exponent of
the leading one stays. -/
theorem log2_shift {M k : Nat} (h : k ≤ M.log2) (hM : 0 < M) :
    0 < M / 2 ^ k ∧ (M / 2 ^ k).log2 + k = M.log2 := by
  have hlow : 2 ^ (M.log2 - k) * 2 ^ k ≤ M := by
    rw [← Nat.pow_add, Nat.sub_add_cancel h]
    exact Nat.log2_self_le (by omega)
  have hhigh : M < 2 ^ k * 2 ^ (M.log2 - k + 1) := by
    rw [← Nat.pow_add, show k + (M.log2 - k + 1) = M.log2 + 1 by omega]
    exact Nat.lt_log2_self
  have hle : 2 ^ (M.log2 - k) ≤ M / 2 ^ k := (Nat.le_div_iff_mul_le (Nat.two_pow_pos k)).2 hlow
  have hpos : 0 < M / 2 ^ k := Nat.lt_of_lt_of_le (Nat.two_pow_pos _) hle
  have hlog : (M / 2 ^ k).log2 = M.log2 - k :=
    (Nat.log2_eq_iff (by omega)).2 ⟨hle, Nat.div_lt_of_lt_mul hhigh⟩
  exact ⟨hpos, by omega⟩

theorem log2_shiftLeft {M : Nat} (hM : 0 < M) (k : Nat) : (M <<< k).log2 = M.log2 + k := by
  rw [Nat.shiftLeft_eq]
  have hpos := Nat.mul_pos hM (Nat.two_pow_pos k)
  refine (Nat.log2_eq_iff (by omega)).2 ⟨?_, ?_⟩
  · rw [Nat.pow_add]
    exact Nat.mul_le_mul_right _ (Nat.log2_self_le (by omega))
  · rw [Nat.add_right_comm, Nat.pow_add]
    exact Nat.mul_lt_mul_of_pos_right Nat.lt_log2_self (Nat.two_pow_pos k)

/-- A mantissa is moved to the exponent that suits it and keeps its leading one, as exponents end at
the least one. -/
theorem shift_bounds (M : Nat) (E : Int) (hM : 0 < M) (hE : -1074 ≤ M.log2 + E) :
    ∃ em E', shiftToTargetExponent .binary64 M E .exact = (em, E') ∧ 0 < em.mantissa ∧
      em.mantissa < 2 ^ 53 ∧ -1074 ≤ E' ∧ (em.mantissa.log2 : Int) + E' = M.log2 + E ∧
      E' ≤ max E (max (M.log2 + E - 52) (-1074)) := by
  have htarget : Format.binary64.targetExponent (totalExponent M E) =
      max ((M.log2 : Int) + 1 + E - 53) (-1074) := rfl
  rw [shiftToTargetExponent, shiftToExponent, htarget]
  generalize hk : (max ((M.log2 : Int) + 1 + E - 53) (-1074) - E).toNat = k
  refine ⟨_, _, rfl, ?_⟩
  rw [mantissa_shift]
  have hkept : k ≤ M.log2 := by omega
  obtain ⟨hpos, hlog⟩ := log2_shift hkept hM
  have hlt : M / 2 ^ k < 2 ^ 53 := (Nat.log2_lt (by omega)).1 (by omega)
  refine ⟨hpos, hlt, ?_⟩
  show -1074 ≤ E + k ∧ ((M / 2 ^ k).log2 : Int) + (E + k) = M.log2 + E ∧ E + k ≤ _
  omega

/-- Rounding a mantissa up adds one place at most. -/
theorem log2_roundedMantissa (em : ExtendedMantissa) (h : 0 < em.mantissa) :
    em.mantissa.log2 ≤ em.roundedMantissa.log2 ∧
      em.roundedMantissa.log2 ≤ em.mantissa.log2 + 1 := by
  have hlow := le_roundedMantissa em
  have hhigh := roundedMantissa_le em
  have hself := Nat.log2_self_le (Nat.ne_of_gt h)
  have hnext := @Nat.lt_log2_self em.mantissa
  have hle : em.mantissa.log2 ≤ em.roundedMantissa.log2 :=
    (Nat.le_log2 (by omega)).2 (Nat.le_trans hself hlow)
  have hlt : em.roundedMantissa < 2 ^ (em.mantissa.log2 + 2) := by
    rw [Nat.pow_succ]
    omega
  exact ⟨hle, Nat.le_of_lt_succ ((Nat.log2_lt (by omega)).2 hlt)⟩

/-- Rounding moves a mantissa twice, and rounds it up or down in between. -/
theorem roundWithAccuracy_eq (s : Sign) {M : Nat} {E E₁ E₂ : Int} {accuracy : Accuracy}
    {first last : ExtendedMantissa}
    (hfirst : shiftToTargetExponent .binary64 M E accuracy = (first, E₁))
    (hlast : shiftToTargetExponent .binary64 first.roundedMantissa E₁ .exact = (last, E₂))
    (hpos : 0 < last.mantissa) :
    roundWithAccuracy .binary64 s M E accuracy = .finite s last.mantissa E₂ hpos := by
  obtain ⟨rfl, rfl⟩ := Prod.ext_iff.1 hfirst.symm
  obtain ⟨rfl, rfl⟩ := Prod.ext_iff.1 hlast.symm
  exact dif_neg (Nat.ne_of_gt hpos)

/-- The leading one stays or goes up by one place. -/
theorem exists_roundWithAccuracy (s : Sign) (M : Nat) (E : Int) (hM : 0 < M)
    (hE : -1074 ≤ M.log2 + E) :
    ∃ F E' h, roundWithAccuracy .binary64 s M E .exact = .finite s F E' h ∧ F < 2 ^ 53 ∧
      -1074 ≤ E' ∧ (F.log2 : Int) + E' ≤ M.log2 + E + 1 ∧
      E' ≤ max E (max (M.log2 + E - 51) (-1074)) := by
  obtain ⟨first, E₁, hfirst, hpos, -, hleast, hlog, hmost⟩ := shift_bounds M E hM hE
  have hrounded := Nat.lt_of_lt_of_le hpos (le_roundedMantissa first)
  have hplaces := log2_roundedMantissa first hpos
  obtain ⟨last, E₂, hlast, hpos', hlt, hleast', hlog', hmost'⟩ :=
    shift_bounds first.roundedMantissa E₁ hrounded (by omega)
  exact ⟨_, _, hpos', roundWithAccuracy_eq s hfirst hlast hpos', hlt, hleast', by omega, by omega⟩

theorem exists_round (s : Sign) (M : Nat) (E : Int) (hM : 0 < M) (hE : -1074 ≤ M.log2 + E) :
    ∃ F E' h, UnpackedFloat.round .binary64 s M E = .finite s F E' h ∧ F < 2 ^ 53 ∧ -1074 ≤ E' ∧
      (F.log2 : Int) + E' ≤ M.log2 + E + 1 ∧ E' ≤ max (M.log2 + E - 51) (-1074) := by
  have htarget : Format.binary64.targetExponent (totalExponent M E) =
      max ((M.log2 : Int) + 1 + E - 53) (-1074) := rfl
  generalize hk : (E - Format.binary64.targetExponent (totalExponent M E)).toNat = k
  have hround : UnpackedFloat.round .binary64 s M E =
      roundWithAccuracy .binary64 s (M <<< k) (E - k) .exact := by
    rw [← hk]
    rfl
  rw [htarget] at hk
  have hshifted : 0 < M <<< k := by
    rw [Nat.shiftLeft_eq]
    exact Nat.mul_pos hM (Nat.two_pow_pos k)
  have hlog := log2_shiftLeft hM k
  obtain ⟨F, E', hF, hfinite, hlt, hleast, hhigh, hmax⟩ :=
    exists_roundWithAccuracy s (M <<< k) (E - k) hshifted (by omega)
  exact ⟨F, E', hF, hround.trans hfinite, hlt, hleast, by omega, by omega⟩

/-! ## When a sum is the negative zero -/

theorem decode_ne_zero (s s' : Sign) (e : BitVec 11) (m : BitVec 52) (h : e ≠ 0#11 ∨ m ≠ 0#52) :
    decode s e m ≠ .zero s' := by
  intro hzero
  rcases decode_cases e m with ⟨-, -, hdecode⟩ | ⟨-, -, hdecode⟩ | ⟨he, hm, -⟩ |
    ⟨-, hm, hdecode⟩ | ⟨-, -, hm, hdecode⟩
  · cases (hdecode s).symm.trans hzero
  · cases (hdecode s).symm.trans hzero
  · exact h.elim (absurd he) (absurd hm)
  · cases (hdecode s).symm.trans hzero
  · cases (hdecode s).symm.trans hzero

theorem exponent_of_unpack {f : Float.Model} {s : Sign} {m : Nat} {e : Int} {h : 0 < m}
    (hf : f.unpack = .finite s m e h) : -1074 ≤ e := by
  obtain ⟨s', e', m', hdecode⟩ : ∃ s e m, f.unpack = decode s e m :=
    ⟨_, _, _, unpack_eq_decode_parts f.toBits.toBitVec⟩
  rw [hdecode] at hf
  rcases decode_cases e' m' with ⟨-, -, hcase⟩ | ⟨-, -, hcase⟩ | ⟨-, -, hcase⟩ | ⟨-, hm, hcase⟩ |
    ⟨hpos, -, hm, hcase⟩
  · cases (hcase s').symm.trans hf
  · cases (hcase s').symm.trans hf
  · cases (hcase s').symm.trans hf
  · cases (hcase s').symm.trans hf
    exact Int.le_refl _
  · cases (hcase s').symm.trans hf
    omega

/-- What a number is once it was made a word. -/
def repack (u : UnpackedFloat) : UnpackedFloat :=
  UnpackedFloat.unpack .binary64 (UnpackedFloat.pack .binary64 u)

theorem repack_notANumber : repack .notANumber = .notANumber := rfl

theorem repack_infinity (s : Sign) : repack (.infinity s) = .infinity s := by
  cases s <;> rfl

theorem repack_zero (s : Sign) : repack (.zero s) = .zero s := by
  cases s <;> rfl

theorem repack_unpack (f : Float.Model) : repack f.unpack = f.unpack := by
  show (Float.Model.pack f.unpack).unpack = f.unpack
  rw [pack_unpack]

theorem repack_finite_ne (s s' : Sign) (F : Nat) (E : Int) (hF : 0 < F) (hlt : F < 2 ^ 53)
    (hE : -1074 ≤ E) : repack (.finite s F E hF) ≠ .zero s' := by
  rw [repack, pack_finite]
  split
  case isTrue =>
    rw [unpack_word]
    exact decode_ne_zero _ _ _ _ (.inl (by decide))
  case isFalse hfits =>
    split
    case isTrue hnormal =>
      rw [unpack_word]
      refine decode_ne_zero _ _ _ _ (.inl fun hzero => ?_)
      have := congrArg BitVec.toNat hzero
      rw [BitVec.toNat_ofNat, Nat.mod_eq_of_lt (by omega)] at this
      change _ = 0 at this
      omega
    case isFalse hsub =>
      rw [unpack_word]
      refine decode_ne_zero _ _ _ _ (.inr fun hzero => ?_)
      have hlog : F.log2 < 53 := (Nat.log2_lt (by omega)).2 hlt
      have hsmall : F < 2 ^ 52 := (Nat.log2_lt (by omega)).1 (by omega)
      have := congrArg BitVec.toNat hzero
      rw [BitVec.toNat_ofNat, Nat.mod_eq_of_lt hsmall] at this
      change _ = 0 at this
      omega

theorem repack_round_ne (s s' : Sign) (M : Nat) (E : Int) (hM : 0 < M) (hE : -1074 ≤ M.log2 + E) :
    repack (UnpackedFloat.round .binary64 s M E) ≠ .zero s' := by
  obtain ⟨F, E', hF, hround, hlt, hE', -, -⟩ := exists_round s M E hM hE
  rw [hround]
  exact repack_finite_ne s s' F E' hF hlt hE'

/-- Rounding does not lose what is not zero, and zero itself is positive. -/
theorem repack_normalize_ne (M E : Int) (hE : -1074 ≤ E) :
    repack (UnpackedFloat.normalize .binary64 M E .positive) ≠ .zero .negative := by
  intro h
  cases hsign : compare M 0 with
  | lt =>
    have hM := Int.compare_eq_lt.1 hsign
    rw [UnpackedFloat.normalize, hsign] at h
    exact repack_round_ne _ _ _ _ (by omega) (by omega) h
  | eq =>
    rw [UnpackedFloat.normalize, hsign] at h
    cases (repack_zero .positive).symm.trans h
  | gt =>
    have hM := Int.compare_eq_gt.1 hsign
    rw [UnpackedFloat.normalize, hsign] at h
    exact repack_round_ne _ _ _ _ (by omega) (by omega) h

/-- The sum of two numbers: no number, infinite, a zero, one of them, or rounded. -/
theorem add_cases (u v : UnpackedFloat) :
    UnpackedFloat.add .binary64 u v = .notANumber ∨
    (∃ s, UnpackedFloat.add .binary64 u v = .infinity s) ∨
    (∃ s s', u = .zero s ∧
      UnpackedFloat.add .binary64 u v = if s == s' then .zero s else .zero .positive) ∨
    (∃ s m e h, (u = .finite s m e h ∨ v = .finite s m e h) ∧
      UnpackedFloat.add .binary64 u v = .finite s m e h) ∨
    ∃ s m e h s' m' e' h' M, u = .finite s m e h ∧ v = .finite s' m' e' h' ∧
      UnpackedFloat.add .binary64 u v =
        UnpackedFloat.normalize .binary64 M (min e e') .positive := by
  cases u with
  | notANumber => exact .inl (by cases v <;> rfl)
  | infinity s =>
    cases v with
    | notANumber => exact .inl rfl
    | infinity s' =>
      by_cases hs : (s == s') = true
      · exact .inr (.inl ⟨s, if_pos hs⟩)
      · exact .inl (if_neg hs)
    | zero s' => exact .inr (.inl ⟨s, rfl⟩)
    | finite s' m e h => exact .inr (.inl ⟨s, rfl⟩)
  | zero s =>
    cases v with
    | notANumber => exact .inl rfl
    | infinity s' => exact .inr (.inl ⟨s', rfl⟩)
    | zero s' => exact .inr (.inr (.inl ⟨s, s', rfl, rfl⟩))
    | finite s' m e h => exact .inr (.inr (.inr (.inl ⟨s', m, e, h, .inr rfl, rfl⟩)))
  | finite s m e h =>
    cases v with
    | notANumber => exact .inl rfl
    | infinity s' => exact .inr (.inl ⟨s', rfl⟩)
    | zero s' => exact .inr (.inr (.inr (.inl ⟨s, m, e, h, .inl rfl, rfl⟩)))
    | finite s' m' e' h' =>
      exact .inr (.inr (.inr (.inr ⟨s, m, e, h, s', m', e', h', _, rfl, rfl, rfl⟩)))

/-- The first term of a sum that is the negative zero. -/
theorem unpack_eq_negZero {f g : Float.Model}
    (h : repack (UnpackedFloat.add .binary64 f.unpack g.unpack) = .zero .negative) :
    f.unpack = .zero .negative := by
  rcases add_cases f.unpack g.unpack with hsum | ⟨s, hsum⟩ | ⟨s, s', hf, hsum⟩ |
    ⟨s, m, e, hm, hterm, hsum⟩ | ⟨s, m, e, hm, s', m', e', hm', M, hf, hg, hsum⟩
  · rw [hsum, repack_notANumber] at h
    cases h
  · rw [hsum, repack_infinity] at h
    cases h
  · rw [hsum] at h
    split at h
    · rw [repack_zero] at h
      rw [hf, h]
    · rw [repack_zero] at h
      cases h
  · have hkept : repack (.finite s m e hm) = .finite s m e hm := by
      rcases hterm with hf | hg
      · rw [← hf, repack_unpack]
      · rw [← hg, repack_unpack]
    rw [hsum, hkept] at h
    cases h
  · have he := exponent_of_unpack hf
    have he' := exponent_of_unpack hg
    rw [hsum] at h
    exact absurd h (repack_normalize_ne M _ (by omega))

/-! ## Sums of doubles -/

/-- The negative zero. -/
def IsNegZero (x : Float) : Prop := x.toModel.unpack = .zero .negative

theorem not_isNegZero_zero : ¬ IsNegZero (Float.ofNat 0) := by
  intro h
  cases h

theorem not_isNegZero_add {x : Float} (y : Float) (h : ¬ IsNegZero x) : ¬ IsNegZero (x + y) :=
  fun hsum => h (unpack_eq_negZero hsum)

protected theorem add_zero {x : Float} (h : ¬ IsNegZero x) : x + Float.ofNat 0 = x := by
  have hsum : UnpackedFloat.add .binary64 x.toModel.unpack (.zero .positive) =
      x.toModel.unpack := by
    cases hx : x.toModel.unpack with
    | zero s =>
      cases s with
      | positive => rfl
      | negative => exact absurd hx h
    | notANumber | infinity | finite => rfl
  have hzero : (Float.ofNat 0).toModel.unpack = .zero .positive := rfl
  rw [add_def, hzero, hsum, pack_unpack]

end Double
end Tradeflow
