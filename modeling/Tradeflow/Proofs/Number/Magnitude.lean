/-
  The size of doubles, by powers of two. `Within k` says that a double is finite and less than `2 ^ k`
  in size. `Within.add`, `Within.mul`: sums and products of such doubles are finite too as long as the
  powers stay below the largest one, for rounding adds one place at most (`exists_round`).
  `mul_ne_zero`: what is multiplied by one or more does not vanish. `isFinite_add_left`,
  `isFinite_add_right`: a sum is never finite again once a term is not.
-/
import Tradeflow.Proofs.Number.Shortest
import Tradeflow.Proofs.Number.Rational

namespace Tradeflow

namespace Double

open Float.Model Float.Model.UnpackedFloat

/-! ## The parts of a double -/

/-- What is seen of a double that stands for this. -/
def seen : UnpackedFloat → DoubleView
  | .notANumber => .nan
  | .infinity s => .infinite (s == .negative)
  | .zero s => .finite (s == .negative) 0 leastExponent
  | .finite s m e _ => .finite (s == .negative) m e

theorem toNat_word (s : Sign) (e : BitVec 11) (m : BitVec 52) :
    (word s e m).toNat = (s.toBitVec.toNat * 2 ^ 11 + e.toNat) * 2 ^ 52 + m.toNat := by
  have happend : (word s e m).toNat = (s.toBitVec ++ e ++ m).toNat := rfl
  rw [happend, BitVec.toNat_append, BitVec.toNat_append, ← Nat.shiftLeft_add_eq_or_of_lt m.isLt,
    ← Nat.shiftLeft_add_eq_or_of_lt e.isLt, Nat.shiftLeft_eq, Nat.shiftLeft_eq]

/-- What is seen of a double is what its word stands for. -/
theorem view_eq_seen (x : Float) : view x = seen x.toModel.unpack := by
  obtain ⟨s, e, m, hword⟩ := exists_word x.toModel.toBits.toBitVec
  have hunpack : x.toModel.unpack = decode s e m := by
    rw [← unpack_word, ← hword]
    rfl
  have hbits : x.toBits.toNat = (s.toBitVec.toNat * 2 ^ 11 + e.toNat) * 2 ^ 52 + m.toNat := by
    rw [← toNat_word, ← hword]
    rfl
  have hm : m.toNat < 2 ^ 52 := m.isLt
  have he : e.toNat < 2048 := e.isLt
  have hfraction : x.toBits.toNat % pow2 52 = m.toNat := by
    rw [hbits, show pow2 52 = 2 ^ 52 from rfl]
    omega
  have hbiased : x.toBits.toNat / pow2 52 % 2048 = e.toNat := by
    rw [hbits, show pow2 52 = 2 ^ 52 from rfl]
    omega
  have hsign : decide (x.toBits.toNat / pow2 63 % 2 = 1) = (s == .negative) := by
    rw [hbits]
    cases s with
    | negative =>
      refine decide_eq_true ?_
      show ((1 * 2 ^ 11 + e.toNat) * 2 ^ 52 + m.toNat) / 2 ^ 63 % 2 = 1
      omega
    | positive =>
      refine decide_eq_false ?_
      show ¬ ((0 * 2 ^ 11 + e.toNat) * 2 ^ 52 + m.toNat) / 2 ^ 63 % 2 = 1
      omega
  rw [hunpack, view, hsign, hfraction, hbiased]
  rcases decode_cases e m with ⟨he, hm, hdecode⟩ | ⟨he, hm, hdecode⟩ | ⟨he, hm, hdecode⟩ |
    ⟨he, hm, hdecode⟩ | ⟨hpos, hlt, hm, hdecode⟩
  · rw [hdecode, he, hm]
    rfl
  · have hne : m.toNat ≠ 0 := fun hzero => hm (BitVec.eq_of_toNat_eq hzero)
    rw [hdecode, he]
    exact if_neg hne
  · rw [hdecode, he, hm]
    rfl
  · rw [hdecode, he]
    rfl
  · rw [hdecode, if_neg (by omega), if_neg (by omega), Nat.add_comm]
    rfl

theorem isFinite_iff (x : Float) :
    isFinite x = true ↔
      (∃ s, x.toModel.unpack = .zero s) ∨ ∃ s m e h, x.toModel.unpack = .finite s m e h := by
  rw [isFinite, view_eq_seen]
  constructor
  · intro h
    cases hx : x.toModel.unpack with
    | notANumber | infinity =>
      rw [hx] at h
      cases h
    | zero s => exact .inl ⟨s, rfl⟩
    | finite s m e hm => exact .inr ⟨s, m, e, hm, rfl⟩
  · rintro (⟨s, hx⟩ | ⟨s, m, e, hm, hx⟩)
    all_goals
      rw [hx]
      rfl

/-- The mantissa of a finite double is full, except at the least exponent. -/
theorem canonical_of_unpack {x : Float} {s : Sign} {m : Nat} {e : Int} {h : 0 < m}
    (hx : x.toModel.unpack = .finite s m e h) : Canonical m e :=
  (assemble_view ((view_eq_seen x).trans (congrArg seen hx))).1

/-! ## Bounds -/

/-- Finite, and less than `2 ^ k` in size. -/
def Below (k : Int) : UnpackedFloat → Prop
  | .zero _ => True
  | .finite _ m e _ => (m.log2 : Int) + e < k
  | _ => False

instance (k : Int) : DecidablePred (Below k)
  | .zero _ => isTrue trivial
  | .finite _ m e _ => inferInstanceAs (Decidable ((m.log2 : Int) + e < k))
  | .infinity _ | .notANumber => isFalse id

/-- A double that is finite and less than `2 ^ k` in size. -/
def Within (k : Int) (x : Float) : Prop := Below k x.toModel.unpack

instance (k : Int) : DecidablePred (Within k) :=
  fun x => inferInstanceAs (Decidable (Below k x.toModel.unpack))

/-- At least one, and less than `2 ^ k`, in size. -/
def Spans (k : Int) : UnpackedFloat → Prop
  | .finite _ m e _ => 0 ≤ (m.log2 : Int) + e ∧ (m.log2 : Int) + e < k
  | _ => False

instance (k : Int) : DecidablePred (Spans k)
  | .finite _ m e _ => inferInstanceAs (Decidable (0 ≤ (m.log2 : Int) + e ∧ (m.log2 : Int) + e < k))
  | .zero _ | .infinity _ | .notANumber => isFalse id

/-- A double that is at least one, and less than `2 ^ k`, in size. -/
def OneTo (k : Int) (x : Float) : Prop := Spans k x.toModel.unpack

instance (k : Int) : DecidablePred (OneTo k) :=
  fun x => inferInstanceAs (Decidable (Spans k x.toModel.unpack))

theorem OneTo.cases {k : Int} {x : Float} (hx : OneTo k x) :
    ∃ s m e h, x.toModel.unpack = .finite s m e h ∧ 0 ≤ (m.log2 : Int) + e ∧
      (m.log2 : Int) + e < k := by
  unfold OneTo at hx
  cases hu : x.toModel.unpack with
  | notANumber | infinity | zero =>
    rw [hu] at hx
    exact hx.elim
  | finite s m e h =>
    rw [hu] at hx
    exact ⟨s, m, e, h, rfl, hx⟩

theorem Below.mono {j k : Int} (h : j ≤ k) {u : UnpackedFloat} (hu : Below j u) : Below k u := by
  cases u with
  | notANumber | infinity => exact hu
  | zero => trivial
  | finite s m e hm => exact Int.lt_of_lt_of_le hu h

theorem Below.cases {k : Int} {u : UnpackedFloat} (hu : Below k u) :
    (∃ s, u = .zero s) ∨ ∃ s m e h, u = .finite s m e h ∧ (m.log2 : Int) + e < k := by
  cases u with
  | notANumber | infinity => exact hu.elim
  | zero s => exact .inl ⟨s, rfl⟩
  | finite s m e h => exact .inr ⟨s, m, e, h, rfl, hu⟩

theorem Within.isFinite {k : Int} {x : Float} (h : Within k x) : isFinite x = true := by
  rw [isFinite_iff]
  exact h.cases.imp_right fun ⟨s, m, e, hm, hx, _⟩ => ⟨s, m, e, hm, hx⟩

/-! ## Words of finite numbers -/

theorem repack_normal (s : Sign) (m : Nat) (e : Int) (hm : 0 < m) (hlog : m.log2 = 52)
    (hleast : -1074 ≤ e) (hmost : e ≤ 971) :
    repack (.finite s m e hm) = .finite s m e hm := by
  have hlow : 2 ^ 52 ≤ m := hlog ▸ Nat.log2_self_le (Nat.ne_of_gt hm)
  have hhigh : m < 2 ^ 53 := (Nat.log2_lt (Nat.ne_of_gt hm)).1 (by omega)
  have hbiased : (BitVec.ofNat 11 (e + 1075).toNat).toNat = (e + 1075).toNat :=
    (BitVec.toNat_ofNat _ _).trans (Nat.mod_eq_of_lt (by omega))
  have hfraction : (BitVec.ofNat 52 m).toNat = m - 2 ^ 52 := by
    rw [BitVec.toNat_ofNat]
    omega
  have hinf : BitVec.ofNat 11 (e + 1075).toNat ≠ -1#11 := by
    intro h
    have h2047 : (-1#11).toNat = 2047 := rfl
    rw [← h, hbiased] at h2047
    omega
  have hzero : BitVec.ofNat 11 (e + 1075).toNat ≠ 0#11 := by
    intro h
    have h0 : (0#11).toNat = 0 := rfl
    rw [← h, hbiased] at h0
    omega
  rw [repack, pack_finite, if_neg (by omega), if_pos (by omega), unpack_word, decode, if_neg hinf,
    if_neg hzero]
  exact finite_congr (by omega) (by omega)

theorem repack_subnormal (s : Sign) (m : Nat) (e : Int) (hm : 0 < m) (hlog : m.log2 < 52)
    (hmost : e ≤ 971) : repack (.finite s m e hm) = .finite s m (-1074) hm := by
  have hhigh : m < 2 ^ 52 := (Nat.log2_lt (Nat.ne_of_gt hm)).1 hlog
  have hfraction : (BitVec.ofNat 52 m).toNat = m :=
    (BitVec.toNat_ofNat _ _).trans (Nat.mod_eq_of_lt hhigh)
  have hzero : BitVec.ofNat 52 m ≠ 0#52 := by
    intro h
    rw [h] at hfraction
    exact absurd hfraction.symm (Nat.ne_of_gt hm)
  rw [repack, pack_finite, if_neg (by omega), if_neg (by omega), unpack_word, decode,
    if_neg (by decide), if_pos rfl, dif_neg hzero]
  exact finite_congr hfraction rfl

/-- A mantissa that fits stays below the bound when it becomes a word. -/
theorem below_repack {k : Int} (s : Sign) {m : Nat} {e : Int} (hm : 0 < m) (hlt : m < 2 ^ 53)
    (hleast : -1074 ≤ e) (hmost : e ≤ 971) (h : (m.log2 : Int) + e < k) :
    Below k (repack (.finite s m e hm)) := by
  have hlog : m.log2 < 53 := (Nat.log2_lt (by omega)).2 hlt
  rcases Nat.lt_or_eq_of_le (Nat.le_of_lt_succ hlog) with hsub | hnormal
  · rw [repack_subnormal s m e hm hsub hmost]
    show (m.log2 : Int) + -1074 < k
    omega
  · rw [repack_normal s m e hm hnormal hleast hmost]
    exact h

/-! ## Sums and products -/

theorem below_round {k : Int} (s : Sign) {M : Nat} {E : Int} (hM : 0 < M)
    (hleast : -1074 ≤ (M.log2 : Int) + E) (h : (M.log2 : Int) + E < k) (hk : k ≤ 1023) :
    Below (k + 1) (repack (UnpackedFloat.round .binary64 s M E)) := by
  obtain ⟨F, E', hF, hround, hlt, hleast', hlog, hmax⟩ := exists_round s M E hM hleast
  rw [hround]
  exact below_repack s hF hlt hleast' (by omega) (by omega)

theorem below_normalize {k : Int} {M E : Int} (hE : -1074 ≤ E)
    (h : M ≠ 0 → (M.natAbs.log2 : Int) + E < k) (hk : k ≤ 1023) :
    Below (k + 1) (repack (UnpackedFloat.normalize .binary64 M E .positive)) := by
  have hround : ∀ s (n : Nat), M ≠ 0 → M.natAbs = n →
      Below (k + 1) (repack (UnpackedFloat.round .binary64 s n E)) := by
    rintro s n hM rfl
    exact below_round s (Int.natAbs_pos.2 hM) (by omega) (h hM) hk
  cases hsign : compare M 0 with
  | lt =>
    have hM := Int.compare_eq_lt.1 hsign
    rw [UnpackedFloat.normalize, hsign]
    exact hround .negative _ (by omega) (by omega)
  | eq =>
    rw [UnpackedFloat.normalize, hsign]
    rw [repack_zero]
    trivial
  | gt =>
    have hM := Int.compare_eq_gt.1 hsign
    rw [UnpackedFloat.normalize, hsign]
    exact hround .positive _ (by omega) (by omega)

theorem natAbs_apply (s : Sign) (n : Nat) : (s.apply (n : Int)).natAbs = n := by
  cases s
  · exact Int.natAbs_neg _
  · rfl

/-- A sum has at most one place more than the longer of its terms. -/
theorem log2_natAbs_add (s s' : Sign) {a b n : Nat} (ha : a < 2 ^ n) (hb : b < 2 ^ n)
    (hsum : s.apply (a : Int) + s'.apply (b : Int) ≠ 0) :
    (s.apply (a : Int) + s'.apply (b : Int)).natAbs.log2 < n + 1 := by
  have hle := Int.natAbs_add_le (s.apply (a : Int)) (s'.apply (b : Int))
  rw [natAbs_apply, natAbs_apply] at hle
  refine (Nat.log2_lt (Int.natAbs_ne_zero.2 hsum)).2 ?_
  rw [Nat.pow_succ]
  omega

/-- Both terms at an exponent that neither is below have as many places as the bound leaves. -/
theorem shiftLeft_lt {k i j : Int} {m : Nat} (hm : 0 < m) (hj : j ≤ i)
    (h : (m.log2 : Int) + i < k) : m <<< (i - j).toNat < 2 ^ (k - j).toNat := by
  have hlog := log2_shiftLeft hm (i - j).toNat
  have hne : m <<< (i - j).toNat ≠ 0 := by
    rw [Nat.shiftLeft_eq]
    exact Nat.ne_of_gt (Nat.mul_pos hm (Nat.two_pow_pos _))
  exact (Nat.log2_lt hne).1 (by omega)

theorem below_add_finite {k : Int} (s s' : Sign) {m m' : Nat} {e e' : Int} (h : 0 < m)
    (h' : 0 < m') (he : -1074 ≤ e) (he' : -1074 ≤ e') (hm : (m.log2 : Int) + e < k)
    (hm' : (m'.log2 : Int) + e' < k) (hk : k ≤ 1022) :
    Below (k + 2)
      (repack (UnpackedFloat.add .binary64 (.finite s m e h) (.finite s' m' e' h'))) := by
  have hadd : UnpackedFloat.add .binary64 (.finite s m e h) (.finite s' m' e' h') =
      UnpackedFloat.normalize .binary64 (s.apply ((m <<< (e - min e e').toNat : Nat) : Int) +
        s'.apply ((m' <<< (e' - min e e').toNat : Nat) : Int)) (min e e') .positive := rfl
  have hfits := shiftLeft_lt h (Int.min_le_left e e') hm
  have hfits' := shiftLeft_lt h' (Int.min_le_right e e') hm'
  rw [hadd, show k + 2 = k + 1 + 1 by omega]
  refine below_normalize (by omega) (fun hsum => ?_) (by omega)
  have hplaces := log2_natAbs_add s s' hfits hfits' hsum
  omega

theorem below_add {k : Int} {f g : Float.Model} (hf : Below k f.unpack) (hg : Below k g.unpack)
    (hk : k ≤ 1022) :
    Below (k + 2) (repack (UnpackedFloat.add .binary64 f.unpack g.unpack)) := by
  have hkept : ∀ h : Float.Model, Below k h.unpack → Below (k + 2) (repack h.unpack) := by
    intro h hh
    rw [repack_unpack]
    exact hh.mono (by omega)
  rcases hf.cases with ⟨s, hu⟩ | ⟨s, m, e, h, hu, hm⟩
  · rcases hg.cases with ⟨s', hv⟩ | ⟨s', m', e', h', hv, -⟩
    · rw [hu, hv]
      show Below (k + 2) (repack (if s == s' then .zero s else .zero .positive))
      split
      all_goals
        rw [repack_zero]
        trivial
    · have hadd : UnpackedFloat.add .binary64 f.unpack g.unpack = g.unpack := by
        rw [hu, hv]
        rfl
      rw [hadd]
      exact hkept g hg
  · rcases hg.cases with ⟨s', hv⟩ | ⟨s', m', e', h', hv, hm'⟩
    · have hadd : UnpackedFloat.add .binary64 f.unpack g.unpack = f.unpack := by
        rw [hu, hv]
        rfl
      rw [hadd]
      exact hkept f hf
    · rw [hu, hv]
      exact below_add_finite s s' h h' (exponent_of_unpack hu) (exponent_of_unpack hv) hm hm' hk

theorem Within.add {k : Int} {x y : Float} (hx : Within k x) (hy : Within k y) (hk : k ≤ 1022) :
    Within (k + 2) (x + y) :=
  below_add hx hy hk

theorem Within.neg {k : Int} {x : Float} (hx : Within k x) : Within k (-x) := by
  have hneg : (-x).toModel.unpack = x.toModel.unpack.neg := unpack_neg x.toModel
  unfold Within at hx ⊢
  rw [hneg]
  cases hu : x.toModel.unpack <;> rw [hu] at hx <;> exact hx

theorem Within.sub {k : Int} {x y : Float} (hx : Within k x) (hy : Within k y) (hk : k ≤ 1022) :
    Within (k + 2) (x - y) := by
  rw [Double.sub_eq_add_neg]
  exact hx.add hy.neg hk

/-- The product of mantissas has as many places as both together, or one less. -/
theorem log2_mul {a b : Nat} (ha : 0 < a) (hb : 0 < b) :
    a.log2 + b.log2 ≤ (a * b).log2 ∧ (a * b).log2 ≤ a.log2 + b.log2 + 1 := by
  have hpos := Nat.mul_pos ha hb
  have hlow : 2 ^ (a.log2 + b.log2) ≤ a * b := by
    rw [Nat.pow_add]
    exact Nat.mul_le_mul (Nat.log2_self_le (Nat.ne_of_gt ha)) (Nat.log2_self_le (Nat.ne_of_gt hb))
  have hhigh : a * b < 2 ^ (a.log2 + 1 + (b.log2 + 1)) := by
    rw [Nat.pow_add]
    exact Nat.mul_lt_mul'' Nat.lt_log2_self Nat.lt_log2_self
  have := (Nat.le_log2 (Nat.ne_of_gt hpos)).2 hlow
  have := (Nat.log2_lt (Nat.ne_of_gt hpos)).2 hhigh
  omega

/-- Mantissas and exponents of a product whose second factor is at least one in size. -/
theorem mul_finite {x y : Float} {s s' : Sign} {m m' : Nat} {e e' : Int} {h : 0 < m} {h' : 0 < m'}
    (hx : x.toModel.unpack = .finite s m e h) (hy : y.toModel.unpack = .finite s' m' e' h')
    (hone : 0 ≤ (m'.log2 : Int) + e') :
    ∃ F E hF, (x * y).toModel.unpack = repack (.finite (s * s') F E hF) ∧ F < 2 ^ 53 ∧ -1074 ≤ E ∧
      (F.log2 : Int) + E ≤ m.log2 + e + (m'.log2 + e') + 2 ∧
      E ≤ max (e + e') (max ((m.log2 : Int) + e + (m'.log2 + e') - 50) (-1074)) := by
  have he := exponent_of_unpack hx
  obtain ⟨hlow, hhigh⟩ := log2_mul h h'
  obtain ⟨F, E, hF, hround, hlt, hleast, hlog, hmax⟩ :=
    exists_roundWithAccuracy (s * s') (m * m') (e + e') (Nat.mul_pos h h') (by omega)
  refine ⟨F, E, hF, ?_, hlt, hleast, by omega, by omega⟩
  show repack (UnpackedFloat.mul .binary64 x.toModel.unpack y.toModel.unpack) = _
  rw [hx, hy, ← hround]
  rfl

/-- A product with a factor that is at least one, and less than `2 ^ j`, in size. -/
theorem Within.mul {j k : Int} {x y : Float} (hx : Within k x) (hy : OneTo j y)
    (hk : j + k ≤ 1021) : Within (j + k + 1) (x * y) := by
  obtain ⟨s', m', e', h', hv, hone, hj⟩ := hy.cases
  rcases Below.cases hx with ⟨s, hu⟩ | ⟨s, m, e, h, hu, hm⟩
  · have hzero : (x * y).toModel.unpack = repack (.zero (s * s')) := by
      show repack (UnpackedFloat.mul .binary64 x.toModel.unpack y.toModel.unpack) = _
      rw [hu, hv]
      rfl
    unfold Within
    rw [hzero, repack_zero]
    trivial
  · have hfull : m'.log2 = 52 := by
      have hcanonical := canonical_of_unpack hv
      have hlt := (Nat.log2_lt (Nat.ne_of_gt h')).2 hcanonical.lt
      have hge := (Nat.le_log2 (Nat.ne_of_gt h')).2
        (hcanonical.full (by unfold leastExponent; omega))
      omega
    obtain ⟨F, E, hF, hmul, hlt, hleast, hlog, hmax⟩ := mul_finite hu hv hone
    unfold Within
    rw [hmul]
    exact below_repack _ hF hlt hleast (by omega) (by omega)

/-- What is not zero does not vanish when it is multiplied by one or more. -/
theorem mul_ne_zero {k : Int} {x y : Float} {s : Sign} {m : Nat} {e : Int} {h : 0 < m}
    (hx : x.toModel.unpack = .finite s m e h) (hy : OneTo k y) (z : Sign) :
    (x * y).toModel.unpack ≠ .zero z := by
  obtain ⟨s', m', e', h', hv, hone, -⟩ := hy.cases
  obtain ⟨F, E, hF, hmul, hlt, hleast, -, -⟩ := mul_finite hx hv hone
  rw [hmul]
  exact repack_finite_ne _ z F E hF hlt hleast

/-! ## Comparisons -/

theorem less_iff (x y : Float) : Scalar.less x y = true ↔
    x.toModel.unpack.compare y.toModel.unpack = some .lt := by
  have hless : Scalar.less x y = decide (Float.lt x y = true) := rfl
  rw [hless, decide_eq_true_eq, Float.lt, decide_eq_true_eq]
  show ((x.toModel.unpack.compare y.toModel.unpack == some .lt) = true) ↔ _
  rw [beq_iff_eq]

theorem isZero_iff (x : Float) :
    Scalar.isZero x = true ↔ ∃ s, x.toModel.unpack = .zero s := by
  show (x.toModel.unpack.compare (.zero .positive) == some .eq) = true ↔ _
  rw [beq_iff_eq]
  constructor
  · intro h
    cases hx : x.toModel.unpack with
    | zero s => exact ⟨s, rfl⟩
    | notANumber =>
      rw [hx] at h
      cases h
    | infinity s | finite s =>
      rw [hx] at h
      cases s <;> cases h
  · rintro ⟨s, hx⟩
    rw [hx]
    rfl

theorem positive_iff (x : Float) :
    Scalar.positive x = true ↔ x.toModel.unpack = .infinity .positive ∨
      ∃ m e h, x.toModel.unpack = .finite .positive m e h := by
  rw [Scalar.positive, less_iff]
  show UnpackedFloat.compare (.zero .positive) _ = _ ↔ _
  constructor
  · intro h
    cases hx : x.toModel.unpack with
    | notANumber | zero =>
      rw [hx] at h
      cases h
    | infinity s =>
      rw [hx] at h
      cases s with
      | negative => cases h
      | positive => exact .inl rfl
    | finite s m e hm =>
      rw [hx] at h
      cases s with
      | negative => cases h
      | positive => exact .inr ⟨m, e, hm, rfl⟩
  · rintro (hx | ⟨m, e, hm, hx⟩)
    all_goals
      rw [hx]
      rfl

/-- What is not at most zero is positive, or no number. -/
theorem not_atMost_zero {x : Float} (h : Scalar.atMost x (Scalar.nat 0) = false) :
    Scalar.positive x = true ∨ x.toModel.unpack = .notANumber := by
  have hatMost : Scalar.atMost x (Scalar.nat 0) = decide (Float.le x (Float.ofNat 0) = true) := rfl
  rw [hatMost, decide_eq_false_iff_not, Float.le, decide_eq_true_eq] at h
  replace h : ¬ ((x.toModel.unpack.compare (.zero .positive)).any Ordering.isLE) = true := h
  rw [positive_iff]
  cases hx : x.toModel.unpack with
  | notANumber => exact .inr rfl
  | zero s =>
    rw [hx] at h
    exact absurd rfl h
  | infinity s =>
    cases s with
    | positive => exact .inl (.inl rfl)
    | negative =>
      rw [hx] at h
      exact absurd rfl h
  | finite s m e hm =>
    cases s with
    | positive => exact .inl (.inr ⟨m, e, hm, rfl⟩)
    | negative =>
      rw [hx] at h
      exact absurd rfl h

/-- A positive double that is finite is below one, or has a size that is one or more. -/
theorem less_one_or_oneTo {x : Float} {m : Nat} {e : Int} {h : 0 < m}
    (hx : x.toModel.unpack = .finite .positive m e h) :
    Scalar.less x (Scalar.nat 1) = true ∨ OneTo 1024 x := by
  have hone : (Scalar.nat 1 : Float).toModel.unpack = .finite .positive (2 ^ 52) (-52) (by decide) :=
    rfl
  have hcanonical := canonical_of_unpack hx
  have hlog := (Nat.log2_lt (Nat.ne_of_gt h)).2 hcanonical.lt
  have hmost := hcanonical.most
  by_cases he : e < -52
  · left
    rw [less_iff, hx, hone]
    show some ((compare e (-52)).then (compare m (2 ^ 52))) = some .lt
    rw [Int.compare_eq_lt.2 he]
    rfl
  · right
    have hfull := (Nat.le_log2 (Nat.ne_of_gt h)).2
      (hcanonical.full (by unfold leastExponent; omega))
    unfold OneTo
    rw [hx]
    show 0 ≤ (m.log2 : Int) + e ∧ (m.log2 : Int) + e < 1024
    omega

/-- A product with a positive double that vanishes: the other factor is positive too, and the first
is below one. -/
theorem less_one_of_isZero_mul {x p : Float} {m : Nat} {e : Int} {h : 0 < m}
    (hx : Scalar.atMost x (Scalar.nat 0) = false)
    (hp : p.toModel.unpack = .finite .positive m e h) (hzero : Scalar.isZero (x * p) = true) :
    Scalar.positive x = true ∧ Scalar.less p (Scalar.nat 1) = true := by
  obtain ⟨z, hz⟩ := (isZero_iff _).1 hzero
  have hmul : (x * p).toModel.unpack =
      repack (UnpackedFloat.mul .binary64 x.toModel.unpack p.toModel.unpack) := rfl
  rw [hp] at hmul
  rcases not_atMost_zero hx with hpos | hnan
  · refine ⟨hpos, ?_⟩
    rcases (positive_iff x).1 hpos with hinf | ⟨m', e', h', hfinite⟩
    · rw [hinf, hz] at hmul
      cases hmul.trans (repack_infinity _)
    · exact (less_one_or_oneTo hp).resolve_right fun hone => mul_ne_zero hfinite hone z hz
  · rw [hnan, hz] at hmul
    cases hmul.trans repack_notANumber

/-! ## What is not finite -/

/-- Infinite, or no number. -/
def Beyond (u : UnpackedFloat) : Prop := u = .notANumber ∨ ∃ s, u = .infinity s

theorem isFinite_eq_false_iff (x : Float) :
    isFinite x = false ↔ Beyond x.toModel.unpack := by
  rw [isFinite, view_eq_seen]
  constructor
  · intro h
    cases hx : x.toModel.unpack with
    | notANumber => exact .inl rfl
    | infinity s => exact .inr ⟨s, rfl⟩
    | zero | finite =>
      rw [hx] at h
      cases h
  · rintro (hx | ⟨s, hx⟩)
    all_goals
      rw [hx]
      rfl

theorem Beyond.repack {u : UnpackedFloat} (h : Beyond u) : Beyond (repack u) := by
  rcases h with rfl | ⟨s, rfl⟩
  · exact .inl repack_notANumber
  · exact .inr ⟨s, repack_infinity s⟩

theorem Beyond.add_left {u : UnpackedFloat} (h : Beyond u) (v : UnpackedFloat) :
    Beyond (UnpackedFloat.add .binary64 u v) := by
  rcases h with rfl | ⟨s, rfl⟩
  · left
    cases v <;> rfl
  · cases v with
    | notANumber => exact .inl rfl
    | zero s' => exact .inr ⟨s, rfl⟩
    | finite s' m e h => exact .inr ⟨s, rfl⟩
    | infinity s' =>
      by_cases hs : (s == s') = true
      · exact .inr ⟨s, if_pos hs⟩
      · exact .inl (if_neg hs)

theorem Beyond.add_right (u : UnpackedFloat) {v : UnpackedFloat} (h : Beyond v) :
    Beyond (UnpackedFloat.add .binary64 u v) := by
  cases u with
  | notANumber => exact Beyond.add_left (.inl rfl) v
  | infinity s => exact Beyond.add_left (.inr ⟨s, rfl⟩) v
  | zero s =>
    rcases h with rfl | ⟨s', rfl⟩
    · exact .inl rfl
    · exact .inr ⟨s', rfl⟩
  | finite s m e hm =>
    rcases h with rfl | ⟨s', rfl⟩
    · exact .inl rfl
    · exact .inr ⟨s', rfl⟩

/-- A sum is not finite if a term is not. -/
theorem isFinite_add_left {x : Float} (y : Float) (h : isFinite x = false) :
    isFinite (x + y) = false := by
  rw [isFinite_eq_false_iff] at h ⊢
  exact (h.add_left y.toModel.unpack).repack

theorem isFinite_add_right (x : Float) {y : Float} (h : isFinite y = false) :
    isFinite (x + y) = false := by
  rw [isFinite_eq_false_iff] at h ⊢
  exact (h.add_right x.toModel.unpack).repack

/-- The terms of a sum that is finite are. -/
theorem isFinite_terms {x y : Float} (h : isFinite (x + y) = true) :
    isFinite x = true ∧ isFinite y = true := by
  by_contra hterms
  rcases Classical.not_and_iff_not_or_not.1 hterms with hx | hy
  · rw [isFinite_add_left y (Bool.eq_false_iff.2 hx)] at h
    cases h
  · rw [isFinite_add_right x (Bool.eq_false_iff.2 hy)] at h
    cases h

/-! ## Exact values -/

theorem within_of_exact {k : Nat} {x : Float} (hx : isFinite x = true) (h : |exact x| < 2 ^ k) :
    Within k x := by
  rcases (isFinite_iff x).1 hx with ⟨s, hu⟩ | ⟨s, m, e, hm, hu⟩
  · unfold Within
    rw [hu]
    trivial
  · have hsize : |exact x| = m * 2 ^ e := by
      have hpos : (0 : Rat) < m * 2 ^ e :=
        mul_pos (Nat.cast_pos.2 hm) (zpow_pos two_pos e)
      have hview : view x = .finite (s == .negative) m e :=
        (view_eq_seen x).trans (congrArg seen hu)
      rw [exact, hview]
      dsimp only
      rw [(Decimal.quotient_eq m e).2]
      split
      · rw [abs_neg, abs_of_pos hpos]
      · exact abs_of_pos hpos
    have hlow : (2 : Rat) ^ ((m.log2 : Int) + e) ≤ m * 2 ^ e := by
      rw [zpow_add₀ two_ne_zero, zpow_natCast]
      have hcast : ((2 ^ m.log2 : Nat) : Rat) ≤ (m : Rat) :=
        Nat.cast_le.2 (Nat.log2_self_le (Nat.ne_of_gt hm))
      push_cast at hcast
      exact mul_le_mul_of_nonneg_right hcast (zpow_pos two_pos e).le
    unfold Within
    rw [hu]
    refine (zpow_lt_zpow_iff_right₀ (one_lt_two (α := Rat))).1 ?_
    rw [zpow_natCast]
    exact hlow.trans_lt (hsize ▸ h)

/-- A whole number that 53 places can hold is converted from a word, and taken once. -/
theorem ofNat_eq_scaled {n : Nat} (hsmall : n < 2 ^ 53) :
    Float.ofNat n = n.toUInt64.toFloat * Float.exactlyRepresentablePowersOfTen[0] := by
  show Float.ofScientific n false 0 = _
  unfold Float.ofScientific
  rw [dif_pos ⟨hsmall, by decide⟩]
  rfl

/-- Whole numbers that are small enough for a mantissa. -/
theorem within_ofNat {n k : Nat} (hn : n < 2 ^ k) (hk : k ≤ 53) :
    Within (k + 3) (Float.ofNat n) := by
  have hsmall : n < 2 ^ 53 := hn.trans_le (Nat.pow_le_pow_right (by decide) hk)
  have hword : n.toUInt64.toNat = n := by
    show n % 2 ^ 64 = n
    omega
  have hone : OneTo 1 Float.exactlyRepresentablePowersOfTen[0] := by decide +kernel
  have hwhole : Within (k + 1) n.toUInt64.toFloat := by
    show Below (k + 1) (repack (UnpackedFloat.normalize .binary64 (n.toUInt64.toNat : Int) 0 _))
    rw [hword]
    refine below_normalize (by decide) (fun hne => ?_) (by omega)
    have hlog := (Nat.log2_lt (n := n) (by omega)).2 hn
    rw [Int.natAbs_natCast]
    omega
  rw [ofNat_eq_scaled hsmall]
  exact (hwhole.mul hone (by omega)).mono (by omega)

end Double
end Tradeflow
