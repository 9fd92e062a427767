/-
  Doubles from the positive zero up, infinity included, in the order of their extents. On them nothing is
  incomparable, zero has one sign only, and infinity is a number like any other: it stands for the top
  of the rationals (`extent`). They are closed under what keeps signs: differences from a larger number,
  quotients and products with a positive one, and picking the larger or the smaller of two.
-/
import Mathlib.Order.WithBot
import Tradeflow.Proofs.Number.Order

namespace Tradeflow

namespace Double

open Float.Model Float.Model.UnpackedFloat

/-- The positive zero, or above zero, infinity included. -/
def Upward (x : Float) : Prop :=
  x.toModel.unpack = .zero .positive ∨ Signed .positive x.toModel.unpack

/-- The exact value, or the top for what has none. -/
def extent (x : Float) : WithTop Rat := if isFinite x = true then (exact x : WithTop Rat) else ⊤

variable {x y : Float}

theorem upward_of_positive (h : Scalar.positive x = true) : Upward x := .inr ((positive_iff x).1 h)

theorem upward_zero : Upward (Scalar.nat 0) := .inl rfl

/-- There is one zero among them. -/
theorem Upward.eq_zero (hx : Upward x) (h : Scalar.positive x = false) : x = Scalar.nat 0 := by
  rcases hx with hzero | hsigned
  · have hmodel : x.toModel = (Scalar.nat 0 : Float).toModel := by
      rw [← pack_unpack x.toModel, hzero]
      rfl
    exact congrArg Float.ofModel hmodel
  · rw [(positive_iff x).2 hsigned] at h
    cases h

/-! ## The order -/

/-- What is not finite is infinite. -/
theorem Upward.cases (hx : Upward x) :
    isFinite x = true ∨ x.toModel.unpack = .infinity .positive := by
  rw [isFinite_iff]
  rcases hx with hzero | hinfinite | ⟨m, e, hm, hu⟩
  · exact .inl (.inl ⟨_, hzero⟩)
  · exact .inr hinfinite
  · exact .inl (.inr ⟨_, m, e, hm, hu⟩)

theorem extent_of_isFinite (h : isFinite x = true) : extent x = exact x := if_pos h

theorem extent_of_infinite (h : x.toModel.unpack = .infinity .positive) : extent x = ⊤ := by
  refine if_neg ?_
  rw [(isFinite_eq_false_iff x).2 (.inr ⟨_, h⟩)]
  exact Bool.false_ne_true

/-- What is not above a rational is finite. -/
theorem finite_of_extent_le {q : Rat} (h : extent x ≤ (q : WithTop Rat)) :
    isFinite x = true ∧ exact x ≤ q := by
  unfold extent at h
  split at h
  case isTrue hfinite => exact ⟨hfinite, WithTop.coe_le_coe.1 h⟩
  case isFalse => exact absurd h (not_le.2 (WithTop.coe_lt_top q))

theorem Upward.compare_eq (hx : Upward x) (hy : Upward y) :
    x.toModel.unpack.compare y.toModel.unpack = some (compare (extent x) (extent y)) := by
  rcases hx.cases with hfx | hix <;> rcases hy.cases with hfy | hiy
  · rw [compare_exact hfx hfy, extent_of_isFinite hfx, extent_of_isFinite hfy]
    rcases lt_trichotomy (exact x) (exact y) with h | h | h
    · rw [compare_lt_iff_lt.2 h, compare_lt_iff_lt.2 (WithTop.coe_lt_coe.2 h)]
    · rw [compare_eq_iff_eq.2 h, compare_eq_iff_eq.2 (congrArg _ h)]
    · rw [compare_gt_iff_gt.2 h, compare_gt_iff_gt.2 (WithTop.coe_lt_coe.2 h)]
  · rw [hiy, extent_of_infinite hiy, extent_of_isFinite hfx,
      compare_lt_iff_lt.2 (WithTop.coe_lt_top _)]
    rcases (isFinite_iff x).1 hfx with ⟨s, hu⟩ | ⟨s, m, e, hm, hu⟩ <;> rw [hu] <;> rfl
  · rw [hix, extent_of_infinite hix, extent_of_isFinite hfy,
      compare_gt_iff_gt.2 (WithTop.coe_lt_top _)]
    rcases (isFinite_iff y).1 hfy with ⟨s, hu⟩ | ⟨s, m, e, hm, hu⟩ <;> rw [hu] <;> rfl
  · rw [hix, hiy, extent_of_infinite hix, extent_of_infinite hiy, compare_eq_iff_eq.2 rfl]
    rfl

theorem Upward.less_iff (hx : Upward x) (hy : Upward y) :
    Scalar.less x y = true ↔ extent x < extent y := by
  rw [Double.less_iff, hx.compare_eq hy, Option.some_inj, compare_lt_iff_lt]

theorem atMost_iff_compare (x y : Float) : Scalar.atMost x y = true ↔
    (x.toModel.unpack.compare y.toModel.unpack).any Ordering.isLE = true := by
  have hatMost : Scalar.atMost x y = decide (Float.le x y = true) := rfl
  rw [hatMost, decide_eq_true_eq, Float.le, decide_eq_true_eq]
  exact Iff.rfl

theorem Upward.atMost_iff (hx : Upward x) (hy : Upward y) :
    Scalar.atMost x y = true ↔ extent x ≤ extent y := by
  rw [atMost_iff_compare, hx.compare_eq hy]
  show (compare (extent x) (extent y)).isLE = true ↔ _
  rw [← compare_le_iff_le, Ordering.isLE_iff_ne_gt]

theorem Upward.zero_le (hx : Upward x) : Scalar.atMost (Scalar.nat 0) x = true := by
  rw [upward_zero.atMost_iff hx, ← not_lt, ← hx.less_iff upward_zero]
  intro h
  rcases hx with hzero | hsigned
  · rw [Double.less_iff, hzero] at h
    cases h
  · exact ((negative_iff x).1 h).not_both hsigned

theorem Upward.not_less_zero (hx : Upward x) : Scalar.less x (Scalar.nat 0) = false := by
  rw [Bool.eq_false_iff]
  intro h
  have hle := (upward_zero.atMost_iff hx).1 hx.zero_le
  exact absurd ((hx.less_iff upward_zero).1 h) (not_lt.2 hle)

theorem Upward.larger (hx : Upward x) (hy : Upward y) :
    Upward (Scalar.larger x y) ∧ extent (Scalar.larger x y) = max (extent x) (extent y) := by
  unfold Scalar.larger
  split
  case isTrue h => exact ⟨hy, (max_eq_right ((hx.less_iff hy).1 h).le).symm⟩
  case isFalse h => exact ⟨hx, (max_eq_left (not_lt.1 (mt (hx.less_iff hy).2 h))).symm⟩

theorem Upward.smaller (hx : Upward x) (hy : Upward y) :
    Upward (Scalar.smaller x y) ∧ extent (Scalar.smaller x y) = min (extent x) (extent y) := by
  unfold Scalar.smaller
  split
  case isTrue h => exact ⟨hy, (min_eq_right ((hy.less_iff hx).1 h).le).symm⟩
  case isFalse h => exact ⟨hx, (min_eq_left (not_lt.1 (mt (hy.less_iff hx).2 h))).symm⟩

/-! ## The largest of many -/

theorem isFinite_larger (hx : isFinite x = true) (hy : isFinite y = true) :
    isFinite (Scalar.larger x y) = true := by
  unfold Scalar.larger
  split
  · exact hy
  · exact hx

/-- The larger of two finite numbers is not below the second one. -/
theorem not_larger_less (x : Float) (hy : isFinite y = true) :
    Scalar.less (Scalar.larger x y) y = false := by
  unfold Scalar.larger
  split
  · rw [Bool.eq_false_iff]
    intro hless
    exact lt_irrefl _ ((less_iff_exact hy hy).1 hless)
  case isFalse h => exact Bool.eq_false_iff.2 h

theorem Upward.larger_zero (hx : Upward x) : Scalar.larger x (Scalar.nat 0) = x :=
  if_neg (Bool.eq_false_iff.1 hx.not_less_zero)

/-- The larger one of many, from a first one on: it is one of them, and none is larger. -/
theorem foldl_larger (fs : List Float) : ∀ {w : Float}, Upward w → (∀ f ∈ fs, Upward f) →
    Upward (fs.foldl Scalar.larger w) ∧ fs.foldl Scalar.larger w ∈ w :: fs ∧
      ∀ f ∈ w :: fs, extent f ≤ extent (fs.foldl Scalar.larger w) := by
  induction fs with
  | nil =>
    intro w hw _
    simp [hw]
  | cons f fs ih =>
    intro w hw hfs
    obtain ⟨hf, hrest⟩ := List.forall_mem_cons.1 hfs
    obtain ⟨hlarger, hextent⟩ := hw.larger hf
    obtain ⟨hupward, hmem, hmost⟩ := ih hlarger hrest
    obtain ⟨hfirst, hlater⟩ := List.forall_mem_cons.1 hmost
    rw [hextent, max_le_iff] at hfirst
    refine ⟨hupward, ?_, List.forall_mem_cons.2 ⟨hfirst.1, List.forall_mem_cons.2 ⟨hfirst.2, hlater⟩⟩⟩
    rcases List.mem_cons.1 hmem with hpicked | hmem
    · rw [List.foldl_cons, hpicked, Scalar.larger]
      split <;> simp
    · exact List.mem_cons_of_mem _ (List.mem_cons_of_mem _ hmem)

/-! ## Arithmetic -/

/-- A difference that is not negative, from a positive number. -/
theorem upward_sub (hx : isFinite x = true) (hy : isFinite y = true)
    (hpositive : Scalar.positive x = true) (h : Scalar.less x y = false) : Upward (x - y) := by
  have hle : exact y ≤ exact x :=
    not_lt.1 fun hlt => Bool.eq_false_iff.1 h ((less_iff_exact hx hy).2 hlt)
  have hsign := signOf_sub hx hy
  rcases eq_or_lt_of_le (sub_nonneg.2 hle) with hzero | hpos
  · obtain ⟨s, hs⟩ := hsign.zero hzero.symm
    cases s with
    | positive => exact .inl hs
    | negative =>
      -- The negative zero is only left of itself.
      have hsigned : Signed .positive x.toModel.unpack := (positive_iff x).1 hpositive
      have hx' : ¬ IsNegZero x := hsigned.ne_zero _
      rw [Double.sub_eq_add_neg] at hs
      exact absurd hs (not_isNegZero_add _ hx')
  · exact .inr (hsign.positive hpos)

theorem div_def (x y : Float) : (x / y).toModel.unpack =
    repack (UnpackedFloat.div .binary64 x.toModel.unpack y.toModel.unpack) := rfl

/-- A positive number that is finite, as it is unpacked. -/
theorem finite_of_positive (hy : isFinite y = true) (hpositive : Scalar.positive y = true) :
    ∃ m e hm, y.toModel.unpack = .finite .positive m e hm := by
  rcases (positive_iff y).1 hpositive with hinfinite | hfinite
  · rw [(isFinite_eq_false_iff y).2 (.inr ⟨_, hinfinite⟩)] at hy
    cases hy
  · exact hfinite

theorem Upward.div (hx : Upward x) (hy : isFinite y = true) (hpositive : Scalar.positive y = true) :
    Upward (x / y) := by
  obtain ⟨m', e', hm', hv⟩ := finite_of_positive hy hpositive
  unfold Upward
  rw [div_def, hv]
  rcases hx with hu | hu | ⟨m, e, hm, hu⟩ <;> rw [hu]
  · exact .inl (repack_zero _)
  · exact .inr (.inl (repack_infinity _))
  · exact round_sign _ _ _ _

theorem Upward.mul (hx : Upward x) (hy : isFinite y = true) (hpositive : Scalar.positive y = true) :
    Upward (x * y) := by
  have hsigned : Signed .positive y.toModel.unpack := (positive_iff y).1 hpositive
  rcases hx with hu | hu
  · obtain ⟨m', e', hm', hv⟩ := finite_of_positive hy hpositive
    unfold Upward
    rw [mul_def, hu, hv]
    exact .inl (repack_zero _)
  · exact hu.mul hsigned

end Double

end Tradeflow
