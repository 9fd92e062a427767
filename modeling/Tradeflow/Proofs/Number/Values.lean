/-
  Numbers that compare as their values in a linear order do (`Scalar.Valued`). Exact numbers are their
  own values. Doubles other than NaN have values between a bottom and a top, which the two infinities
  stand for (`Double.level`); zeros of both signs have the same value.
-/
import Tradeflow.Proofs.Number.Extent
import Tradeflow.Proofs.Number.Rational

namespace Tradeflow

/-- Those numbers of an arithmetic that have a property compare as their values. -/
structure Scalar.Valued {R V : Type} [Scalar R] [LinearOrder V] (Numeric : R → Prop)
    (value : R → V) : Prop where
  less {x y : R} : Numeric x → Numeric y → (Scalar.less x y = true ↔ value x < value y)
  atMost {x y : R} : Numeric x → Numeric y → (Scalar.atMost x y = true ↔ value x ≤ value y)
  equal {x y : R} : Numeric x → Numeric y → (Scalar.equal x y = true ↔ value x = value y)

/-- Numbers of the same values are equal one by one. -/
theorem Scalar.Valued.forall₂_equal {R V : Type} [Scalar R] [LinearOrder V] {Numeric : R → Prop}
    {value : R → V} (hv : Scalar.Valued Numeric value) {xs ys : List R} (hxs : ∀ x ∈ xs, Numeric x)
    (hys : ∀ y ∈ ys, Numeric y) (h : xs.map value = ys.map value) :
    List.Forall₂ (fun x y => Scalar.equal x y = true) xs ys := by
  induction xs generalizing ys with
  | nil =>
    rw [List.map_eq_nil_iff.1 h.symm]
    exact .nil
  | cons x xs ih =>
    cases ys with
    | nil => cases h
    | cons y ys =>
      obtain ⟨hx, hxs⟩ := List.forall_mem_cons.1 hxs
      obtain ⟨hy, hys⟩ := List.forall_mem_cons.1 hys
      obtain ⟨hvalue, hrest⟩ := List.cons.inj h
      exact .cons ((hv.equal hx hy).2 hvalue) (ih hxs hys hrest)

theorem Rational.valued : Scalar.Valued (fun _ : Rat => True) id where
  less _ _ := decide_eq_true_iff
  atMost _ _ := decide_eq_true_iff
  equal _ _ := decide_eq_true_iff

namespace Double

open Float.Model Float.Model.UnpackedFloat

/-- Anything but NaN. -/
def IsNumber (x : Float) : Prop := view x ≠ .nan

instance : DecidablePred IsNumber := fun x => inferInstanceAs (Decidable (view x ≠ .nan))

/-- The exact value; the infinities are at the bottom and at the top, and NaN is put at the bottom. -/
def level (x : Float) : WithBot (WithTop Rat) :=
  match view x with
  | .nan => ⊥
  | .infinite true => ⊥
  | .infinite false => (⊤ : WithTop Rat)
  | .finite .. => (exact x : WithTop Rat)

variable {x y : Float}

theorem level_of_isFinite (h : isFinite x = true) : level x = (exact x : WithTop Rat) := by
  unfold level
  rw [view_eq_seen]
  rcases (isFinite_iff x).1 h with ⟨s, hu⟩ | ⟨s, m, e, hm, hu⟩ <;> rw [hu] <;> rfl

theorem level_of_infinity {s : Sign} (h : x.toModel.unpack = .infinity s) :
    level x = match s with
      | .negative => ⊥
      | .positive => (⊤ : WithTop Rat) := by
  have hview : view x = .infinite (s == .negative) := (view_eq_seen x).trans (congrArg seen h)
  unfold level
  rw [hview]
  cases s
  · rfl
  · rfl

theorem isNumber_of_isFinite (h : isFinite x = true) : IsNumber x := by
  intro hnan
  rw [isFinite, hnan] at h
  cases h

theorem IsNumber.cases (h : IsNumber x) :
    isFinite x = true ∨ ∃ s, x.toModel.unpack = .infinity s := by
  rcases hfinite : isFinite x with _ | _
  · refine .inr (((isFinite_eq_false_iff x).1 hfinite).resolve_left fun hnan => h ?_)
    rw [view_eq_seen, hnan]
    rfl
  · exact .inl rfl

theorem compare_coe (a b : Rat) :
    compare ((a : WithTop Rat) : WithBot (WithTop Rat)) ((b : WithTop Rat) : WithBot (WithTop Rat)) =
      compare a b := by
  rcases lt_trichotomy a b with h | rfl | h
  · rw [compare_lt_iff_lt.2 h, compare_lt_iff_lt.2 (WithBot.coe_lt_coe.2 (WithTop.coe_lt_coe.2 h))]
  · rw [compare_eq_iff_eq.2 rfl, compare_eq_iff_eq.2 rfl]
  · rw [compare_gt_iff_gt.2 h, compare_gt_iff_gt.2 (WithBot.coe_lt_coe.2 (WithTop.coe_lt_coe.2 h))]

/-- An infinity is beyond every finite double, on its own side. -/
theorem compare_infinity (hx : isFinite x = true) {s : Sign} (hy : y.toModel.unpack = .infinity s) :
    x.toModel.unpack.compare y.toModel.unpack = some (compare (level x) (level y)) ∧
      y.toModel.unpack.compare x.toModel.unpack = some (compare (level y) (level x)) := by
  rw [hy, level_of_isFinite hx, level_of_infinity hy]
  cases s with
  | negative =>
    rw [compare_gt_iff_gt.2 (WithBot.bot_lt_coe _), compare_lt_iff_lt.2 (WithBot.bot_lt_coe _)]
    rcases (isFinite_iff x).1 hx with ⟨s, hu⟩ | ⟨s, m, e, hm, hu⟩ <;> rw [hu] <;> exact ⟨rfl, rfl⟩
  | positive =>
    rw [compare_lt_iff_lt.2 (WithBot.coe_lt_coe.2 (WithTop.coe_lt_top _)),
      compare_gt_iff_gt.2 (WithBot.coe_lt_coe.2 (WithTop.coe_lt_top _))]
    rcases (isFinite_iff x).1 hx with ⟨s, hu⟩ | ⟨s, m, e, hm, hu⟩ <;> rw [hu] <;> exact ⟨rfl, rfl⟩

theorem IsNumber.compare_eq (hx : IsNumber x) (hy : IsNumber y) :
    x.toModel.unpack.compare y.toModel.unpack = some (compare (level x) (level y)) := by
  rcases hx.cases with hfx | ⟨s, hix⟩
  · rcases hy.cases with hfy | ⟨s', hiy⟩
    · rw [compare_exact hfx hfy, level_of_isFinite hfx, level_of_isFinite hfy, compare_coe]
    · exact (compare_infinity hfx hiy).1
  · rcases hy.cases with hfy | ⟨s', hiy⟩
    · exact (compare_infinity hfy hix).2
    · rw [hix, hiy, level_of_infinity hix, level_of_infinity hiy]
      cases s <;> cases s' <;> rfl

theorem valued : Scalar.Valued IsNumber level where
  less hx hy := by rw [less_iff, hx.compare_eq hy, Option.some_inj, compare_lt_iff_lt]
  atMost hx hy := by
    rw [atMost_iff_compare, hx.compare_eq hy]
    show (compare _ _).isLE = true ↔ _
    rw [← compare_le_iff_le, Ordering.isLE_iff_ne_gt]
  equal {x y} hx hy := by
    show (x.toModel.unpack.compare y.toModel.unpack == some .eq) = true ↔ _
    rw [beq_iff_eq, hx.compare_eq hy, Option.some_inj, compare_eq_iff_eq]

end Double

end Tradeflow
