/-
  Order statistics of figures that compare as their values in a linear order do (`Scalar.Valued`).
  Sorting and looking for the largest ask for comparisons only, so nothing else of the arithmetic
  matters.

  Sorted figures are the same figures in rising order (`sorted_rising`). Elements at later places are not
  smaller (`Rising.le`), and two lists of the same figures have the same values at every place, though
  not always the same elements (`Rising.values_eq`): figures of one value keep the order they were
  given in.
-/
import Mathlib.Data.List.Sort
import Tradeflow.Performance.Distribution
import Tradeflow.Proofs.Number.Values

namespace Tradeflow

namespace Distribution

/-! ## Places in a list -/

theorem exists_at? {R : Type} {xs : List R} {k : Nat} (h : k < xs.length) :
    ∃ x, at? xs (k : Int) = .ok x ∧ xs[k]? = some x := by
  refine ⟨xs[k], ?_, List.getElem?_eq_getElem h⟩
  unfold at?
  rw [if_neg (Int.not_lt.2 (Int.natCast_nonneg k))]
  dsimp only
  rw [if_neg (Int.not_lt.2 (Int.natCast_nonneg k)), Int.toNat_natCast, List.getElem?_eq_getElem h]

/-- A list that is not empty has an element in the middle. -/
theorem exists_median {R : Type} {xs : List R} {n : Nat} (hlength : xs.length = n) (hpos : 0 < n) :
    ∃ x, median xs = .ok x ∧ xs[n / 2]? = some x := by
  subst hlength
  exact exists_at? (Nat.div_lt_self hpos (by decide))

variable {R : Type} [Scalar R]

/-- The element at a share is at the place that the share is rounded down to, or it is the last one. -/
theorem exists_percentile {xs : List R} {share : R} {n i : Nat} (hlength : xs.length = n) (hpos : 0 < n)
    (hfloor : Scalar.floor? (Scalar.nat n * share) = .ok (i : Int)) :
    ∃ x, percentile xs share = .ok x ∧ xs[min i (n - 1)]? = some x := by
  subst hlength
  have hlast : min (i : Int) ((xs.length : Int) - 1) = (min i (xs.length - 1) : Nat) := by omega
  unfold percentile
  rw [hfloor]
  dsimp only
  rw [hlast]
  exact exists_at? (by omega)

/-! ## Rising order -/

/-- The same figures in rising order. -/
structure Rising (rising xs : List R) : Prop where
  perm : rising.Perm xs
  ordered : rising.Pairwise fun x y => Scalar.atMost x y = true

/-- The smallest and the largest of some figures. -/
structure Extremes (least most : R) (xs : List R) : Prop where
  least_mem : least ∈ xs
  most_mem : most ∈ xs
  between : ∀ x ∈ xs, Scalar.atMost least x = true ∧ Scalar.atMost x most = true

variable {V : Type} [LinearOrder V] {Numeric : R → Prop} {value : R → V} {xs ys rising rising' : List R}

section Valued

variable (hv : Scalar.Valued Numeric value)
include hv

theorem comparable_of_numeric (h : ∀ x ∈ xs, Numeric x) : comparable xs = true :=
  List.all_eq_true.2 fun x hx => (hv.equal (h x hx) (h x hx)).2 rfl

/-- Sorted by value. -/
theorem values_mergeSort (h : ∀ x ∈ xs, Numeric x) :
    (xs.mergeSort fun x y => !Scalar.less y x).map value =
      (xs.map value).mergeSort fun v w => decide (v ≤ w) := by
  refine List.map_mergeSort fun x hx y hy => ?_
  rw [Bool.eq_iff_iff, decide_eq_true_iff, Bool.not_eq_true', Bool.eq_false_iff,
    Ne, hv.less (h y hy) (h x hx), not_lt]

theorem Rising.of_values (hperm : rising.Perm xs) (h : ∀ x ∈ xs, Numeric x)
    (hvalues : (rising.map value).Pairwise (· ≤ ·)) : Rising rising xs where
  perm := hperm
  ordered := (List.pairwise_map.1 hvalues).imp_of_mem fun hx hy hle =>
    (hv.atMost (h _ (hperm.mem_iff.1 hx)) (h _ (hperm.mem_iff.1 hy))).2 hle

theorem Rising.values (h : Rising rising xs) (hnumeric : ∀ x ∈ xs, Numeric x) :
    (rising.map value).Pairwise (· ≤ ·) :=
  List.pairwise_map.2 <| h.ordered.imp_of_mem fun hx hy hle =>
    (hv.atMost (hnumeric _ (h.perm.mem_iff.1 hx)) (hnumeric _ (h.perm.mem_iff.1 hy))).1 hle

theorem sorted_rising (h : ∀ x ∈ xs, Numeric x) : Rising (sorted xs) xs := by
  have hsorted : sorted xs = xs.mergeSort fun x y => !Scalar.less y x :=
    if_pos (comparable_of_numeric hv h)
  rw [hsorted]
  refine Rising.of_values hv (List.mergeSort_perm ..) h ?_
  rw [values_mergeSort hv h]
  exact List.pairwise_mergeSort' (· ≤ ·) _

/-- What comes later is not smaller. -/
theorem Rising.le (h : Rising rising xs) (hnumeric : ∀ x ∈ xs, Numeric x) {i j : Nat} {x y : R}
    (hij : i ≤ j) (hx : rising[i]? = some x) (hy : rising[j]? = some y) :
    Scalar.atMost x y = true := by
  obtain ⟨hi, rfl⟩ := List.getElem?_eq_some_iff.1 hx
  obtain ⟨hj, rfl⟩ := List.getElem?_eq_some_iff.1 hy
  rcases Nat.lt_or_eq_of_le hij with hlt | rfl
  · exact List.pairwise_iff_getElem.1 h.ordered i j hi hj hlt
  · have hmem : Numeric rising[i] := hnumeric _ (h.perm.mem_iff.1 (List.getElem_mem hi))
    exact (hv.atMost hmem hmem).2 le_rfl

/-- The smallest comes first and the largest last. -/
theorem Rising.exists_extremes (h : Rising rising xs) (hnumeric : ∀ x ∈ xs, Numeric x) (hne : xs ≠ []) :
    ∃ least most, rising[0]? = some least ∧ rising[xs.length - 1]? = some most ∧
      Extremes least most xs := by
  have hlength := h.perm.length_eq
  have hpos : 0 < xs.length := List.length_pos_iff.2 hne
  have hfirst := List.getElem?_eq_getElem (l := rising) (i := 0) (by omega)
  have hlast := List.getElem?_eq_getElem (l := rising) (i := xs.length - 1) (by omega)
  refine ⟨_, _, hfirst, hlast, ?_, ?_, fun x hx => ?_⟩
  · exact h.perm.mem_iff.1 (List.getElem_mem _)
  · exact h.perm.mem_iff.1 (List.getElem_mem _)
  · obtain ⟨i, hi⟩ := List.getElem?_of_mem (h.perm.mem_iff.2 hx)
    have hlt := (List.getElem?_eq_some_iff.1 hi).1
    exact ⟨h.le hv hnumeric (Nat.zero_le i) hfirst hi, h.le hv hnumeric (by omega) hi hlast⟩

/-- The same figures have the same values in rising order. -/
theorem Rising.values_eq (h : Rising rising xs) (h' : Rising rising' ys) (hperm : xs.Perm ys)
    (hnumeric : ∀ x ∈ xs, Numeric x) : rising.map value = rising'.map value :=
  ((h.perm.trans (hperm.trans h'.perm.symm)).map value).eq_of_pairwise'
    (h.values hv hnumeric) (h'.values hv fun y hy => hnumeric y (hperm.mem_iff.2 hy))

theorem Rising.value_eq (h : Rising rising xs) (h' : Rising rising' ys) (hperm : xs.Perm ys)
    (hnumeric : ∀ x ∈ xs, Numeric x) {i : Nat} {x y : R} (hx : rising[i]? = some x)
    (hy : rising'[i]? = some y) : value x = value y := by
  have heq := congrArg (·[i]?) (h.values_eq hv h' hperm hnumeric)
  simp only [List.getElem?_map, hx, hy, Option.map_some] at heq
  exact Option.some.inj heq

theorem numeric_larger {x y : R} (hx : Numeric x) (hy : Numeric y) :
    Numeric (Scalar.larger x y) ∧ value (Scalar.larger x y) = max (value x) (value y) := by
  unfold Scalar.larger
  split
  case isTrue h => exact ⟨hy, (max_eq_right ((hv.less hx hy).1 h).le).symm⟩
  case isFalse h => exact ⟨hx, (max_eq_left (not_lt.1 (mt (hv.less hx hy).2 h))).symm⟩

/-- The largest so far is one of the figures, and none so far exceeds it. -/
theorem foldl_larger {x : R} (hx : Numeric x) (h : ∀ y ∈ xs, Numeric y) :
    xs.foldl Scalar.larger x ∈ x :: xs ∧
      ∀ y ∈ x :: xs, value y ≤ value (xs.foldl Scalar.larger x) := by
  induction xs generalizing x with
  | nil =>
    refine ⟨List.mem_cons_self, fun y hy => ?_⟩
    rw [List.mem_singleton.1 hy]
    exact le_rfl
  | cons z xs ih =>
    obtain ⟨hz, hxs⟩ := List.forall_mem_cons.1 h
    obtain ⟨hlarger, hmax⟩ := numeric_larger hv hx hz
    obtain ⟨hmem, hle⟩ := ih hlarger hxs
    have hfirst := hle _ List.mem_cons_self
    rw [hmax] at hfirst
    rw [List.foldl_cons]
    refine ⟨?_, fun y hy => ?_⟩
    · rcases List.mem_cons.1 hmem with heq | hmem
      · rw [heq]
        unfold Scalar.larger
        split
        · exact List.mem_cons_of_mem _ List.mem_cons_self
        · exact List.mem_cons_self
      · exact List.mem_cons_of_mem _ (List.mem_cons_of_mem _ hmem)
    · rcases List.mem_cons.1 hy with rfl | hy
      · exact (le_max_left _ _).trans hfirst
      · rcases List.mem_cons.1 hy with rfl | hy
        · exact (le_max_right _ _).trans hfirst
        · exact hle y (List.mem_cons_of_mem _ hy)

theorem exists_largest (hne : xs ≠ []) (h : ∀ x ∈ xs, Numeric x) :
    ∃ m ∈ xs, largest xs = .ok m ∧ ∀ x ∈ xs, Scalar.atMost x m = true := by
  obtain ⟨x, xs, rfl⟩ := List.exists_cons_of_ne_nil hne
  obtain ⟨hx, hxs⟩ := List.forall_mem_cons.1 h
  obtain ⟨hmem, hle⟩ := foldl_larger hv hx hxs
  exact ⟨_, hmem, rfl, fun y hy => (hv.atMost (h y hy) (h _ hmem)).2 (hle y hy)⟩

/-- A median of figures that are numbers lies between the percentiles around it, and these between the
extremes. -/
theorem exists_percentiles {n : Nat} (hlength : xs.length = n) (hpos : 0 < n)
    (hnumeric : ∀ x ∈ xs, Numeric x) {share share' : R} {low high : Nat}
    (hlow : Scalar.floor? (Scalar.nat n * share) = .ok (low : Int))
    (hhigh : Scalar.floor? (Scalar.nat n * share') = .ok (high : Int))
    (hlow_le : low ≤ n / 2) (hle_high : n / 2 ≤ high) :
    ∃ x y z, percentile (sorted xs) share = .ok x ∧ median (sorted xs) = .ok y ∧
      percentile (sorted xs) share' = .ok z ∧
      ((sorted xs)[low]? = some x ∧ (sorted xs)[n / 2]? = some y ∧
        (sorted xs)[min high (n - 1)]? = some z) ∧
      ∃ least most, Extremes least most xs ∧ Scalar.atMost least x = true ∧
        Scalar.atMost x y = true ∧ Scalar.atMost y z = true ∧ Scalar.atMost z most = true := by
  subst hlength
  have hrising := sorted_rising hv hnumeric
  have hlength := hrising.perm.length_eq
  obtain ⟨x, hx, hatLow⟩ := exists_percentile hlength hpos hlow
  obtain ⟨y, hy, hmiddle⟩ := exists_median hlength hpos
  obtain ⟨z, hz, hatHigh⟩ := exists_percentile hlength hpos hhigh
  obtain ⟨least, most, hleast, hmost, hextremes⟩ := hrising.exists_extremes hv hnumeric
    (List.length_pos_iff.1 hpos)
  rw [show min low (xs.length - 1) = low by omega] at hatLow
  exact ⟨x, y, z, hx, hy, hz, ⟨hatLow, hmiddle, hatHigh⟩, least, most, hextremes,
    hrising.le hv hnumeric (Nat.zero_le low) hleast hatLow,
    hrising.le hv hnumeric hlow_le hatLow hmiddle,
    hrising.le hv hnumeric (by omega) hmiddle hatHigh,
    hrising.le hv hnumeric (by omega) hatHigh hmost⟩

/-- The largest of sorted figures is the largest of them all. -/
theorem exists_largest_sorted (hne : xs ≠ []) (hnumeric : ∀ x ∈ xs, Numeric x) :
    ∃ m, largest (sorted xs) = .ok m ∧ m ∈ xs ∧ ∀ x ∈ xs, Scalar.atMost x m = true := by
  have hperm := (sorted_rising hv hnumeric).perm
  obtain ⟨m, hmem, hlargest, hmost⟩ := exists_largest hv
    (fun hnil : sorted xs = [] => hne (List.Perm.eq_nil (hnil ▸ hperm.symm)))
    fun x hx => hnumeric x (hperm.mem_iff.1 hx)
  exact ⟨m, hlargest, hperm.mem_iff.1 hmem, fun x hx => hmost x (hperm.mem_iff.2 hx)⟩

end Valued

end Distribution

end Tradeflow
