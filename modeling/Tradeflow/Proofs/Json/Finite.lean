/-
  Documents without numbers that are not finite. `Json.nulled` puts nothing in the place of each such
  number. What it gives has none of them (`allFinite_nulled`), and it leaves a document as it is exactly
  if there were none (`nulled_eq_self`), as in all documents that are well formed.
-/
import Tradeflow.Proofs.Json.RoundTrip

namespace Tradeflow

theorem map_eq_self {α : Type} {f : α → α} {xs : List α} :
    xs.map f = xs ↔ ∀ x ∈ xs, f x = x :=
  ⟨fun h => List.map_inj_left.1 (h.trans (List.map_id xs).symm),
    fun h => (List.map_congr_left h).trans (List.map_id xs)⟩

namespace Json

mutual

/-- Is every double in a document finite? -/
def allFinite : Json → Bool
  | .num x => Double.isFinite x
  | .arr items => allFiniteItems items
  | .obj pairs => allFinitePairs pairs
  | _ => true

def allFiniteItems : List Json → Bool
  | [] => true
  | x :: xs => allFinite x && allFiniteItems xs

def allFinitePairs : List (String × Json) → Bool
  | [] => true
  | p :: ps => allFinitePair p && allFinitePairs ps

def allFinitePair : String × Json → Bool
  | (_, x) => allFinite x

end

/-! ## Item by item -/

theorem allFinite_arr {items : List Json} :
    allFinite (.arr items) = true ↔ ∀ x ∈ items, allFinite x = true := by
  rw [allFinite]
  induction items with
  | nil => exact iff_of_true rfl fun x hx => absurd hx List.not_mem_nil
  | cons x xs ih => rw [allFiniteItems, Bool.and_eq_true, ih, List.forall_mem_cons]

theorem allFinite_obj {pairs : List (String × Json)} :
    allFinite (.obj pairs) = true ↔ ∀ q ∈ pairs, allFinite q.2 = true := by
  rw [allFinite]
  induction pairs with
  | nil => exact iff_of_true rfl fun q hq => absurd hq List.not_mem_nil
  | cons q qs ih =>
    obtain ⟨key, x⟩ := q
    rw [allFinitePairs, allFinitePair, Bool.and_eq_true, ih, List.forall_mem_cons]

theorem nulledItems_eq_map (items : List Json) : nulledItems items = items.map nulled := by
  induction items with
  | nil => rfl
  | cons x xs ih => rw [nulledItems, ih, List.map_cons]

theorem nulledPairs_eq_map (pairs : List (String × Json)) :
    nulledPairs pairs = pairs.map fun q => (q.1, nulled q.2) := by
  induction pairs with
  | nil => rfl
  | cons q qs ih => rw [nulledPairs, nulledPair, ih, List.map_cons]

/-! ## Documents -/

theorem allFinite_nulled (doc : Json) : allFinite doc.nulled = true := by
  induction doc using Json.induction with
  | null => rfl
  | bool b => rfl
  | int n => rfl
  | num x =>
    rw [nulled]
    split
    case isTrue hfinite => rwa [allFinite]
    · rfl
  | str s => rfl
  | arr items ih =>
    rw [nulled, nulledItems_eq_map]
    exact allFinite_arr.2 (List.forall_mem_map.2 ih)
  | obj pairs ih =>
    rw [nulled, nulledPairs_eq_map]
    exact allFinite_obj.2 (List.forall_mem_map.2 ih)

theorem nulled_of_allFinite {doc : Json} (h : allFinite doc = true) : doc.nulled = doc := by
  induction doc using Json.induction with
  | null => rfl
  | bool b => rfl
  | int n => rfl
  | num x =>
    rw [allFinite] at h
    rw [nulled, if_pos h]
  | str s => rfl
  | arr items ih =>
    rw [nulled, nulledItems_eq_map, map_eq_self.2 fun x hx => ih x hx (allFinite_arr.1 h x hx)]
  | obj pairs ih =>
    have hpairs : ∀ q ∈ pairs, (q.1, nulled q.2) = q := fun q hq => by
      rw [ih q hq (allFinite_obj.1 h q hq)]
    rw [nulled, nulledPairs_eq_map, map_eq_self.2 hpairs]

/-- Nothing is lost exactly if every number is finite. -/
theorem nulled_eq_self {doc : Json} : doc.nulled = doc ↔ allFinite doc = true :=
  ⟨fun h => h ▸ allFinite_nulled doc, nulled_of_allFinite⟩

theorem nulled_nulled (doc : Json) : doc.nulled.nulled = doc.nulled :=
  nulled_of_allFinite (allFinite_nulled doc)

theorem allFinite_of_wellFormed {doc : Json} (h : wellFormed doc = true) : allFinite doc = true := by
  induction doc using Json.induction with
  | num x => rwa [wellFormed] at h
  | arr items ih => exact allFinite_arr.2 fun x hx => ih x hx (wellFormed_arr.1 h x hx)
  | obj pairs ih => exact allFinite_obj.2 fun q hq => ih q hq ((wellFormed_obj.1 h).2 q hq)
  | _ => rfl

/-! ## Pairs -/

theorem nulledPairs_nulledPairs (pairs : List (String × Json)) :
    nulledPairs (nulledPairs pairs) = nulledPairs pairs := by
  have h := nulled_nulled (.obj pairs)
  rw [nulled, nulled] at h
  exact Json.obj.inj h

theorem nulledPairs_eq_self {pairs : List (String × Json)} :
    nulledPairs pairs = pairs ↔ allFinite (.obj pairs) = true := by
  rw [← nulled_eq_self, nulled, Json.obj.injEq]

end Json

end Tradeflow
