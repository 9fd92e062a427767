/-
  The breadth-first search for what no trigger leads to. Nodes leave the unseen ones when they come up
  in the queue, and their successors enter it: what has left was reached (`reached_of_not_mem`), what
  is in the queue leaves (`not_mem_of_mem_queue`), and once the queue is empty no edge leads from
  what has left to what has not (`closed_unreached`).
  `mem_unreached_iff`: so the nodes that are left are those that cannot be reached.
  `findUnreachable_eq`: the blocks found are those that no trigger leads to, in the order of blocks.
-/
import Tradeflow.Proofs.Validation.CycleSearch

namespace Tradeflow

namespace Graph

open Relation (ReflTransGen)

variable {next : String → List String} {nodes unseen queue : List String} {u v w : String}

theorem subset_of_mem_unreached (h : v ∈ unreached next unseen queue) : v ∈ unseen := by
  induction unseen, queue using unreached.induct next with
  | case1 unseen => rwa [unreached] at h
  | case2 unseen r rest hr ih =>
    rw [unreached, if_pos hr] at h
    exact (mem_without.1 (ih h)).1
  | case3 unseen r rest hr ih =>
    rw [unreached, if_neg hr] at h
    exact ih h

/-- A node that has left the unseen ones was reached from the queue. -/
theorem reached_of_not_mem (hunseen : v ∈ unseen) (h : v ∉ unreached next unseen queue) :
    ∃ r ∈ queue, ReflTransGen (Edge next) r v := by
  induction unseen, queue using unreached.induct next with
  | case1 unseen =>
    rw [unreached] at h
    exact absurd hunseen h
  | case2 unseen r rest hr ih =>
    rw [unreached, if_pos hr] at h
    by_cases hv : v = r
    · exact ⟨r, List.mem_cons_self, hv ▸ .refl⟩
    · obtain ⟨r', hr', hwalk⟩ := ih (mem_without.2 ⟨hunseen, hv⟩) h
      rcases List.mem_append.1 hr' with hrest | hnext
      · exact ⟨r', List.mem_cons_of_mem r hrest, hwalk⟩
      · exact ⟨r, List.mem_cons_self, .head hnext hwalk⟩
  | case3 unseen r rest hr ih =>
    rw [unreached, if_neg hr] at h
    obtain ⟨r', hr', hwalk⟩ := ih hunseen h
    exact ⟨r', List.mem_cons_of_mem r hr', hwalk⟩

theorem not_mem_of_mem_queue (h : v ∈ queue) : v ∉ unreached next unseen queue := by
  induction unseen, queue using unreached.induct next with
  | case1 unseen => cases h
  | case2 unseen r rest hr ih =>
    rw [unreached, if_pos hr]
    rcases List.mem_cons.1 h with rfl | hrest
    · intro hv
      exact (mem_without.1 (subset_of_mem_unreached hv)).2 rfl
    · exact ih (List.mem_append_left _ hrest)
  | case3 unseen r rest hr ih =>
    rw [unreached, if_neg hr]
    rcases List.mem_cons.1 h with rfl | hrest
    · exact fun hv => hr (subset_of_mem_unreached hv)
    · exact ih hrest

/-- If edges lead from what was seen to what was seen or is in the queue, then in the end they lead
from what was seen to what was seen. -/
theorem closed_unreached
    (hclosed : ∀ u ∈ nodes, u ∉ unseen → ∀ w ∈ next u, w ∉ unseen ∨ w ∈ queue)
    (hu : u ∈ nodes) (hleft : u ∉ unreached next unseen queue) (hw : w ∈ next u) :
    w ∉ unreached next unseen queue := by
  induction unseen, queue using unreached.induct next with
  | case1 unseen =>
    rw [unreached] at hleft ⊢
    exact (hclosed u hu hleft w hw).resolve_right List.not_mem_nil
  | case2 unseen r rest hr ih =>
    rw [unreached, if_pos hr] at hleft ⊢
    refine ih (fun x hx hseen y hy => ?_) hleft
    by_cases hxr : x = r
    · exact .inr (List.mem_append_right _ (hxr ▸ hy))
    · rcases hclosed x hx (fun hmem => hseen (mem_without.2 ⟨hmem, hxr⟩)) y hy with hy | hy
      · exact .inl fun hmem => hy (mem_without.1 hmem).1
      · rcases List.mem_cons.1 hy with rfl | hrest
        · exact .inl fun hmem => (mem_without.1 hmem).2 rfl
        · exact .inr (List.mem_append_left _ hrest)
  | case3 unseen r rest hr ih =>
    rw [unreached, if_neg hr] at hleft ⊢
    refine ih (fun x hx hseen y hy => ?_) hleft
    rcases hclosed x hx hseen y hy with hy | hy
    · exact .inl hy
    · rcases List.mem_cons.1 hy with rfl | hrest
      · exact .inl hr
      · exact .inr hrest

theorem not_mem_of_walk (hnodes : ∀ v, ∀ w ∈ next v, w ∈ nodes) {roots : List String}
    (hroots : ∀ r ∈ roots, r ∈ nodes) {r : String} (hr : r ∈ roots)
    (hwalk : ReflTransGen (Edge next) r v) : v ∈ nodes ∧ v ∉ unreached next nodes roots := by
  induction hwalk with
  | refl => exact ⟨hroots r hr, not_mem_of_mem_queue hr⟩
  | tail _ hstep ih =>
    obtain ⟨hu, hleft⟩ := ih
    -- at the start no node was seen, so there is nothing that edges could lead from
    exact ⟨hnodes _ _ hstep, closed_unreached (fun x hx hseen => absurd hx hseen) hu hleft hstep⟩

/-- The nodes that are left are those that cannot be reached from the roots. -/
theorem mem_unreached_iff (hnodes : ∀ v, ∀ w ∈ next v, w ∈ nodes) {roots : List String}
    (hroots : ∀ r ∈ roots, r ∈ nodes) :
    v ∈ unreached next nodes roots ↔
      v ∈ nodes ∧ ¬ ∃ r ∈ roots, ReflTransGen (Edge next) r v := by
  constructor
  · intro h
    refine ⟨subset_of_mem_unreached h, ?_⟩
    rintro ⟨r, hr, hwalk⟩
    exact (not_mem_of_walk hnodes hroots hr hwalk).2 h
  · rintro ⟨hv, hnot⟩
    by_contra h
    exact hnot (reached_of_not_mem hv h)

end Graph

namespace Strategy

open Relation (ReflTransGen)

/-- Some trigger block leads to this id. -/
def Triggered (s : Strategy) (id : String) : Prop :=
  ∃ b ∈ s.blocks, b.category = .trigger ∧ ReflTransGen s.Leads b.id id

theorem mem_unreached (s : Strategy) {b : Block} (hb : b ∈ s.blocks) :
    b.id ∈ Graph.unreached s.successors s.nodes s.triggerIds ↔ ¬ s.Triggered b.id := by
  rw [Graph.mem_unreached_iff s.mem_nodes_of_mem_successors s.mem_nodes_of_mem_triggerIds,
    s.edge_successors]
  have hnode : b.id ∈ s.nodes := List.mem_append_left _ (List.mem_map_of_mem hb)
  constructor
  · rintro ⟨-, hnot⟩ ⟨t, ht, hcat, hwalk⟩
    exact hnot ⟨t.id, mem_triggerIds.2 ⟨t, ht, hcat, rfl⟩, hwalk⟩
  · intro hnot
    refine ⟨hnode, ?_⟩
    rintro ⟨r, hr, hwalk⟩
    obtain ⟨t, ht, hcat, rfl⟩ := mem_triggerIds.1 hr
    exact hnot ⟨t, ht, hcat, hwalk⟩

open Classical in
/-- The search finds the blocks that no trigger leads to, triggers themselves left out. -/
theorem findUnreachable_eq (s : Strategy) :
    s.findUnreachable =
      (s.blocks.filter fun b => ¬ s.Triggered b.id ∧ b.category ≠ .trigger).map (·.id) := by
  rw [findUnreachable]
  congr 1
  refine List.filter_congr fun b hb => ?_
  rw [Bool.eq_iff_iff]
  simp [s.mem_unreached hb]

end Strategy

end Tradeflow
