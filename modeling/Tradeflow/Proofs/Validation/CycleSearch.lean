/-
  The depth-first search for a cycle. While it runs, a node is unseen, on the current path, or
  finished: seen and left again. `Searching` says what holds between two moves: finished nodes lead
  to finished nodes only and lie on no cycle, the nodes of the path are distinct and each leads to
  the next, and every successor of a node on the path is still pending, finished, or the next node
  of the path. Each of the three moves (to a new node, past a finished one, back from an exhausted
  one) keeps it.
  `Searching.ends`: a search that ends without a cycle has finished every node it has seen, and the
  path it returns otherwise is a `Lasso`.
  `answers_cycleFrom`: the nodes that one search has finished are what the next one starts with.
  `findCycle_decides`: the search over all triggers returns the empty list exactly if no cycle can
  be reached from a trigger, and a lasso from a trigger otherwise.
-/
import Mathlib.Data.List.Chain
import Mathlib.Data.List.Nodup
import Mathlib.Logic.Relation
import Tradeflow.Validation.Graph

namespace Tradeflow

namespace Graph

open Relation (ReflTransGen TransGen)

variable {next : String → List String} {nodes unseen : List String}

/-- Edges of the graph in which `next` gives the successors of a node. -/
def Edge (next : String → List String) (u v : String) : Prop := v ∈ next u

/-- A walk from `root` along edges that never repeats a node until its last one, which repeats an
earlier one: a simple path into a simple cycle. -/
structure Lasso (edge : String → String → Prop) (root : String) (path : List String) : Prop where
  two_le : 2 ≤ path.length
  head : path.head? = some root
  linked : path.IsChain edge
  distinct : path.dropLast.Nodup
  closes : ∃ w ∈ path.dropLast, path.getLast? = some w

/-! ## What a lasso shows -/

/-- A linked list with at least one edge is a walk of at least one step. -/
theorem transGen_of_isChain {edge : String → String → Prop} {u v : String} (mid : List String)
    (h : (u :: (mid ++ [v])).IsChain edge) : TransGen edge u v := by
  induction mid generalizing u with
  | nil => exact .single (List.isChain_cons_cons.1 h).1
  | cons w mid ih =>
    obtain ⟨step, rest⟩ := List.isChain_cons_cons.1 h
    exact .head step (ih rest)

/-- The repeated node of a lasso can be reached from its root, and from itself in one step or
more. -/
theorem Lasso.reaches_cycle {edge : String → String → Prop} {root : String} {path : List String}
    (h : Lasso edge root path) : ∃ v, ReflTransGen edge root v ∧ TransGen edge v v := by
  obtain ⟨w, hw, hlast⟩ := h.closes
  obtain ⟨before, after, hsplit⟩ := List.append_of_mem hw
  have hpath : path = before ++ w :: (after ++ [w]) := by
    have hback := List.dropLast_append_getLast? w hlast
    rw [hsplit] at hback
    simpa using hback.symm
  have hlinked := h.linked
  rw [hpath] at hlinked
  refine ⟨w, ?_, transGen_of_isChain after hlinked.right_of_append⟩
  cases before with
  | nil =>
    have : w = root := by simpa [hpath] using h.head
    rw [this]
  | cons r before =>
    have hroot : r = root := by simpa [hpath] using h.head
    have hwalk : (r :: (before ++ [w])).IsChain edge := by
      have hprefix : r :: (before ++ [w]) <+: r :: before ++ w :: (after ++ [w]) :=
        ⟨after ++ [w], by simp⟩
      exact hlinked.prefix hprefix
    exact hroot ▸ (transGen_of_isChain before hwalk).to_reflTransGen

/-! ## The invariant -/

/-- Seen, and not on the current path. -/
structure Finished (nodes unseen path : List String) (v : String) : Prop where
  node : v ∈ nodes
  seen : v ∉ unseen
  left : v ∉ path

/-- Beginning a node changes nothing about which nodes are finished. -/
theorem finished_push {path : List String} {w x : String} (hw : w ∈ unseen) :
    Finished nodes (without w unseen) (w :: path) x ↔ Finished nodes unseen path x := by
  constructor
  · intro ⟨hx, hseen, hleft⟩
    rw [List.mem_cons, not_or] at hleft
    exact ⟨hx, fun h => hseen (mem_without.2 ⟨h, hleft.1⟩), hleft.2⟩
  · intro ⟨hx, hseen, hleft⟩
    have hne : x ≠ w := fun h => hseen (h ▸ hw)
    exact ⟨hx, fun h => hseen (mem_without.1 h).1, by simp [hne, hleft]⟩

/-- Leaving a node finishes it and no other. -/
theorem finished_pop {path : List String} {v x : String} (hv : Finished nodes unseen path v) :
    Finished nodes unseen path x ↔ Finished nodes unseen (v :: path) x ∨ x = v := by
  constructor
  · intro ⟨hx, hseen, hleft⟩
    by_cases h : x = v
    · exact .inr h
    · exact .inl ⟨hx, hseen, by simp [h, hleft]⟩
  · rintro (⟨hx, hseen, hleft⟩ | rfl)
    · exact ⟨hx, hseen, fun h => hleft (List.mem_cons_of_mem _ h)⟩
    · exact hv

/-- What is known of the nodes that are finished: they lead to finished nodes only, and lie on no
cycle. -/
structure Settled (next : String → List String) (done : String → Prop) : Prop where
  closed : ∀ v, done v → ∀ w ∈ next v, done w
  acyclic : ∀ v, done v → ¬ TransGen (Edge next) v v

theorem Settled.congr {done done' : String → Prop} (h : Settled next done)
    (hdone : ∀ v, done' v ↔ done v) : Settled next done' := by
  have : done' = done := funext fun v => propext (hdone v)
  exact this ▸ h

theorem Settled.reach {done : String → Prop} (h : Settled next done) {u v : String} (hu : done u)
    (hwalk : ReflTransGen (Edge next) u v) : done v := by
  induction hwalk with
  | refl => exact hu
  | tail _ step ih => exact h.closed _ ih _ step

/-- A node all of whose successors are done may be counted as done: a cycle through it would lead
from one of them, hence through done nodes only, back to it. -/
theorem Settled.insert {done : String → Prop} (h : Settled next done) {v : String}
    (hv : ¬ done v) (hnext : ∀ w ∈ next v, done w) : Settled next fun x => done x ∨ x = v where
  closed := by
    rintro x (hx | rfl) w hw
    · exact .inl (h.closed x hx w hw)
    · exact .inl (hnext w hw)
  acyclic := by
    rintro x (hx | rfl) hcycle
    · exact h.acyclic x hx hcycle
    · obtain ⟨w, step, back⟩ := TransGen.head'_iff.1 hcycle
      exact hv (h.reach (hnext w step) back)

/-- From a node that is done no cycle can be reached. -/
theorem Settled.reaches_no_cycle {done : String → Prop} (h : Settled next done) {r : String}
    (hr : done r) (v : String) (hwalk : ReflTransGen (Edge next) r v) :
    ¬ TransGen (Edge next) v v :=
  h.acyclic v (h.reach hr hwalk)

/-- Every successor of a node on the stack is pending there, or done, or the node above. -/
def Accounted (next : String → List String) (done : String → Prop) :
    (above : Option String) → List Frame → Prop
  | _, [] => True
  | above, f :: below =>
    (∀ w ∈ next f.node, w ∈ f.pending ∨ done w ∨ above = some w)
      ∧ Accounted next done (some f.node) below

theorem Accounted.mono {done done' : String → Prop} (hdone : ∀ v, done v → done' v) :
    ∀ {above : Option String} {stack : List Frame},
      Accounted next done above stack → Accounted next done' above stack
  | _, [], _ => trivial
  | _, _ :: _, ⟨top, below⟩ =>
    ⟨fun w hw => (top w hw).imp_right (.imp_left (hdone w)), below.mono hdone⟩

/-- The node above may be dropped once it is done. -/
theorem Accounted.drop_above {done : String → Prop} {v : String} (hv : done v) :
    ∀ {stack : List Frame}, Accounted next done (some v) stack → Accounted next done none stack
  | [], _ => trivial
  | _ :: _, ⟨top, below⟩ => by
    refine ⟨fun w hw => ?_, below⟩
    rcases top w hw with h | h | h
    · exact .inl h
    · exact .inr (.inl h)
    · exact .inr (.inl (Option.some.inj h ▸ hv))

/-- What holds between two moves of a search that began at `root`. -/
structure Searching (next : String → List String) (nodes : List String) (root : String)
    (unseen : List String) (stack : List Frame) : Prop where
  known : ∀ v ∈ stack.map (·.node), v ∈ nodes ∧ v ∉ unseen
  distinct : (stack.map (·.node)).Nodup
  pending : ∀ f ∈ stack, ∀ w ∈ f.pending, w ∈ next f.node
  linked : (stack.map (·.node)).IsChain fun v u => Edge next u v
  start : ∀ v ∈ (stack.map (·.node)).getLast?, v = root
  settled : Settled next (Finished nodes unseen (stack.map (·.node)))
  accounted : Accounted next (Finished nodes unseen (stack.map (·.node))) none stack

/-! ## The three moves -/

section Moves

variable {root v w : String} {ws : List String} {below : List Frame}

theorem Searching.push (h : Searching next nodes root unseen (⟨v, w :: ws⟩ :: below))
    (hw : w ∈ unseen) (hnode : w ∈ nodes) :
    Searching next nodes root (without w unseen) (⟨w, next w⟩ :: ⟨v, ws⟩ :: below) := by
  obtain ⟨hknown, hdistinct, hpending, hlinked, hstart, hsettled, htop, hbelow⟩ := h
  have hstep : w ∈ next v := hpending _ List.mem_cons_self w List.mem_cons_self
  have hdone : ∀ x, Finished nodes (without w unseen) (w :: v :: below.map (·.node)) x ↔
      Finished nodes unseen (v :: below.map (·.node)) x := fun x => finished_push hw
  constructor
  case known =>
    intro x hx
    rcases List.mem_cons.1 hx with rfl | hx
    · exact ⟨hnode, fun h => (mem_without.1 h).2 rfl⟩
    · exact ⟨(hknown x hx).1, fun h => (hknown x hx).2 (mem_without.1 h).1⟩
  case distinct => exact List.nodup_cons.2 ⟨fun hmem => (hknown w hmem).2 hw, hdistinct⟩
  case pending =>
    rintro f (_ | ⟨_, _ | ⟨_, hf⟩⟩) x hx
    · exact hx
    · exact hpending _ List.mem_cons_self x (List.mem_cons_of_mem _ hx)
    · exact hpending f (List.mem_cons_of_mem _ hf) x hx
  case linked => exact List.isChain_cons_cons.2 ⟨hstep, hlinked⟩
  case start => simpa using hstart
  case settled => exact hsettled.congr hdone
  case accounted =>
    refine ⟨fun x hx => .inl hx, fun x hx => ?_, hbelow.mono fun x => (hdone x).2⟩
    rcases htop x hx with hpend | hfin | habove
    · rcases List.mem_cons.1 hpend with rfl | hpend
      · exact .inr (.inr rfl)
      · exact .inl hpend
    · exact .inr (.inl ((hdone x).2 hfin))
    · exact absurd habove (by simp)

theorem Searching.skip (h : Searching next nodes root unseen (⟨v, w :: ws⟩ :: below))
    (hw : Finished nodes unseen (v :: below.map (·.node)) w) :
    Searching next nodes root unseen (⟨v, ws⟩ :: below) := by
  obtain ⟨hknown, hdistinct, hpending, hlinked, hstart, hsettled, htop, hbelow⟩ := h
  constructor
  case known => exact hknown
  case distinct => exact hdistinct
  case pending =>
    rintro f (_ | ⟨_, hf⟩) x hx
    · exact hpending _ List.mem_cons_self x (List.mem_cons_of_mem _ hx)
    · exact hpending f (List.mem_cons_of_mem _ hf) x hx
  case linked => exact hlinked
  case start => exact hstart
  case settled => exact hsettled
  case accounted =>
    refine ⟨fun x hx => ?_, hbelow⟩
    rcases htop x hx with hpend | hrest
    · rcases List.mem_cons.1 hpend with rfl | hpend
      · exact .inr (.inl hw)
      · exact .inl hpend
    · exact .inr hrest

theorem Searching.pop (h : Searching next nodes root unseen (⟨v, []⟩ :: below)) :
    Searching next nodes root unseen below := by
  obtain ⟨hknown, hdistinct, hpending, hlinked, hstart, hsettled, htop, hbelow⟩ := h
  obtain ⟨hv, hdistinct⟩ := List.nodup_cons.1 hdistinct
  obtain ⟨hnode, hseen⟩ := hknown _ List.mem_cons_self
  have hdone : ∀ x, Finished nodes unseen (below.map (·.node)) x ↔
      Finished nodes unseen (v :: below.map (·.node)) x ∨ x = v :=
    fun x => finished_pop ⟨hnode, hseen, hv⟩
  have hnext : ∀ x ∈ next v, Finished nodes unseen (v :: below.map (·.node)) x := by
    intro x hx
    rcases htop x hx with hpend | hfin | habove
    · exact absurd hpend List.not_mem_nil
    · exact hfin
    · exact absurd habove (by simp)
  constructor
  case known => exact fun x hx => hknown x (List.mem_cons_of_mem _ hx)
  case distinct => exact hdistinct
  case pending => exact fun f hf => hpending f (List.mem_cons_of_mem _ hf)
  case linked => exact hlinked.tail
  case start =>
    intro x hx
    refine hstart x ?_
    cases below with
    | nil => simp at hx
    | cons f below => simpa using hx
  case settled =>
    have hnot : ¬ Finished nodes unseen (v :: below.map (·.node)) v :=
      fun h => h.left List.mem_cons_self
    exact (hsettled.insert hnot hnext).congr hdone
  case accounted =>
    exact (hbelow.mono fun x hx => (hdone x).2 (.inl hx)).drop_above ((hdone v).2 (.inr rfl))

end Moves

/-! ## Whole searches -/

/-- The path that closes a cycle is a lasso. -/
theorem Searching.lasso {root v w : String} {ws : List String} {below : List Frame}
    (h : Searching next nodes root unseen (⟨v, w :: ws⟩ :: below))
    (hw : w ∈ v :: below.map (·.node)) :
    Lasso (Edge next) root (pathOf (⟨v, ws⟩ :: below) ++ [w]) := by
  have hpath : pathOf (⟨v, ws⟩ :: below) = (v :: below.map (·.node)).reverse := rfl
  have hstep : w ∈ next v := h.pending _ List.mem_cons_self w List.mem_cons_self
  constructor
  case two_le => simp [hpath]
  case head =>
    have hlast : (v :: below.map (·.node)).getLast? = some root := by
      rw [List.getLast?_eq_some_getLast (List.cons_ne_nil _ _)]
      exact congrArg some (h.start _ (List.getLast?_eq_some_getLast (List.cons_ne_nil _ _)))
    rw [List.head?_append, hpath, List.head?_reverse, hlast]
    rfl
  case linked =>
    have hback : (w :: v :: below.map (·.node)).IsChain fun x u => Edge next u x :=
      List.isChain_cons_cons.2 ⟨hstep, h.linked⟩
    have := List.isChain_reverse.2 hback
    simpa [hpath] using this
  case distinct => rw [List.dropLast_concat, hpath]; exact List.nodup_reverse.2 h.distinct
  case closes =>
    refine ⟨w, ?_, by simp⟩
    rw [List.dropLast_concat, hpath]
    exact List.mem_reverse.2 hw

/-- What a search that began with some nodes unseen may end with. -/
def Ends (next : String → List String) (nodes : List String) (root : String)
    (unseen : List String) : Outcome → Prop
  | .cycle path => Lasso (Edge next) root path
  | .clear rest => Settled next (Finished nodes rest []) ∧ rest ⊆ unseen

theorem Ends.of_subset {root : String} {unseen' : List String} {o : Outcome}
    (h : Ends next nodes root unseen o) (hsub : unseen ⊆ unseen') :
    Ends next nodes root unseen' o := by
  cases o with
  | cycle path => exact h
  | clear rest => exact ⟨h.1, List.Subset.trans h.2 hsub⟩

/-- A search ends with a lasso, or with every node finished that it has seen. -/
theorem Searching.ends (hnodes : ∀ v, ∀ w ∈ next v, w ∈ nodes) {root : String}
    {stack : List Frame} (h : Searching next nodes root unseen stack) :
    Ends next nodes root unseen (search next unseen stack) := by
  fun_induction search next unseen stack with
  | case1 unseen => exact ⟨h.settled, List.Subset.refl _⟩
  | case2 unseen v below ih => exact ih h.pop
  | case3 unseen v w ws below hw ih =>
    have hnode : w ∈ nodes := hnodes v w (h.pending _ List.mem_cons_self w List.mem_cons_self)
    exact (ih (h.push hw hnode)).of_subset fun x hx => (mem_without.1 hx).1
  | case4 unseen v w ws below hw hon =>
    have hon : w ∈ v :: below.map (·.node) := by simpa using hon
    rw [if_pos (by simpa using hon)]
    exact h.lasso hon
  | case5 unseen v w ws below hw hoff ih =>
    have hoff : w ∉ v :: below.map (·.node) := by simpa using hoff
    have hnode : w ∈ nodes := hnodes v w (h.pending _ List.mem_cons_self w List.mem_cons_self)
    rw [if_neg (by simpa using hoff)]
    exact ih (h.skip ⟨hnode, hw, hoff⟩)

/-- A search may begin at an unseen node when the nodes seen before are settled. -/
theorem Searching.begin {root : String} (h : Settled next (Finished nodes unseen []))
    (hroot : root ∈ unseen) (hnode : root ∈ nodes) :
    Searching next nodes root (without root unseen) [⟨root, next root⟩] where
  known := by
    intro v hv
    have hv : v = root := by simpa using hv
    exact ⟨hv ▸ hnode, fun hmem => (mem_without.1 hmem).2 hv⟩
  distinct := List.nodup_singleton _
  pending := by
    intro f hf w hw
    have hf : f = ⟨root, next root⟩ := by simpa using hf
    rw [hf] at hw ⊢
    exact hw
  linked := .singleton _
  start := by simp
  settled := h.congr fun v => finished_push hroot
  accounted := ⟨fun w hw => .inl hw, trivial⟩

/-- What the searches from some roots may return: nothing if no root leads to a cycle, else a lasso
from one of them. -/
structure Answers (next : String → List String) (roots path : List String) : Prop where
  none_reached : path = [] → ∀ r ∈ roots, ∀ v, ReflTransGen (Edge next) r v →
    ¬ TransGen (Edge next) v v
  found : path ≠ [] → ∃ r ∈ roots, Lasso (Edge next) r path

theorem Answers.cons {roots path : List String} {r : String} (h : Answers next roots path)
    (hr : ∀ v, ReflTransGen (Edge next) r v → ¬ TransGen (Edge next) v v) :
    Answers next (r :: roots) path where
  none_reached := by
    intro hpath x hx
    rcases List.mem_cons.1 hx with rfl | hx
    · exact hr
    · exact h.none_reached hpath x hx
  found := by
    intro hpath
    obtain ⟨x, hx, hlasso⟩ := h.found hpath
    exact ⟨x, List.mem_cons_of_mem _ hx, hlasso⟩

theorem Answers.of_lasso {roots path : List String} {r : String} (h : Lasso (Edge next) r path) :
    Answers next (r :: roots) path where
  none_reached := by
    intro hpath
    have := h.two_le
    simp [hpath] at this
  found := fun _ => ⟨r, List.mem_cons_self, h⟩

theorem answers_cycleFrom (hnodes : ∀ v, ∀ w ∈ next v, w ∈ nodes) (roots : List String)
    (hroots : ∀ r ∈ roots, r ∈ nodes) (h : Settled next (Finished nodes unseen [])) :
    Answers next roots (cycleFrom next roots unseen) := by
  induction roots generalizing unseen with
  | nil => exact ⟨by simp, by simp [cycleFrom]⟩
  | cons r roots ih =>
    have hr : r ∈ nodes := hroots r List.mem_cons_self
    have hroots : ∀ x ∈ roots, x ∈ nodes := fun x hx => hroots x (List.mem_cons_of_mem _ hx)
    rw [cycleFrom]
    split
    case isTrue hunseen =>
      have hends := (Searching.begin h hunseen hr).ends hnodes
      split
      case h_1 path hcycle =>
        rw [hcycle] at hends
        exact .of_lasso hends
      case h_2 rest hsearch =>
        rw [hsearch] at hends
        obtain ⟨hsettled, hsub⟩ := hends
        have hseen : r ∉ rest := fun hmem => (mem_without.1 (hsub hmem)).2 rfl
        exact (ih hroots hsettled).cons (hsettled.reaches_no_cycle ⟨hr, hseen, List.not_mem_nil⟩)
    case isFalse hseen =>
      exact (ih hroots h).cons (h.reaches_no_cycle ⟨hr, hseen, List.not_mem_nil⟩)

end Graph

/-! ## Strategies -/

namespace Strategy

open Relation (ReflTransGen TransGen)

/-- Some connection leads from `u` to `v`, whether or not there are blocks with these ids. -/
def Leads (s : Strategy) (u v : String) : Prop :=
  ∃ c ∈ s.connections, c.sourceBlock = u ∧ c.targetBlock = v

/-- A directed cycle of connections can be reached from the id of a trigger block. -/
def ReachesCycle (s : Strategy) : Prop :=
  ∃ b ∈ s.blocks, b.category = .trigger ∧
    ∃ v, ReflTransGen s.Leads b.id v ∧ TransGen s.Leads v v

theorem edge_successors (s : Strategy) : Graph.Edge s.successors = s.Leads := by
  funext u v
  simp [Graph.Edge, successors, Leads, and_assoc]

theorem mem_nodes_of_mem_successors (s : Strategy) (v w : String) (h : w ∈ s.successors v) :
    w ∈ s.nodes := by
  obtain ⟨c, hc, rfl⟩ := List.mem_map.1 h
  exact List.mem_append_right _ (List.mem_map_of_mem (List.mem_filter.1 hc).1)

theorem mem_triggerIds {s : Strategy} {r : String} :
    r ∈ s.triggerIds ↔ ∃ b ∈ s.blocks, b.category = .trigger ∧ b.id = r := by
  simp [triggerIds, triggers, blocksOf, and_assoc]

theorem mem_nodes_of_mem_triggerIds (s : Strategy) (r : String) (h : r ∈ s.triggerIds) :
    r ∈ s.nodes := by
  obtain ⟨b, hb, _, rfl⟩ := mem_triggerIds.1 h
  exact List.mem_append_left _ (List.mem_map_of_mem hb)

/-- Before the first search no node is finished. -/
theorem answers_findCycle (s : Strategy) :
    Graph.Answers s.successors s.triggerIds s.findCycle :=
  Graph.answers_cycleFrom s.mem_nodes_of_mem_successors s.triggerIds s.mem_nodes_of_mem_triggerIds
    { closed := fun _ hv => absurd hv.node hv.seen
      acyclic := fun _ hv => absurd hv.node hv.seen }

theorem findCycle_lasso (s : Strategy) (h : s.findCycle ≠ []) :
    ∃ b ∈ s.blocks, b.category = .trigger ∧ Graph.Lasso s.Leads b.id s.findCycle := by
  obtain ⟨r, hr, hlasso⟩ := s.answers_findCycle.found h
  obtain ⟨b, hb, hcat, rfl⟩ := mem_triggerIds.1 hr
  exact ⟨b, hb, hcat, s.edge_successors ▸ hlasso⟩

theorem findCycle_eq_nil_iff (s : Strategy) : s.findCycle = [] ↔ ¬ s.ReachesCycle := by
  constructor
  · rintro h ⟨b, hb, hcat, v, hwalk, hcycle⟩
    have hnone := s.answers_findCycle.none_reached h b.id (mem_triggerIds.2 ⟨b, hb, hcat, rfl⟩) v
    rw [s.edge_successors] at hnone
    exact hnone hwalk hcycle
  · intro h
    by_contra hne
    obtain ⟨b, hb, hcat, hlasso⟩ := s.findCycle_lasso hne
    exact h ⟨b, hb, hcat, hlasso.reaches_cycle⟩

/-- The search returns the empty list exactly if no cycle can be reached from a trigger; a list that
is not empty walks from a trigger into a cycle and once around it. -/
theorem findCycle_decides (s : Strategy) :
    (s.findCycle = [] ↔ ¬ s.ReachesCycle) ∧
    (s.findCycle ≠ [] →
      ∃ b ∈ s.blocks, b.category = .trigger ∧ Graph.Lasso s.Leads b.id s.findCycle) :=
  ⟨s.findCycle_eq_nil_iff, s.findCycle_lasso⟩

end Strategy

end Tradeflow
