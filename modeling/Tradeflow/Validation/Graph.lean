/-
  The graph of a strategy: its nodes are ids, its edges lead from the source to the target of each
  connection, whether or not there is a block of that id. Searched depth first for a cycle, and breadth
  first for what can be reached.
-/
import Tradeflow.Strategy.Basic

namespace Tradeflow

namespace Graph

/-- A node on the current path, with the successors still to be looked at. -/
structure Frame where
  node : String
  pending : List String

/-- The nodes from the start of the path to its end; the stack has the end on top. -/
def pathOf (stack : List Frame) : List String := (stack.map (·.node)).reverse

/-- What is left to look at on a path. -/
def work : List Frame → Nat
  | [] => 0
  | f :: below => f.pending.length + 1 + work below

/-- What a search ends with: a cycle it came upon, or the nodes it has not seen. -/
inductive Outcome where
  | cycle (path : List String)
  | clear (unseen : List String)

/-- The nodes other than one. -/
def without (w : String) (xs : List String) : List String := xs.filter (· != w)

theorem mem_without {v w : String} {xs : List String} : v ∈ without w xs ↔ v ∈ xs ∧ v ≠ w := by
  simp [without]

theorem length_without_lt {w : String} {xs : List String} (h : w ∈ xs) :
    (without w xs).length < xs.length := by
  have : ∃ x ∈ xs, ¬ (x != w) = true := ⟨w, h, by simp⟩
  exact List.length_filter_lt_length_iff_exists.2 this

/-- Continues the path to a successor of its end. A successor that is on the path closes a cycle, one
seen before is passed over, and a new one becomes the end of the path; with no successor left, the
path goes back one node. -/
def search (next : String → List String) (unseen : List String) (stack : List Frame) : Outcome :=
  match stack with
  | [] => .clear unseen
  | ⟨_, []⟩ :: below => search next unseen below
  | ⟨v, w :: ws⟩ :: below =>
    if w ∈ unseen then
      search next (without w unseen) (⟨w, next w⟩ :: ⟨v, ws⟩ :: below)
    else if (v :: below.map (·.node)).contains w then
      .cycle (pathOf (⟨v, ws⟩ :: below) ++ [w])
    else search next unseen (⟨v, ws⟩ :: below)
termination_by (unseen.length, work stack)
decreasing_by
  · apply Prod.Lex.right; simp [work]
  · apply Prod.Lex.left; exact length_without_lt (by assumption)
  · apply Prod.Lex.right; simp [work]

/-- The first cycle found from the roots in turn, as the path that leads to it and back to one of its
own nodes; empty if there is none. -/
def cycleFrom (next : String → List String) : (roots unseen : List String) → List String
  | [], _ => []
  | r :: roots, unseen =>
    if r ∈ unseen then
      match search next (without r unseen) [⟨r, next r⟩] with
      | .cycle path => path
      | .clear unseen => cycleFrom next roots unseen
    else cycleFrom next roots unseen

/-- The nodes among `unseen` that cannot be reached from the nodes in the queue. -/
def unreached (next : String → List String) (unseen queue : List String) : List String :=
  match queue with
  | [] => unseen
  | v :: rest =>
    if v ∈ unseen then unreached next (without v unseen) (rest ++ next v)
    else unreached next unseen rest
termination_by (unseen.length, queue.length)
decreasing_by
  · apply Prod.Lex.left; exact length_without_lt (by assumption)
  · apply Prod.Lex.right; simp

end Graph

namespace Strategy

/-- Every id that a block or the end of a connection has. -/
def nodes (s : Strategy) : List String :=
  s.blocks.map (·.id) ++ s.connections.map (·.targetBlock)

def triggerIds (s : Strategy) : List String := s.triggers.map (·.id)

/-- A cycle that can be reached from a trigger, or the empty list. -/
def findCycle (s : Strategy) : List String :=
  Graph.cycleFrom s.successors s.triggerIds s.nodes

/-- The ids of the blocks that no trigger leads to, triggers themselves left out. -/
def findUnreachable (s : Strategy) : List String :=
  let unreached := Graph.unreached s.successors s.nodes s.triggerIds
  (s.blocks.filter fun b => unreached.contains b.id && b.category != .trigger).map (·.id)

end Strategy

end Tradeflow
