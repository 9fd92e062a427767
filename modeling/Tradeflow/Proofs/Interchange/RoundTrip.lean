/-
  The interchange form taken apart and compiled again. Compiling looks at a connection for its two
  ends only, and at a block for its id, category, settings and type; decompiling keeps these and
  makes up the rest. So the form that comes back can be written down without the strategy in
  between: `refreshed` keeps the nodes and edges and works out triggers, neighbours and hash from
  them.
  `compile_decompile`: this is what compiling a decompiled form gives, whatever the form says of
  its own triggers, neighbours and hash.
  `recompile_stable`: a compiled strategy comes back with the same hash and the same content, but
  for the types of triggers, and nothing changes from the second time on.
-/
import Tradeflow.Interchange.Compile

namespace Tradeflow

/-! ## What edges say of a node -/

namespace CompiledEdge

/-- The sources of the edges into a node, by input. -/
def inbound (edges : List CompiledEdge) (id : String) : Assoc (List String) :=
  (edges.filter (·.target == id)).foldl
    (fun m e => Assoc.update m e.targetInput [] (· ++ [e.source])) []

/-- The targets of the edges out of a node, by output. -/
def outbound (edges : List CompiledEdge) (id : String) : Assoc (List String) :=
  (edges.filter (·.source == id)).foldl
    (fun m e => Assoc.update m e.sourceOutput [] (· ++ [e.target])) []

/-- The targets of the edges out of a node, in order. -/
def successors (edges : List CompiledEdge) (id : String) : List String :=
  (edges.filter (·.source == id)).map (·.target)

end CompiledEdge

namespace Strategy

theorem inbound_eq (connections : List Connection) (id : String) :
    inbound connections id = CompiledEdge.inbound (connections.map compileEdge) id := by
  rw [inbound, CompiledEdge.inbound, List.filter_map, List.foldl_map]
  rfl

theorem outbound_eq (connections : List Connection) (id : String) :
    outbound connections id = CompiledEdge.outbound (connections.map compileEdge) id := by
  rw [outbound, CompiledEdge.outbound, List.filter_map, List.foldl_map]
  rfl

theorem successors_eq (s : Strategy) (id : String) :
    s.successors id = CompiledEdge.successors (s.connections.map compileEdge) id := by
  rw [successors, CompiledEdge.successors, List.filter_map, List.map_map]
  rfl

end Strategy

/-! ## The form that comes back -/

/-- A node with the neighbours that the edges give it. -/
def CompiledNode.refresh (edges : List CompiledEdge) (n : CompiledNode) : CompiledNode :=
  { n with
    inputs := CompiledEdge.inbound edges n.id
    outputs := CompiledEdge.outbound edges n.id }

/-- The trigger that a node stands for. Where the block of the node is drawn does not matter. -/
def CompiledNode.trigger (catalog : Catalog) (edges : List CompiledEdge) (n : CompiledNode) :
    CompiledTrigger :=
  ⟨n.id, Strategy.triggerType catalog (CompiledStrategy.decompileNode 0 n), n.config,
    CompiledEdge.successors edges n.id⟩

namespace CompiledStrategy

/-- What the hash is taken of, for nodes and edges. -/
def hashPayload (contents : List (String × Assoc Json)) (edges : List CompiledEdge) : Json :=
  .obj
    [("blocks", .arr (contents.map fun p => .obj [("id", .str p.1), ("config", .obj p.2)])),
     ("connections", .arr (edges.map fun e => .obj
       [("sourceBlockId", .str e.source), ("sourceOutputId", .str e.sourceOutput),
        ("targetBlockId", .str e.target), ("targetInputId", .str e.targetInput)]))]

def hashOf (contents : List (String × Assoc Json)) (edges : List CompiledEdge) : String :=
  Text.contentHash (Json.print .dense (hashPayload contents edges))

theorem hashPayload_eq (s : Strategy) :
    s.hashPayload = hashPayload (s.blocks.map fun b => (b.id, b.config))
      (s.connections.map Strategy.compileEdge) := by
  rw [Strategy.hashPayload, hashPayload, List.map_map, List.map_map]
  rfl

theorem hash_eq (s : Strategy) :
    s.hash = hashOf (s.blocks.map fun b => (b.id, b.config))
      (s.connections.map Strategy.compileEdge) := by
  rw [Strategy.hash, Strategy.hashText, hashPayload_eq, hashOf]

/-- The form with triggers, neighbours and hash worked out from its nodes and edges. -/
def refreshed (catalog : Catalog) (c : CompiledStrategy) : CompiledStrategy :=
  { c with
    triggers := (c.nodes.filter (·.category == .trigger)).map (CompiledNode.trigger catalog c.edges)
    nodes := c.nodes.map (CompiledNode.refresh c.edges)
    hash := hashOf (c.nodes.map fun n => (n.id, n.config)) c.edges }

/-- Taken apart and compiled again. -/
def recompile (catalog : Catalog) (c : CompiledStrategy) : CompiledStrategy :=
  c.decompile.compile catalog

/-! ## Decompiled blocks and connections -/

section MapIdx

variable {α β γ : Type} {f : Nat → α → β} {p : β → Bool} {q : α → Bool} {g : β → γ} {h : α → γ}

/-- Numbering the elements of a list and forgetting the numbers again. -/
theorem map_filter_mapIdx (xs : List α) (hp : ∀ i x, p (f i x) = q x)
    (hg : ∀ i x, g (f i x) = h x) :
    ((xs.mapIdx f).filter p).map g = (xs.filter q).map h := by
  induction xs generalizing f with
  | nil => rfl
  | cons x xs ih =>
    have hrest := ih (fun i y => hp (i + 1) y) (fun i y => hg (i + 1) y)
    rw [List.mapIdx_cons, List.filter_cons, List.filter_cons, hp]
    split
    · rw [List.map_cons, List.map_cons, hg, hrest]
    · exact hrest

theorem map_mapIdx_eq (xs : List α) (hg : ∀ i x, g (f i x) = h x) :
    (xs.mapIdx f).map g = xs.map h := by
  have hall := map_filter_mapIdx (p := fun _ => true) (q := fun _ => true) xs (fun _ _ => rfl) hg
  rwa [List.filter_eq_self.2 fun _ _ => rfl, List.filter_eq_self.2 fun _ _ => rfl] at hall

end MapIdx

theorem compileEdge_decompile (c : CompiledStrategy) :
    c.decompile.connections.map Strategy.compileEdge = c.edges := by
  have hedges : c.decompile.connections.map Strategy.compileEdge =
      c.edges.map fun e => e :=
    map_mapIdx_eq c.edges fun _ _ => rfl
  rw [hedges, List.map_id']

/-- A decompiled block has the type of its node, also if that is the empty text. -/
theorem typeName_decompileNode (index : Nat) (n : CompiledNode) :
    (decompileNode index n).givenType?.getD (decompileNode index n).name = n.type := by
  show (Option.filter (· != "") (some n.type)).getD n.type = n.type
  cases hgiven : Option.filter (· != "") (some n.type) with
  | none => rfl
  | some word =>
    have hword : some n.type = some word := (Option.filter_eq_some_iff.1 hgiven).1
    exact (Option.some.inj hword).symm

theorem compileNode_decompileNode (c : CompiledStrategy) (index : Nat) (n : CompiledNode) :
    Strategy.compileNode c.decompile (decompileNode index n) = n.refresh c.edges := by
  rw [Strategy.compileNode, typeName_decompileNode, Strategy.inbound_eq, Strategy.outbound_eq,
    compileEdge_decompile]
  rfl

theorem compileTrigger_decompileNode (catalog : Catalog) (c : CompiledStrategy) (index : Nat)
    (n : CompiledNode) :
    Strategy.compileTrigger catalog c.decompile (decompileNode index n) =
      n.trigger catalog c.edges := by
  rw [Strategy.compileTrigger, Strategy.successors_eq, compileEdge_decompile]
  rfl

theorem hash_decompile (c : CompiledStrategy) :
    c.decompile.hash = hashOf (c.nodes.map fun n => (n.id, n.config)) c.edges := by
  have hcontents : (c.decompile.blocks.map fun b => (b.id, b.config)) =
      c.nodes.map fun n => (n.id, n.config) :=
    map_mapIdx_eq c.nodes fun _ _ => rfl
  rw [hash_eq, compileEdge_decompile, hcontents]

/-- Compiling a decompiled form works out its triggers, neighbours and hash anew. -/
theorem compile_decompile (catalog : Catalog) (c : CompiledStrategy) :
    c.recompile catalog = c.refreshed catalog := by
  have htriggers : c.decompile.triggers.map (Strategy.compileTrigger catalog c.decompile) =
      (c.nodes.filter (·.category == .trigger)).map (CompiledNode.trigger catalog c.edges) :=
    map_filter_mapIdx c.nodes (fun _ _ => rfl) (compileTrigger_decompileNode catalog c)
  have hnodes : c.decompile.blocks.map (Strategy.compileNode c.decompile) =
      c.nodes.map (CompiledNode.refresh c.edges) :=
    map_mapIdx_eq c.nodes (compileNode_decompileNode c)
  rw [recompile, Strategy.compile, htriggers, hnodes, compileEdge_decompile, hash_decompile]
  rfl

/-! ## The second time -/

/-- Nodes that were worked out once are not changed again: their ids, settings and types are. -/
theorem refreshed_refreshed (catalog : Catalog) (c : CompiledStrategy) :
    (c.refreshed catalog).refreshed catalog = c.refreshed catalog := by
  have htriggers : ((c.nodes.map (CompiledNode.refresh c.edges)).filter
        (·.category == .trigger)).map (CompiledNode.trigger catalog c.edges) =
      (c.nodes.filter (·.category == .trigger)).map (CompiledNode.trigger catalog c.edges) := by
    rw [List.filter_map, List.map_map]
    rfl
  have hnodes : (c.nodes.map (CompiledNode.refresh c.edges)).map (CompiledNode.refresh c.edges) =
      c.nodes.map (CompiledNode.refresh c.edges) := by
    rw [List.map_map]
    rfl
  have hcontents : ((c.nodes.map (CompiledNode.refresh c.edges)).map fun n => (n.id, n.config)) =
      c.nodes.map fun n => (n.id, n.config) := by
    rw [List.map_map]
    rfl
  simp only [refreshed, htriggers, hnodes, hcontents]

/-- Two forms that differ at most in the types of their triggers. -/
structure AgreeButTriggerTypes (c d : CompiledStrategy) : Prop where
  id : c.id = d.id
  name : c.name = d.name
  version : c.version = d.version
  triggers : (c.triggers.map fun t => (t.id, t.config, t.nextNodes)) =
    d.triggers.map fun t => (t.id, t.config, t.nextNodes)
  nodes : c.nodes = d.nodes
  edges : c.edges = d.edges
  riskParams : c.riskParams = d.riskParams
  settings : c.settings = d.settings
  hash : c.hash = d.hash

theorem refresh_compileNode (s : Strategy) (b : Block) :
    (s.compileNode b).refresh (s.connections.map Strategy.compileEdge) = s.compileNode b := by
  rw [Strategy.compileNode, Strategy.inbound_eq, Strategy.outbound_eq]
  rfl

theorem refreshed_compile (catalog : Catalog) (s : Strategy) :
    ((s.compile catalog).refreshed catalog).AgreeButTriggerTypes (s.compile catalog) where
  id := rfl
  name := rfl
  version := rfl
  triggers := by
    -- The nodes of category trigger are the compiled trigger blocks, in the same order.
    show (((s.blocks.map s.compileNode).filter (·.category == .trigger)).map
        (CompiledNode.trigger catalog (s.connections.map Strategy.compileEdge))).map
          (fun t => (t.id, t.config, t.nextNodes)) =
      (s.triggers.map (Strategy.compileTrigger catalog s)).map
        fun t => (t.id, t.config, t.nextNodes)
    rw [List.filter_map, List.map_map, List.map_map, List.map_map]
    refine List.map_congr_left fun b _ => ?_
    show (b.id, b.config, CompiledEdge.successors (s.connections.map Strategy.compileEdge) b.id) =
      (b.id, b.config, s.successors b.id)
    rw [Strategy.successors_eq]
  nodes := by
    show (s.blocks.map s.compileNode).map
        (CompiledNode.refresh (s.connections.map Strategy.compileEdge)) = s.blocks.map s.compileNode
    rw [List.map_map]
    exact List.map_congr_left fun b _ => refresh_compileNode s b
  edges := rfl
  riskParams := rfl
  settings := rfl
  hash := by
    show hashOf ((s.blocks.map s.compileNode).map fun n => (n.id, n.config))
        (s.connections.map Strategy.compileEdge) = s.hash
    rw [hash_eq, List.map_map]
    rfl

/-- A compiled strategy comes back as it was but for the types of its triggers; any form at all,
taken apart and compiled twice, is what it was after the first time. -/
theorem recompile_stable (catalog : Catalog) :
    (∀ s : Strategy,
      ((s.compile catalog).recompile catalog).AgreeButTriggerTypes (s.compile catalog)) ∧
    ∀ c : CompiledStrategy, (c.recompile catalog).recompile catalog = c.recompile catalog := by
  constructor
  · intro s
    rw [compile_decompile]
    exact refreshed_compile catalog s
  · intro c
    rw [compile_decompile, compile_decompile]
    exact refreshed_refreshed catalog c

end CompiledStrategy

end Tradeflow
