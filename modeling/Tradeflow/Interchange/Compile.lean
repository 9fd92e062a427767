/-
  Strategies compiled to the interchange form and back. The hash covers ids, settings and the ends of
  connections; names, positions and labels do not count. What is decompiled has ports for the keys its
  node had, on a grid.
-/
import Tradeflow.Catalog.Basic
import Tradeflow.Interchange.Compiled
import Tradeflow.Json.Printer
import Tradeflow.Text.Units16

namespace Tradeflow

namespace Strategy

/-- What the hash of a strategy is taken of. -/
def hashPayload (s : Strategy) : Json :=
  .obj
    [("blocks", .arr (s.blocks.map fun b => .obj [("id", .str b.id), ("config", .obj b.config)])),
     ("connections", .arr (s.connections.map fun c => .obj
       [("sourceBlockId", .str c.sourceBlock), ("sourceOutputId", .str c.sourceOutput),
        ("targetBlockId", .str c.targetBlock), ("targetInputId", .str c.targetInput)]))]

def hashText (s : Strategy) : String := Json.print .dense s.hashPayload

def hash (s : Strategy) : String := Text.contentHash s.hashText

/-- The sources of the connections into a block, by input. -/
def inbound (connections : List Connection) (id : String) : Assoc (List String) :=
  (connections.filter (·.targetBlock == id)).foldl
    (fun m c => Assoc.update m c.targetInput [] (· ++ [c.sourceBlock])) []

/-- The targets of the connections out of a block, by output. -/
def outbound (connections : List Connection) (id : String) : Assoc (List String) :=
  (connections.filter (·.sourceBlock == id)).foldl
    (fun m c => Assoc.update m c.sourceOutput [] (· ++ [c.targetBlock])) []

/-- The type that a trigger is compiled with: as its settings say, else by its kind. -/
def triggerType (catalog : Catalog) (b : Block) : String :=
  match (b.setting? "type").bind Json.text? with
  | some s => if s = "" then (catalog.triggerOf b).word else s
  | none => (catalog.triggerOf b).word

def compileTrigger (catalog : Catalog) (s : Strategy) (b : Block) : CompiledTrigger :=
  ⟨b.id, triggerType catalog b, b.config, s.successors b.id⟩

def compileNode (s : Strategy) (b : Block) : CompiledNode :=
  ⟨b.id, b.givenType?.getD b.name, b.category, b.config, inbound s.connections b.id,
    outbound s.connections b.id⟩

def compileEdge (c : Connection) : CompiledEdge :=
  ⟨c.sourceBlock, c.sourceOutput, c.targetBlock, c.targetInput⟩

/-- The interchange form of a strategy. -/
def compile (catalog : Catalog) (s : Strategy) : CompiledStrategy where
  id := s.id
  name := s.name
  version := s.version
  triggers := s.triggers.map (compileTrigger catalog s)
  nodes := s.blocks.map (compileNode s)
  edges := s.connections.map compileEdge
  riskParams := s.riskParams
  settings := s.settings
  hash := s.hash

end Strategy

namespace CompiledStrategy

/-- Block number `index` on a grid of five columns. -/
def gridPosition (index : Nat) : Position :=
  ⟨100 + Float.ofNat (index % 5) * 200, 100 + Float.ofNat (index / 5) * 150⟩

/-- A port for a key of a node. -/
def decompilePort (side : PortSide) (key : String) : Port := ⟨key, side, .any, key, true, false⟩

def decompileNode (index : Nat) (n : CompiledNode) : Block where
  id := n.id
  category := n.category
  name := n.type
  type := some n.type
  description := ""
  version := "1.0.0"
  config := n.config
  position := gridPosition index
  inputs := (Assoc.keys n.inputs).map (decompilePort .input)
  outputs := (Assoc.keys n.outputs).map (decompilePort .output)
  enabled := true
  actionKind := none
  metadata := []

def decompileEdge (index : Nat) (e : CompiledEdge) : Connection :=
  ⟨"conn_" ++ toString index, e.source, e.sourceOutput, e.target, e.targetInput, none⟩

/-- An editable strategy with the content of an interchange form. -/
def decompile (c : CompiledStrategy) : Strategy where
  id := c.id
  name := c.name
  description := ""
  category := .custom
  version := c.version
  status := .draft
  blocks := c.nodes.mapIdx decompileNode
  connections := c.edges.mapIdx decompileEdge
  settings := c.settings
  riskParams := c.riskParams
  tags := []
  metadata := []

/-- Do two interchange forms agree in everything? Free-form settings are compared for themselves, as
not all that is in them is written. -/
def same (c d : CompiledStrategy) : Bool :=
  Json.same (codec.write c) (codec.write d) &&
    Json.sameItems (c.triggers.map (.obj ·.config)) (d.triggers.map (.obj ·.config)) &&
    Json.sameItems (c.nodes.map (.obj ·.config)) (d.nodes.map (.obj ·.config))

end CompiledStrategy

end Tradeflow
