/-
  The interchange form of a strategy: flat lists of triggers, nodes and edges, the settings, and a hash
  of the content. It is written as JSON and as YAML, and read from JSON.
-/
import Tradeflow.Json.Printer
import Tradeflow.Strategy.Wire
import Tradeflow.Yaml.Printer

namespace Tradeflow

structure CompiledTrigger where
  id : String
  type : String
  config : Assoc Json
  nextNodes : List String

/-- A block with the ids of its neighbours under each of its ports. -/
structure CompiledNode where
  id : String
  type : String
  category : BlockCategory
  config : Assoc Json
  inputs : Assoc (List String)
  outputs : Assoc (List String)

structure CompiledEdge where
  source : String
  sourceOutput : String
  target : String
  targetInput : String
  deriving DecidableEq, Repr

structure CompiledStrategy where
  id : String
  name : String
  version : String
  triggers : List CompiledTrigger
  nodes : List CompiledNode
  edges : List CompiledEdge
  riskParams : RiskParams
  settings : StrategySettings
  hash : String

def CompiledTrigger.codec : Codec CompiledTrigger :=
  .record (.plain "CompiledTrigger") <| Fields.start CompiledTrigger CompiledTrigger.mk
    |>.req "id" .text (·.id)
    |>.req "type" .text (·.type)
    |>.opt "config" .object [] (·.config)
    |>.opt ⟨"next_nodes", "nextNodes"⟩ (.list .text) [] (·.nextNodes)

def CompiledNode.codec : Codec CompiledNode :=
  .record (.plain "CompiledNode") <| Fields.start CompiledNode CompiledNode.mk
    |>.req "id" .text (·.id)
    |>.req "type" .text (·.type)
    |>.req "category" BlockCategory.codec (·.category)
    |>.opt "config" .object [] (·.config)
    |>.opt "inputs" (.map (.list .text)) [] (·.inputs)
    |>.opt "outputs" (.map (.list .text)) [] (·.outputs)

def CompiledEdge.codec : Codec CompiledEdge :=
  .record (.plain "CompiledEdge") <| Fields.start CompiledEdge CompiledEdge.mk
    |>.req ⟨"from_", "from"⟩ .text (·.source)
    |>.req ⟨"from_output", "fromOutput"⟩ .text (·.sourceOutput)
    |>.req "to" .text (·.target)
    |>.req ⟨"to_input", "toInput"⟩ .text (·.targetInput)

def CompiledStrategy.codec : Codec CompiledStrategy :=
  .record (.fixed "CompiledStrategy") <| Fields.start CompiledStrategy CompiledStrategy.mk
    |>.req "id" .text (·.id)
    |>.req "name" .text (·.name)
    |>.req "version" .text (·.version)
    |>.opt "triggers" (.list CompiledTrigger.codec) [] (·.triggers)
    |>.opt "nodes" (.list CompiledNode.codec) [] (·.nodes)
    |>.opt "edges" (.list CompiledEdge.codec) [] (·.edges)
    |>.opt ⟨"risk_params", "riskParams"⟩ RiskParams.codec .standard (·.riskParams)
    |>.opt "config" StrategySettings.codec .standard (·.settings)
    |>.req "hash" .text (·.hash)

namespace CompiledStrategy

/-- JSON text, one item a line. -/
def toText (c : CompiledStrategy) : String := Json.print .indented (codec.write c)

/-- YAML text with the fields in the order of the interchange form. -/
def toYaml (c : CompiledStrategy) : String :=
  match codec.write c with
  | .obj pairs => Yaml.print pairs
  | _ => ""

/-- The interchange form that a document stands for. -/
def ofDocument (doc : Json) : Except Fault CompiledStrategy :=
  (codec.read doc).mapError fun
    | .rejected ps => .interchangeForm ps
    | e => e

/-- The interchange form that JSON text stands for. -/
def ofText (s : String) : Except Fault CompiledStrategy :=
  match Json.ofText s with
  | .error e => .error (.interchangeText (.notDocument e))
  | .ok doc => ofDocument doc

/-- The interchange form that JSON text given as bytes stands for. -/
def ofBytes (bytes : List UInt8) : Except Fault CompiledStrategy :=
  match Json.ofBytes bytes with
  | .error e => .error (.interchangeText e)
  | .ok doc => ofDocument doc

end CompiledStrategy

end Tradeflow
