/-
  The catalog of block types: templates for blocks with ports, a description of their settings and
  default settings. A type registered again keeps its place. The catalog also tells what an action or a
  trigger block does, from what the block says itself, else from its type, else from its name.
-/
import Tradeflow.Strategy.Wire
import Tradeflow.Text.Basic
import Tradeflow.Text.Casing

namespace Tradeflow

/-- The kind of value of a setting. -/
inductive SettingType where
  | string
  | number
  | boolean
  | array
  | object
  deriving DecidableEq, Repr

def SettingType.all : List SettingType := [.string, .number, .boolean, .array, .object]

def SettingType.word : SettingType → String
  | .string => "string"
  | .number => "number"
  | .boolean => "boolean"
  | .array => "array"
  | .object => "object"

/-- The description of one setting. -/
structure SettingSpec where
  type : SettingType
  title : String
  description : Option String
  fallback : Json
  choices : Option (List Json)
  least : Option Float
  most : Option Float

/-- The word that every description of settings carries as its type. -/
inductive SettingsType where
  | object
  deriving DecidableEq, Repr

/-- The description of the settings of a block type. -/
structure SettingsSpec where
  type : SettingsType
  properties : Assoc SettingSpec
  required : List String

def SettingsSpec.none : SettingsSpec := ⟨.object, [], []⟩

/-- A template for blocks. -/
structure BlockType where
  type : String
  category : BlockCategory
  name : String
  description : String
  inputs : List Port
  outputs : List Port
  settings : SettingsSpec
  defaults : Assoc Json
  actionKind : Option ActionKind
  triggerKind : Option TriggerKind
  version : String

def SettingSpec.codec : Codec SettingSpec :=
  .record (.plain "ConfigProperty") <| Fields.start SettingSpec SettingSpec.mk
    |>.req "type" (.oneOf .notALiteral SettingType.all SettingType.word) (·.type)
    |>.req "title" .text (·.title)
    |>.opt "description" (.optional .text) none (·.description)
    |>.opt "default" .any .null (·.fallback)
    |>.opt "enum" (.optional (.list .any)) none (·.choices)
    |>.opt "min" (.optional .float) none (·.least)
    |>.opt "max" (.optional .float) none (·.most)

def SettingsSpec.codec : Codec SettingsSpec :=
  .record (.plain "ConfigSchema") <| Fields.start SettingsSpec SettingsSpec.mk
    |>.opt "type" (.oneOf .notALiteral [.object] fun _ => "object") .object (·.type)
    |>.opt "properties" (.map SettingSpec.codec) [] (·.properties)
    |>.opt "required" (.list .text) [] (·.required)

def BlockType.codec : Codec BlockType :=
  .record (.plain "BlockTypeDefinition") <| Fields.start BlockType BlockType.mk
    |>.req "type" .text (·.type)
    |>.req "category" BlockCategory.codec (·.category)
    |>.req "name" .text (·.name)
    |>.opt "description" .text "" (·.description)
    |>.opt "inputs" (.list Port.codec) [] (·.inputs)
    |>.opt "outputs" (.list Port.codec) [] (·.outputs)
    |>.opt ⟨"config_schema", "configSchema"⟩ SettingsSpec.codec .none (·.settings)
    |>.opt ⟨"default_config", "defaultConfig"⟩ .object [] (·.defaults)
    |>.opt ⟨"action_kind", "actionKind"⟩ (.optional ActionKind.codec) none (·.actionKind)
    |>.opt ⟨"trigger_kind", "triggerKind"⟩ (.optional TriggerKind.codec) none (·.triggerKind)
    |>.opt "version" .text "1.0.0" (·.version)

/-- Block types by name, in order of first registration. -/
structure Catalog where
  types : Assoc BlockType

namespace Catalog

def empty : Catalog := ⟨[]⟩

/-- Adds or replaces a block type. -/
def register (c : Catalog) (t : BlockType) : Catalog := ⟨Assoc.set c.types t.type t⟩

def get? (c : Catalog) (type : String) : Option BlockType := Assoc.get? c.types type

/-- All block types in order. -/
def all (c : Catalog) : List BlockType := c.types.map (·.2)

/-- The block types of a category, given by its name. -/
def ofCategory (c : Catalog) (category : String) : List BlockType :=
  c.all.filter (·.category.word == category)

/-- A new block of a registered type. -/
def create? (c : Catalog) (type id : String) (position : Option Position) : Option Block :=
  (c.get? type).map fun t =>
    { id := id, category := t.category, name := t.name, type := some t.type
      description := t.description, version := t.version, config := t.defaults
      position := position.getD .origin, inputs := t.inputs, outputs := t.outputs
      enabled := true, actionKind := t.actionKind, metadata := [] }

/-- What parts of a block's name say about its action. The order counts: a name with "unstake" also
has "stake" in it. -/
def actionWords : List (String × ActionKind) :=
  [("swap", .swap), ("unstake", .unstake), ("stake", .stake), ("transfer", .transfer),
    ("remove liquidity", .removeLiquidity), ("liquidity", .provideLiquidity),
    ("rebalance", .rebalance), ("dca", .dca), ("notif", .notification)]

/-- What a name says about the action. -/
def actionOfName (name : String) : ActionKind :=
  let lowered := Text.lower name
  match actionWords.find? fun p => Text.contains lowered p.1 with
  | some (_, kind) => kind
  | none => .other

/-- The registered type of a block. -/
def typeOf? (c : Catalog) (b : Block) : Option BlockType := b.givenType?.bind c.get?

/-- What an action block does. -/
def actionOf (c : Catalog) (b : Block) : ActionKind :=
  match b.actionKind with
  | some kind => kind
  | none =>
    match (c.typeOf? b).bind (·.actionKind) with
    | some kind => kind
    | none => actionOfName b.name

/-- The kind of trigger that a block's own settings name. -/
def triggerSetting? (b : Block) : Option TriggerKind :=
  ((b.setting? "type").bind Json.text?).bind TriggerKind.ofWord?

/-- The kind of the first trigger type with a kind and this name. -/
def triggerOfName? (c : Catalog) (name : String) : Option TriggerKind :=
  c.all.findSome? fun t =>
    if t.category == .trigger && t.name == name then t.triggerKind else none

/-- What makes a trigger block fire. -/
def triggerOf (c : Catalog) (b : Block) : TriggerKind :=
  match triggerSetting? b with
  | some kind => kind
  | none =>
    match (c.typeOf? b).bind (·.triggerKind) with
    | some kind => kind
    | none => (c.triggerOfName? b.name).getD .manual

end Catalog

end Tradeflow
