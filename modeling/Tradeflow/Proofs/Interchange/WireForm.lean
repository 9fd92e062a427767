/-
  The written form of strategies and of what is compiled from them. Each kind of record in them has
  keys of its own, words that tell its values apart, and defaults that are written out like any other
  value, so that it is read again as it was. Only free-form settings may lose something: numbers in
  them that are not finite, in whose place nothing is written (`Strategy.nulled`). They lose nothing
  exactly if all their numbers are finite (`Strategy.nulled_eq_self`).
  `wire_is_normalForm`: whatever is accepted as a strategy or as a compiled one, in any spelling, is
  brought into the normal form of what it was read as, up to such numbers.
-/
import Tradeflow.Proofs.Interchange.Text
import Tradeflow.Proofs.Record.NormalForm

namespace Tradeflow

open Codec Fields

/-! ## Words -/

theorem BlockCategory.codec_settles (c : BlockCategory) : codec.Settles c c :=
  oneOf_settles (by cases c <;> decide)

theorem PortType.codec_settles (t : PortType) : codec.Settles t t :=
  oneOf_settles (by cases t <;> decide)

theorem PortSide.codec_settles (s : PortSide) : codec.Settles s s :=
  oneOf_settles (by cases s <;> decide)

theorem StrategyCategory.codec_settles (c : StrategyCategory) : codec.Settles c c :=
  oneOf_settles (by cases c <;> decide)

theorem StrategyStatus.codec_settles (s : StrategyStatus) : codec.Settles s s :=
  oneOf_settles (by cases s <;> decide)

theorem ActionKind.codec_settles (k : ActionKind) : codec.Settles k k :=
  oneOf_settles (by cases k <;> decide)

theorem texts_settles (texts : List String) : (list text).Settles texts texts :=
  (texts_keeps texts).toSettles

theorem optionalText_settles (s : Option String) : (optional text).Settles s s :=
  optional_settles text_settles nofun s

/-! ## Settings and limits -/

theorem RetryPolicy.codec_settles (r : RetryPolicy) : codec.Settles r r := by
  refine record_settles ?_ (by decide) rfl rfl
  exact start_settles r r mk
    |>.opt _ _ (int_settles _)
    |>.opt _ _ (int_settles _)
    |>.opt _ _ (float_settles _)

theorem StrategySettings.codec_settles (s : StrategySettings) : codec.Settles s s := by
  refine record_settles ?_ (by decide) rfl rfl
  exact start_settles s s mk
    |>.opt _ _ (float_settles _)
    |>.opt _ _ (int_settles _)
    |>.opt _ _ s.retryPolicy.codec_settles
    |>.opt _ _ s.notifications.codec_keeps.toSettles
    |>.opt _ _ (texts_settles _)
    |>.opt _ _ (texts_settles _)

theorem RiskParams.codec_settles (r : RiskParams) : codec.Settles r r := by
  refine record_settles ?_ (by decide) rfl rfl
  exact start_settles r r mk
    |>.opt _ _ (float_settles _)
    |>.opt _ _ (float_settles _)
    |>.opt _ _ (float_settles _)
    |>.opt _ _ (float_settles _)
    |>.opt _ _ (float_settles _)
    |>.opt _ _ (float_settles _)
    |>.opt _ _ (int_settles _)
    |>.opt _ _ (int_settles _)

/-! ## Blocks and connections -/

theorem Position.codec_settles (p : Position) : codec.Settles p p := by
  refine record_settles ?_ (by decide) rfl rfl
  exact start_settles p p mk
    |>.opt _ _ (float_settles _)
    |>.opt _ _ (float_settles _)

theorem Port.codec_settles (p : Port) : codec.Settles p p := by
  refine record_settles ?_ (by decide) rfl rfl
  exact start_settles p p mk
    |>.req _ (text_settles _)
    |>.req _ p.side.codec_settles
    |>.req _ p.dataType.codec_settles
    |>.opt _ _ (text_settles _)
    |>.opt _ _ (bool_settles _)
    |>.opt _ _ (bool_settles _)

/-- A block as it is read from what is written for it. -/
def Block.nulled (b : Block) : Block :=
  { b with config := Json.nulledPairs b.config, metadata := Json.nulledPairs b.metadata }

/-- Are all numbers in the free-form parts of a block finite? -/
structure Block.FiniteParts (b : Block) : Prop where
  config : Json.allFinite (.obj b.config) = true
  metadata : Json.allFinite (.obj b.metadata) = true

theorem Block.nulled_eq_self {b : Block} : b.nulled = b ↔ b.FiniteParts := by
  constructor
  · intro h
    exact ⟨Json.nulledPairs_eq_self.1 (congrArg (·.config) h),
      Json.nulledPairs_eq_self.1 (congrArg (·.metadata) h)⟩
  · rintro ⟨hconfig, hmetadata⟩
    rw [nulled, Json.nulledPairs_eq_self.2 hconfig, Json.nulledPairs_eq_self.2 hmetadata]

theorem Block.codec_settles (b : Block) : codec.Settles b b.nulled := by
  refine record_settles ?_ (by decide) rfl rfl
  exact start_settles b b.nulled mk
    |>.req _ (text_settles _)
    |>.req _ b.category.codec_settles
    |>.req _ (text_settles _)
    |>.opt _ _ (optionalText_settles _)
    |>.opt _ _ (text_settles _)
    |>.opt _ _ (text_settles _)
    |>.opt _ _ (object_settles _)
    |>.opt _ _ b.position.codec_settles
    |>.opt _ _ (list_settles_self fun p _ => p.codec_settles)
    |>.opt _ _ (list_settles_self fun p _ => p.codec_settles)
    |>.opt _ _ (bool_settles _)
    |>.opt _ _ (optional_settles ActionKind.codec_settles nofun _)
    |>.opt _ _ (object_settles _)

theorem Connection.codec_settles (c : Connection) : codec.Settles c c := by
  refine record_settles ?_ (by decide) rfl rfl
  exact start_settles c c mk
    |>.req _ (text_settles _)
    |>.req _ (text_settles _)
    |>.req _ (text_settles _)
    |>.req _ (text_settles _)
    |>.req _ (text_settles _)
    |>.opt _ _ (optionalText_settles _)

/-! ## Strategies -/

namespace Strategy

/-- A strategy as it is read from what is written for it. -/
def nulled (s : Strategy) : Strategy :=
  { s with blocks := s.blocks.map Block.nulled, metadata := Json.nulledPairs s.metadata }

/-- Are all numbers in the free-form parts of a strategy finite? -/
structure FiniteParts (s : Strategy) : Prop where
  blocks : ∀ b ∈ s.blocks, b.FiniteParts
  metadata : Json.allFinite (.obj s.metadata) = true

theorem nulled_eq_self {s : Strategy} : s.nulled = s ↔ s.FiniteParts := by
  constructor
  · intro h
    have hblocks : s.blocks.map Block.nulled = s.blocks := congrArg (·.blocks) h
    exact ⟨fun b hb => Block.nulled_eq_self.1 (map_eq_self.1 hblocks b hb),
      Json.nulledPairs_eq_self.1 (congrArg (·.metadata) h)⟩
  · rintro ⟨hblocks, hmetadata⟩
    rw [nulled, map_eq_self.2 fun b hb => Block.nulled_eq_self.2 (hblocks b hb),
      Json.nulledPairs_eq_self.2 hmetadata]

theorem codec_settles (s : Strategy) : codec.Settles s s.nulled := by
  refine record_settles ?_ (by decide) rfl rfl
  exact start_settles s s.nulled mk
    |>.req _ (text_settles _)
    |>.req _ (text_settles _)
    |>.opt _ _ (text_settles _)
    |>.opt _ _ s.category.codec_settles
    |>.opt _ _ (text_settles _)
    |>.opt _ _ s.status.codec_settles
    |>.opt _ _ (list_settles_map fun b _ => b.codec_settles)
    |>.opt _ _ (list_settles_self fun c _ => c.codec_settles)
    |>.opt _ _ s.settings.codec_settles
    |>.opt _ _ s.riskParams.codec_settles
    |>.opt _ _ (texts_settles _)
    |>.opt _ _ (object_settles _)

end Strategy

/-! ## Compiled strategies -/

/-- A trigger as it is read from what is written for it. -/
def CompiledTrigger.nulled (t : CompiledTrigger) : CompiledTrigger :=
  { t with config := Json.nulledPairs t.config }

theorem CompiledTrigger.nulled_eq_self {t : CompiledTrigger} :
    t.nulled = t ↔ Json.allFinite (.obj t.config) = true := by
  rw [← Json.nulledPairs_eq_self]
  exact ⟨congrArg config, fun h => by rw [nulled, h]⟩

theorem CompiledTrigger.codec_settles (t : CompiledTrigger) : codec.Settles t t.nulled := by
  refine record_settles ?_ (by decide) rfl rfl
  exact start_settles t t.nulled mk
    |>.req _ (text_settles _)
    |>.req _ (text_settles _)
    |>.opt _ _ (object_settles _)
    |>.opt _ _ (texts_settles _)

/-- A node as it is read from what is written for it. -/
def CompiledNode.nulled (n : CompiledNode) : CompiledNode :=
  { n with config := Json.nulledPairs n.config }

theorem CompiledNode.nulled_eq_self {n : CompiledNode} :
    n.nulled = n ↔ Json.allFinite (.obj n.config) = true := by
  rw [← Json.nulledPairs_eq_self]
  exact ⟨congrArg config, fun h => by rw [nulled, h]⟩

theorem CompiledNode.codec_settles (n : CompiledNode) : codec.Settles n n.nulled := by
  refine record_settles ?_ (by decide) rfl rfl
  exact start_settles n n.nulled mk
    |>.req _ (text_settles _)
    |>.req _ (text_settles _)
    |>.req _ n.category.codec_settles
    |>.opt _ _ (object_settles _)
    |>.opt _ _ (map_settles fun p _ => texts_settles p.2)
    |>.opt _ _ (map_settles fun p _ => texts_settles p.2)

namespace CompiledStrategy

/-- A compiled strategy as it is read from what is written for it. -/
def nulled (c : CompiledStrategy) : CompiledStrategy :=
  { c with
    triggers := c.triggers.map CompiledTrigger.nulled
    nodes := c.nodes.map CompiledNode.nulled }

/-- Are all numbers in the settings of triggers and nodes finite? -/
structure FiniteParts (c : CompiledStrategy) : Prop where
  triggers : ∀ t ∈ c.triggers, Json.allFinite (.obj t.config) = true
  nodes : ∀ n ∈ c.nodes, Json.allFinite (.obj n.config) = true

theorem nulled_eq_self {c : CompiledStrategy} : c.nulled = c ↔ c.FiniteParts := by
  constructor
  · intro h
    have htriggers : c.triggers.map CompiledTrigger.nulled = c.triggers := congrArg (·.triggers) h
    have hnodes : c.nodes.map CompiledNode.nulled = c.nodes := congrArg (·.nodes) h
    exact ⟨fun t ht => CompiledTrigger.nulled_eq_self.1 (map_eq_self.1 htriggers t ht),
      fun n hn => CompiledNode.nulled_eq_self.1 (map_eq_self.1 hnodes n hn)⟩
  · rintro ⟨htriggers, hnodes⟩
    rw [nulled, map_eq_self.2 fun t ht => CompiledTrigger.nulled_eq_self.2 (htriggers t ht),
      map_eq_self.2 fun n hn => CompiledNode.nulled_eq_self.2 (hnodes n hn)]

theorem codec_settles (c : CompiledStrategy) : codec.Settles c c.nulled := by
  refine record_settles ?_ (by decide) rfl rfl
  exact start_settles c c.nulled mk
    |>.req _ (text_settles _)
    |>.req _ (text_settles _)
    |>.req _ (text_settles _)
    |>.opt _ _ (list_settles_map fun t _ => t.codec_settles)
    |>.opt _ _ (list_settles_map fun n _ => n.codec_settles)
    |>.opt _ _ (list_settles_self fun e _ => e.codec_keeps.toSettles)
    |>.opt _ _ c.riskParams.codec_settles
    |>.opt _ _ c.settings.codec_settles
    |>.req _ (text_settles _)

end CompiledStrategy

/-! ## Documents -/

namespace Strategy

/-- A document that is accepted as a strategy, or as a compiled one, is written in the normal form of
what it was read as. It is read again as that exactly if all numbers in the free-form parts are finite;
in general nothing is in the place of those that are not. -/
theorem wire_is_normalForm (doc wire : Json) :
    (codec.renew doc = .ok wire →
      ∃ s, codec.read doc = .ok s ∧ codec.NormalForm nulled s wire ∧
        (codec.read wire = .ok s ↔ s.FiniteParts)) ∧
    (CompiledStrategy.codec.renew doc = .ok wire →
      ∃ c, CompiledStrategy.codec.read doc = .ok c ∧
        CompiledStrategy.codec.NormalForm CompiledStrategy.nulled c wire ∧
        (CompiledStrategy.codec.read wire = .ok c ↔ c.FiniteParts)) := by
  constructor
  · intro h
    obtain ⟨s, hread, hnormal⟩ := normalForm codec_settles h
    refine ⟨s, hread, hnormal, ?_⟩
    rw [hnormal.read, Except.ok.injEq, nulled_eq_self]
  · intro h
    obtain ⟨c, hread, hnormal⟩ := normalForm CompiledStrategy.codec_settles h
    refine ⟨c, hread, hnormal, ?_⟩
    rw [hnormal.read, Except.ok.injEq, CompiledStrategy.nulled_eq_self]

/-- A strategy in both spellings of keys, with numbers and truth values as text and as one another, a
key that means nothing, and most of what has a default left out. -/
def lenient : Json :=
  .obj
    [("name", .str "Überwachung"), ("id", .str "s-1"), ("colour", .str "red"),
     ("blocks", .arr
       [.obj
         [("id", .str "act"), ("category", .str "action"), ("name", .str "Act"), ("type", .null),
          ("action_kind", .str "swap"), ("enabled", .str "Off"),
          ("position", .obj [("y", .bool true), ("x", .int 3)]),
          ("config", .obj [("from_token", .str "TON"), ("amount", .num 5), ("enabled", .str "Off")]),
          ("inputs", .arr
            [.obj [("data_type", .str "any"), ("type", .str "input"), ("id", .str "in"),
              ("required", .int 0)]])]]),
     ("connections", .arr
       [.obj [("id", .str "c0"), ("source_block_id", .str "watch"), ("sourceOutputId", .str "out"),
         ("targetBlockId", .str "act"), ("target_input_id", .str "in")]]),
     ("risk_params", .obj
       [("max_daily_loss", .str " 2.5 "), ("maxTradesPerDay", .num 7),
        ("cooldownSeconds", .str "1_000.0")])]

/-- What that is read as. -/
def lenientRead : Strategy where
  id := "s-1"
  name := "Überwachung"
  description := ""
  category := .custom
  version := "1.0.0"
  status := .draft
  blocks :=
    [⟨"act", .action, "Act", none, "", "1.0.0",
      [("from_token", .str "TON"), ("amount", .num 5), ("enabled", .str "Off")], ⟨3, 1⟩,
      [⟨"in", .input, .any, "", false, false⟩], [], false, some .swap, []⟩]
  connections := [⟨"c0", "watch", "out", "act", "in", none⟩]
  settings := .standard
  riskParams := { RiskParams.standard with
    maxDailyLoss := 2.5, maxTradesPerDay := 7, cooldownSeconds := 1000 }
  tags := []
  metadata := []

/-- A compiled strategy in both spellings of keys: an edge under the name of its field, a node with
neighbours, and settings with text and whole numbers for what they should be. -/
def lenientForm : Json :=
  .obj
    [("hash", .str "00000000"), ("version", .str "2"), ("name", .str ""), ("id", .str "s-1"),
     ("edges", .arr
       [.obj [("from_", .str "watch"), ("fromOutput", .str "out"), ("to", .str "act"),
         ("to_input", .str "in")]]),
     ("nodes", .arr
       [.obj [("id", .str "act"), ("type", .str "swap"), ("category", .str "action"),
         ("inputs", .obj [("in", .arr [.str "watch"]), ("fee", .arr [])]), ("x", .int 1)]]),
     ("triggers", .arr
       [.obj [("id", .str "watch"), ("type", .str ""), ("next_nodes", .arr [.str "act"])]]),
     ("config", .obj
       [("retryPolicy", .obj [("backoff_multiplier", .str "+5e-1"), ("maxRetries", .bool true)]),
        ("notifications", .obj [("channels", .arr []), ("on_error", .str "NO")])])]

def lenientFormRead : CompiledStrategy where
  id := "s-1"
  name := ""
  version := "2"
  triggers := [⟨"watch", "", [], ["act"]⟩]
  nodes := [⟨"act", "swap", .action, [], [("in", ["watch"]), ("fee", [])], []⟩]
  edges := [⟨"watch", "out", "act", "in"⟩]
  riskParams := .standard
  settings := { StrategySettings.standard with
    retryPolicy := ⟨1, 1000, 0.5⟩
    notifications := ⟨true, false, true, true, []⟩ }
  hash := "00000000"

theorem lenient_normalForm :
    codec.renew lenient = .ok (codec.write lenientRead) ∧
    (∃ s, codec.read lenient = .ok s ∧ codec.NormalForm nulled s (codec.write lenientRead) ∧
      (codec.read (codec.write lenientRead) = .ok s ↔ s.FiniteParts)) ∧
    CompiledStrategy.codec.renew lenientForm =
      .ok (CompiledStrategy.codec.write lenientFormRead) ∧
    ∃ c, CompiledStrategy.codec.read lenientForm = .ok c ∧
      CompiledStrategy.codec.NormalForm CompiledStrategy.nulled c
        (CompiledStrategy.codec.write lenientFormRead) ∧
      (CompiledStrategy.codec.read (CompiledStrategy.codec.write lenientFormRead) = .ok c ↔
        c.FiniteParts) := by
  have hplain : codec.renew lenient = .ok (codec.write lenientRead) := rfl
  have hform : CompiledStrategy.codec.renew lenientForm =
      .ok (CompiledStrategy.codec.write lenientFormRead) := rfl
  exact ⟨hplain, (wire_is_normalForm _ _).1 hplain, hform, (wire_is_normalForm _ _).2 hform⟩

/-- A strategy with one setting, the number `1e999`, which is too large for a double. -/
def boundless : Json :=
  .obj
    [("id", .str "s"), ("name", .str "S"),
     ("blocks", .arr
       [.obj
         [("id", .str "b"), ("category", .str "data"), ("name", .str "B"),
          ("config", .obj [("limit", .num (Double.ofDecimal false 1 999))])]])]

/-- What that is read as; all that has a default has it. -/
def boundlessRead : Strategy where
  id := "s"
  name := "S"
  description := ""
  category := .custom
  version := "1.0.0"
  status := .draft
  blocks :=
    [⟨"b", .data, "B", none, "", "1.0.0", [("limit", .num (Double.ofDecimal false 1 999))], .origin,
      [], [], true, none, []⟩]
  connections := []
  settings := .standard
  riskParams := .standard
  tags := []
  metadata := []

/-- Such a setting is lost, with all fields that are doubles finite. -/
theorem boundless_setting_is_lost :
    codec.read boundless = .ok boundlessRead ∧
    boundlessRead.settings.Finite ∧ boundlessRead.riskParams.Finite ∧
    (∀ b ∈ boundlessRead.blocks,
      Double.isFinite b.position.x = true ∧ Double.isFinite b.position.y = true) ∧
    ∃ wire, codec.renew boundless = .ok wire ∧ ∃ s, codec.read wire = .ok s ∧ s ≠ boundlessRead := by
  have hread : codec.read boundless = .ok boundlessRead := rfl
  have hsettles := codec_settles boundlessRead
  have hinfinite : ¬ boundlessRead.FiniteParts := by
    intro h
    have hconfig := (h.blocks _ (List.mem_singleton.2 rfl)).config
    exact absurd hconfig (by decide)
  refine ⟨hread, ⟨by decide, ⟨by decide⟩⟩,
    ⟨by decide, by decide, by decide, by decide, by decide, by decide⟩,
    List.forall_mem_singleton.2 ⟨by decide, by decide⟩, codec.write boundlessRead,
    renew_eq_ok.2 ⟨_, hread, rfl⟩, boundlessRead.nulled, hsettles.read, ?_⟩
  exact fun h => hinfinite (nulled_eq_self.1 h)

end Strategy

end Tradeflow
