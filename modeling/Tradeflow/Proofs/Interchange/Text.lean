/-
  The interchange form as text. A form is written as a document and read by its codec, which keeps
  it when the documents in it are well formed, its doubles finite, and the neighbours of a node
  under different keys (`CompiledStrategy.WellFormed`); the text of a well-formed document is read
  as that document. What is compiled has neighbours under different keys however many connections
  share a port.
  `ofText_toText_compile`: for a strategy with well-formed settings the text is read as what was
  compiled, and taking that apart and compiling it again gives the hash there was.
-/
import Tradeflow.Interchange.Compiled
import Tradeflow.Proofs.Interchange.RoundTrip
import Tradeflow.Proofs.Record.Lossless

namespace Tradeflow

open Codec Fields

/-! ## Settings and limits -/

structure RetryPolicy.Finite (r : RetryPolicy) : Prop where
  backoffMultiplier : Double.isFinite r.backoffMultiplier = true

structure StrategySettings.Finite (s : StrategySettings) : Prop where
  maxGasPerExecution : Double.isFinite s.maxGasPerExecution = true
  retryPolicy : s.retryPolicy.Finite

structure RiskParams.Finite (r : RiskParams) : Prop where
  maxPositionSize : Double.isFinite r.maxPositionSize = true
  maxDailyLoss : Double.isFinite r.maxDailyLoss = true
  maxDrawdown : Double.isFinite r.maxDrawdown = true
  stopLossPercent : Double.isFinite r.stopLossPercent = true
  takeProfitPercent : Double.isFinite r.takeProfitPercent = true
  maxSlippage : Double.isFinite r.maxSlippage = true

theorem BlockCategory.codec_keeps (c : BlockCategory) : codec.Keeps c :=
  oneOf_keeps (by cases c <;> decide)

theorem Channel.codec_keeps (c : Channel) : codec.Keeps c := oneOf_keeps (by cases c <;> decide)

theorem texts_keeps (texts : List String) : (list text).Keeps texts :=
  list_keeps fun s _ => text_keeps s

theorem RetryPolicy.codec_keeps {r : RetryPolicy} (h : r.Finite) : codec.Keeps r := by
  refine record_keeps ?_ (by decide) rfl rfl
  exact start_keeps r mk
    |>.opt _ _ (int_keeps _)
    |>.opt _ _ (int_keeps _)
    |>.opt _ _ (float_keeps h.backoffMultiplier)

theorem NotificationSettings.codec_keeps (n : NotificationSettings) : codec.Keeps n := by
  refine record_keeps ?_ (by decide) rfl rfl
  exact start_keeps n mk
    |>.opt _ _ (bool_keeps _)
    |>.opt _ _ (bool_keeps _)
    |>.opt _ _ (bool_keeps _)
    |>.opt _ _ (bool_keeps _)
    |>.opt _ _ (list_keeps fun c _ => c.codec_keeps)

theorem StrategySettings.codec_keeps {s : StrategySettings} (h : s.Finite) : codec.Keeps s := by
  refine record_keeps ?_ (by decide) rfl rfl
  exact start_keeps s mk
    |>.opt _ _ (float_keeps h.maxGasPerExecution)
    |>.opt _ _ (int_keeps _)
    |>.opt _ _ (RetryPolicy.codec_keeps h.retryPolicy)
    |>.opt _ _ s.notifications.codec_keeps
    |>.opt _ _ (texts_keeps _)
    |>.opt _ _ (texts_keeps _)

theorem RiskParams.codec_keeps {r : RiskParams} (h : r.Finite) : codec.Keeps r := by
  refine record_keeps ?_ (by decide) rfl rfl
  exact start_keeps r mk
    |>.opt _ _ (float_keeps h.maxPositionSize)
    |>.opt _ _ (float_keeps h.maxDailyLoss)
    |>.opt _ _ (float_keeps h.maxDrawdown)
    |>.opt _ _ (float_keeps h.stopLossPercent)
    |>.opt _ _ (float_keeps h.takeProfitPercent)
    |>.opt _ _ (float_keeps h.maxSlippage)
    |>.opt _ _ (int_keeps _)
    |>.opt _ _ (int_keeps _)

/-! ## Forms -/

/-- The settings of the trigger are a document that text can hold. -/
def CompiledTrigger.WellFormed (t : CompiledTrigger) : Prop :=
  Json.wellFormed (.obj t.config) = true

structure CompiledNode.WellFormed (n : CompiledNode) : Prop where
  config : Json.wellFormed (.obj n.config) = true
  inputs : n.inputs.keys.Nodup
  outputs : n.outputs.keys.Nodup

structure CompiledStrategy.WellFormed (c : CompiledStrategy) : Prop where
  triggers : ∀ t ∈ c.triggers, t.WellFormed
  nodes : ∀ n ∈ c.nodes, n.WellFormed
  riskParams : c.riskParams.Finite
  settings : c.settings.Finite

theorem CompiledTrigger.codec_keeps {t : CompiledTrigger} (h : t.WellFormed) : codec.Keeps t := by
  refine record_keeps ?_ (by decide) rfl rfl
  exact start_keeps t mk
    |>.req _ (text_keeps _)
    |>.req _ (text_keeps _)
    |>.opt _ _ (object_keeps h)
    |>.opt _ _ (texts_keeps _)

theorem CompiledNode.codec_keeps {n : CompiledNode} (h : n.WellFormed) : codec.Keeps n := by
  refine record_keeps ?_ (by decide) rfl rfl
  exact start_keeps n mk
    |>.req _ (text_keeps _)
    |>.req _ (text_keeps _)
    |>.req _ n.category.codec_keeps
    |>.opt _ _ (object_keeps h.config)
    |>.opt _ _ (map_keeps h.inputs fun p _ => texts_keeps p.2)
    |>.opt _ _ (map_keeps h.outputs fun p _ => texts_keeps p.2)

theorem CompiledEdge.codec_keeps (e : CompiledEdge) : codec.Keeps e := by
  refine record_keeps ?_ (by decide) rfl rfl
  exact start_keeps e mk
    |>.req _ (text_keeps _)
    |>.req _ (text_keeps _)
    |>.req _ (text_keeps _)
    |>.req _ (text_keeps _)

namespace CompiledStrategy

theorem codec_keeps {c : CompiledStrategy} (h : c.WellFormed) : codec.Keeps c := by
  refine record_keeps ?_ (by decide) rfl rfl
  exact start_keeps c mk
    |>.req _ (text_keeps _)
    |>.req _ (text_keeps _)
    |>.req _ (text_keeps _)
    |>.opt _ _ (list_keeps fun t ht => CompiledTrigger.codec_keeps (h.triggers t ht))
    |>.opt _ _ (list_keeps fun n hn => CompiledNode.codec_keeps (h.nodes n hn))
    |>.opt _ _ (list_keeps fun e _ => e.codec_keeps)
    |>.opt _ _ (RiskParams.codec_keeps h.riskParams)
    |>.opt _ _ (StrategySettings.codec_keeps h.settings)
    |>.req _ (text_keeps _)

/-- A well-formed form is read from its text as it was. -/
theorem ofText_toText {c : CompiledStrategy} (h : c.WellFormed) : ofText c.toText = .ok c := by
  have hkeeps := codec_keeps h
  rw [ofText, toText, Json.ofText_print Json.Style.plain_indented hkeeps.wellFormed]
  dsimp only
  rw [ofDocument, hkeeps.read]
  rfl

end CompiledStrategy

/-! ## Compiled strategies -/

/-- A strategy that text can hold: all doubles are finite, and the settings of its blocks have each
key once at every level, as maps do. -/
structure Strategy.WellFormed (s : Strategy) : Prop where
  config : ∀ b ∈ s.blocks, Json.wellFormed (.obj b.config) = true
  riskParams : s.riskParams.Finite
  settings : s.settings.Finite

namespace CompiledStrategy

theorem wellFormed_compile (catalog : Catalog) {s : Strategy} (h : s.WellFormed) :
    (s.compile catalog).WellFormed where
  triggers := by
    refine List.forall_mem_map.2 fun b hb => ?_
    exact h.config b (List.mem_of_mem_filter hb)
  nodes := by
    refine List.forall_mem_map.2 fun b hb => ⟨h.config b hb, ?_, ?_⟩
    · exact Assoc.nodup_keys_foldl_update _ _ _ _ List.nodup_nil
    · exact Assoc.nodup_keys_foldl_update _ _ _ _ List.nodup_nil
  riskParams := h.riskParams
  settings := h.settings

/-- The text of a compiled strategy is read as what was compiled; what is read, taken apart and
compiled again, has the hash it had. -/
theorem ofText_toText_compile (catalog : Catalog) (s : Strategy) (h : s.WellFormed) :
    ofText (s.compile catalog).toText = .ok (s.compile catalog) ∧
    (ofText (s.compile catalog).toText).map (fun c => (c.decompile.compile catalog).hash) =
      .ok (s.compile catalog).hash := by
  have hread := ofText_toText (wellFormed_compile catalog h)
  have hhash : ((s.compile catalog).recompile catalog).hash = (s.compile catalog).hash := by
    rw [compile_decompile]
    exact (refreshed_compile catalog s).hash
  refine ⟨hread, ?_⟩
  rw [hread]
  exact congrArg Except.ok hhash

end CompiledStrategy

/-- A trigger with nested settings that leads twice to the same input of an action. The settings
have text outside ASCII and inside quotes, a whole number past 64 bits, and a number both as a whole
one and as a double. -/
def Strategy.annotated : Strategy where
  id := "s-1"
  name := "Überwachung 𝄞"
  description := ""
  category := .custom
  version := "1.0.0"
  status := .draft
  blocks :=
    [⟨"watch", .trigger, "Watch", some "price_threshold", "", "1.0.0",
      [("type", .str "price_threshold"),
       ("levels", .arr [.int 5, .num 5, .num 0.1, .int (-36893488147419103232), .obj [], .arr []]),
       ("note", .obj [("z", .str "say \"now\" \\ \n"), ("a", .null), ("é", .bool true)])],
      .origin, [], [], true, none, []⟩,
     ⟨"act", .action, "Act", none, "", "1.0.0", [("amount", .num (-0.0))], .origin, [], [], true,
      some .swap, []⟩]
  connections :=
    [⟨"c0", "watch", "out", "act", "in", none⟩, ⟨"c1", "watch", "out", "act", "in", none⟩]
  settings := .standard
  riskParams := .standard
  tags := []
  metadata := []

theorem CompiledStrategy.annotated_read_back :
    Strategy.annotated.WellFormed ∧
    ofText (Strategy.annotated.compile .empty).toText = .ok (Strategy.annotated.compile .empty) ∧
    (ofText (Strategy.annotated.compile .empty).toText).map
        (fun c => (c.decompile.compile .empty).hash) =
      .ok (Strategy.annotated.compile .empty).hash := by
  have hformed : Strategy.annotated.WellFormed :=
    ⟨by decide, ⟨by decide, by decide, by decide, by decide, by decide, by decide⟩,
      ⟨by decide, ⟨by decide⟩⟩⟩
  exact ⟨hformed, ofText_toText_compile .empty .annotated hformed⟩

end Tradeflow
