/-
  What the hash of a strategy can tell apart. The hash is taken of a text, which is written for a
  document that holds the ids and settings of blocks and the ends of connections, in their orders, and
  nothing else (`hashPayload_inj`). With settings that text can hold the document is well formed, so
  the text determines it (`Json.print_injective`), whatever quotes, brackets or separators stand in
  ids and settings.
  `hashText_eq_iff_sameGraph`: the texts are the same exactly if the graphs are, and a hash that two
  graphs share comes from two texts.
-/
import Tradeflow.Proofs.Interchange.RoundTrip
import Tradeflow.Proofs.Json.RoundTrip

namespace Tradeflow

namespace CompiledStrategy

/-- The document has the contents of nodes and the edges, in their orders. -/
theorem hashPayload_inj {contents contents' : List (String × Assoc Json)}
    {edges edges' : List CompiledEdge} :
    hashPayload contents edges = hashPayload contents' edges' ↔
      contents = contents' ∧ edges = edges' := by
  have hblock : Function.Injective fun p : String × Assoc Json =>
      Json.obj [("id", .str p.1), ("config", .obj p.2)] := by
    rintro ⟨id, config⟩ ⟨id', config'⟩ h
    simpa using h
  have hedge : Function.Injective fun e : CompiledEdge => Json.obj
      [("sourceBlockId", .str e.source), ("sourceOutputId", .str e.sourceOutput),
        ("targetBlockId", .str e.target), ("targetInputId", .str e.targetInput)] := by
    rintro ⟨source, output, target, input⟩ ⟨source', output', target', input'⟩ h
    simpa using h
  simp only [hashPayload, Json.obj.injEq, List.cons.injEq, Prod.mk.injEq, Json.arr.injEq,
    hblock.list_map.eq_iff, hedge.list_map.eq_iff, true_and, and_true]

/-- It is well formed if the settings of the nodes are. -/
theorem wellFormed_hashPayload {contents : List (String × Assoc Json)} (edges : List CompiledEdge)
    (h : ∀ p ∈ contents, Json.wellFormed (.obj p.2) = true) :
    Json.wellFormed (hashPayload contents edges) = true := by
  have hblocks : Json.wellFormed (.arr (contents.map fun p =>
      .obj [("id", .str p.1), ("config", .obj p.2)])) = true := by
    refine Json.wellFormed_arr.2 (List.forall_mem_map.2 fun p hp => Json.wellFormed_obj.2 ?_)
    have hkeys : ["id", "config"].Nodup := by decide
    exact ⟨hkeys, List.forall_mem_cons.2 ⟨rfl, List.forall_mem_singleton.2 (h p hp)⟩⟩
  have hedges : Json.wellFormed (.arr (edges.map fun e => .obj
      [("sourceBlockId", .str e.source), ("sourceOutputId", .str e.sourceOutput),
        ("targetBlockId", .str e.target), ("targetInputId", .str e.targetInput)])) = true := by
    refine Json.wellFormed_arr.2 (List.forall_mem_map.2 fun e _ => Json.wellFormed_obj.2 ?_)
    have hkeys : ["sourceBlockId", "sourceOutputId", "targetBlockId", "targetInputId"].Nodup := by
      decide
    exact ⟨hkeys, by simp [Json.wellFormed]⟩
  have hkeys : ["blocks", "connections"].Nodup := by decide
  exact Json.wellFormed_obj.2
    ⟨hkeys, List.forall_mem_cons.2 ⟨hblocks, List.forall_mem_singleton.2 hedges⟩⟩

end CompiledStrategy

namespace Strategy

/-- The settings of all blocks are documents that text can hold: their doubles are finite, and objects
have each key once. -/
def Writable (s : Strategy) : Prop := ∀ b ∈ s.blocks, Json.wellFormed (.obj b.config) = true

/-- The same blocks by id and settings and the same connections by their ends, in the same orders. -/
structure SameGraph (s t : Strategy) : Prop where
  blocks : (s.blocks.map fun b => (b.id, b.config)) = t.blocks.map fun b => (b.id, b.config)
  ends : s.connections.map compileEdge = t.connections.map compileEdge

theorem Writable.wellFormed_hashPayload {s : Strategy} (h : s.Writable) :
    Json.wellFormed s.hashPayload = true := by
  rw [CompiledStrategy.hashPayload_eq]
  exact CompiledStrategy.wellFormed_hashPayload _ (List.forall_mem_map.2 h)

/-- The texts that two hashes are taken of are the same exactly if the graphs are. So where two hashes
are the same, the graphs are, or the hash takes two different texts to one. -/
theorem hashText_eq_iff_sameGraph (s t : Strategy) (hs : s.Writable) (ht : t.Writable) :
    (s.hashText = t.hashText ↔ s.SameGraph t) ∧
    (s.hash = t.hash → s.SameGraph t ∨
      s.hashText ≠ t.hashText ∧ Text.contentHash s.hashText = Text.contentHash t.hashText) := by
  have htext : s.hashText = t.hashText ↔ s.SameGraph t := by
    have hpayload : s.hashText = t.hashText ↔ s.hashPayload = t.hashPayload :=
      ⟨Json.print_injective Json.Style.plain_dense hs.wellFormed_hashPayload
        ht.wellFormed_hashPayload, congrArg _⟩
    rw [hpayload, CompiledStrategy.hashPayload_eq, CompiledStrategy.hashPayload_eq,
      CompiledStrategy.hashPayload_inj]
    exact ⟨fun h => ⟨h.1, h.2⟩, fun h => ⟨h.blocks, h.ends⟩⟩
  refine ⟨htext, fun hhash => ?_⟩
  by_cases hsame : s.SameGraph t
  · exact .inl hsame
  · exact .inr ⟨fun h => hsame (htext.1 h), hhash⟩

/-- A strategy of one block without connections. -/
def single (id : String) (config : Assoc Json) : Strategy where
  id := "s"
  name := ""
  description := ""
  category := .custom
  version := "1.0.0"
  status := .draft
  blocks :=
    [⟨id, .action, "", none, "", "1.0.0", config, .origin, [], [], true, none, []⟩]
  connections := []
  settings := .standard
  riskParams := .standard
  tags := []
  metadata := []

/-- Settings that are told apart by a number that is whole or a double, and by text that reads as more
settings would. -/
theorem lookalikes_told_apart :
    (single "é" [("a", .int 5)]).Writable ∧ (single "é" [("a", .num 5)]).Writable ∧
    (single "é" [("a", .int 5)]).hashText ≠ (single "é" [("a", .num 5)]).hashText ∧
    (single "b" [("a", .str "\",\"c\":\"")]).Writable ∧
    (single "b" [("a", .str ""), ("c", .str "")]).Writable ∧
    (single "b" [("a", .str "\",\"c\":\"")]).hashText ≠
      (single "b" [("a", .str ""), ("c", .str "")]).hashText := by
  have hwhole : (single "é" [("a", .int 5)]).Writable := List.forall_mem_singleton.2 (by decide)
  have hdouble : (single "é" [("a", .num 5)]).Writable := List.forall_mem_singleton.2 (by decide)
  have hone : (single "b" [("a", .str "\",\"c\":\"")]).Writable :=
    List.forall_mem_singleton.2 (by decide)
  have htwo : (single "b" [("a", .str ""), ("c", .str "")]).Writable :=
    List.forall_mem_singleton.2 (by decide)
  refine ⟨hwhole, hdouble, fun h => ?_, hone, htwo, fun h => ?_⟩
  · have hsame := ((hashText_eq_iff_sameGraph _ _ hwhole hdouble).1.1 h).blocks
    simp [single] at hsame
  · have hsame := ((hashText_eq_iff_sameGraph _ _ hone htwo).1.1 h).blocks
    simp [single] at hsame

end Strategy

end Tradeflow
