/-
  The four views that a compiled strategy has of its connections: the edges, the inputs of the nodes,
  their outputs, and the next nodes of the triggers. Inputs and outputs are collected one connection
  after the other into lists under keys; what comes out can be written down at once (`collect_eq`):
  each key once, in the order of first use, with the values of all its items in their order. It makes
  no difference whether the connections at a block are collected by themselves or all connections in
  one pass, by block and port (`compileNode_neighbours`). So nothing is lost or counted twice under the
  keys of one node (`perm_entries_collect`), and over nodes with different ids each connection is
  counted with the one block that it ends at (`perm_flatMap_filter`).
  `compile_tells_connections`: the four views say the same, and say what the connections say.
-/
import Tradeflow.Proofs.Interchange.Text

namespace Tradeflow

/-! ## Values under keys -/

/-- Items sorted by what is asked of them, for different answers, are the items with one of these
answers. -/
theorem perm_flatMap_filter {α β : Type} [DecidableEq β] {ks : List β} (hnodup : ks.Nodup)
    (f : α → β) (xs : List α) :
    (ks.flatMap fun k => xs.filter (f · == k)).Perm (xs.filter (f · ∈ ks)) := by
  induction ks with
  | nil => simp
  | cons k ks ih =>
    obtain ⟨hfresh, hrest⟩ := List.nodup_cons.1 hnodup
    have hfirst : (xs.filter (f · ∈ k :: ks)).filter (f · == k) = xs.filter (f · == k) := by
      rw [List.filter_filter]
      exact List.filter_congr fun x _ => by by_cases hx : f x = k <;> simp [hx]
    have hothers : (xs.filter (f · ∈ k :: ks)).filter (fun x => !(f x == k)) =
        xs.filter (f · ∈ ks) := by
      rw [List.filter_filter]
      refine List.filter_congr fun x _ => ?_
      by_cases hx : f x = k
      · simp [hx, hfresh]
      · simp [hx]
    have hsplit := List.filter_append_perm (f · == k) (xs.filter (f · ∈ k :: ks))
    rw [hfirst, hothers] at hsplit
    exact ((List.Perm.refl _).append (ih hrest)).trans hsplit

namespace Assoc

variable {α β : Type}

/-- A map with different keys, from its keys and what is found under them. -/
theorem eq_map_keys {m : Assoc α} (h : m.keys.Nodup) (fallback : α) :
    m = m.keys.map fun key => (key, (m.get? key).getD fallback) := by
  rw [keys, List.map_map]
  refine (List.map_id' m).symm.trans (List.map_congr_left fun p hp => ?_)
  rw [Function.comp_apply, get?_of_mem h hp]
  rfl

/-- The pairs of a map to lists, one for each value. -/
def entries (m : Assoc (List α)) : List (String × α) := m.flatMap fun p => p.2.map fun v => (p.1, v)

/-- The values of items collected under their keys, one item after the other. -/
def collect (items : List β) (key : β → String) (value : β → α) : Assoc (List α) :=
  items.foldl (fun m x => m.update (key x) [] (· ++ [value x])) []

variable (items : List β) (key : β → String) (value : β → α)

theorem collect_concat (x : β) :
    collect (items ++ [x]) key value =
      (collect items key value).update (key x) [] (· ++ [value x]) := by
  rw [collect, List.foldl_concat]
  rfl

theorem nodup_keys_collect : (collect items key value).keys.Nodup :=
  nodup_keys_foldl_update items key [] (fun x vs => vs ++ [value x]) List.nodup_nil

/-- Keys come in the order of first use. -/
theorem keys_collect : (collect items key value).keys = (items.map key).eraseDups := by
  induction items using List.reverseRecOn with
  | nil => rfl
  | append_singleton items x ih =>
    rw [collect_concat, update, List.map_append, List.eraseDups_append, ← ih]
    by_cases hk : key x ∈ items.map key
    · have hold : key x ∈ keys (collect items key value) := by rwa [ih, List.mem_eraseDups]
      have hnone : [key x].removeAll (items.map key) = [] := by
        simp [List.removeAll, List.mem_map.1 hk]
      rw [keys_set_of_has _ _ _ (has_of_mem_keys hold), List.map_singleton, hnone,
        List.eraseDups_nil, List.append_nil]
    · have hnew : key x ∉ keys (collect items key value) := by rwa [ih, List.mem_eraseDups]
      have hone : [key x].removeAll (items.map key) = [key x] := by
        simpa [List.removeAll] using hk
      rw [set_of_notMem hnew, keys, List.map_append]
      show _ ++ [key x] = _ ++ ([key x].removeAll (items.map key)).eraseDups
      rw [hone]
      rfl

/-- Under a key are the values of the items that have it, in their order. -/
theorem getD_collect (k : String) :
    ((collect items key value).get? k).getD [] = (items.filter (key · == k)).map value := by
  induction items using List.reverseRecOn with
  | nil => rfl
  | append_singleton items x ih =>
    rw [collect_concat, update, get?_set, List.filter_append, List.map_append]
    by_cases hk : key x = k
    · rw [if_pos hk, hk, ih]
      simp [hk]
    · rw [if_neg hk, ih]
      simp [hk]

/-- The values of items collected under their groups and there under their keys, one item after the
other. -/
def collectIn (group : β → String) : Assoc (Assoc (List α)) :=
  items.foldl (fun m x => m.update (group x) [] (·.update (key x) [] (· ++ [value x]))) []

theorem collectIn_concat (group : β → String) (x : β) :
    collectIn (items ++ [x]) key value group =
      (collectIn items key value group).update (group x) [] (·.update (key x) [] (· ++ [value x])) := by
  rw [collectIn, List.foldl_concat]
  rfl

/-- Under a group is what the items in it are collected into. -/
theorem getD_collectIn (group : β → String) (g : String) :
    ((collectIn items key value group).get? g).getD [] =
      collect (items.filter (group · == g)) key value := by
  induction items using List.reverseRecOn with
  | nil => rfl
  | append_singleton items x ih =>
    rw [collectIn_concat, update, get?_set, List.filter_append, List.filter_singleton]
    by_cases hg : group x = g
    · rw [if_pos hg, hg, ih, beq_self_eq_true, cond_true, collect_concat]
      rfl
    · rw [if_neg hg, ih, beq_eq_false_iff_ne.2 hg, cond_false, List.append_nil]

/-- What comes out, written down at once. -/
theorem collect_eq :
    collect items key value =
      (items.map key).eraseDups.map fun k => (k, (items.filter (key · == k)).map value) := by
  rw [eq_map_keys (nodup_keys_collect items key value) [], keys_collect]
  exact List.map_congr_left fun k _ => by rw [getD_collect]

/-- Nothing is lost, and nothing is there twice. -/
theorem perm_entries_collect :
    (entries (collect items key value)).Perm (items.map fun x => (key x, value x)) := by
  have hkeys : (items.map key).eraseDups.Nodup := by
    rw [← keys_collect items key value]
    exact nodup_keys_collect items key value
  have hall : items.filter (key · ∈ (items.map key).eraseDups) = items :=
    List.filter_eq_self.2 fun x hx => by simpa using ⟨x, hx, rfl⟩
  have hsorted := (perm_flatMap_filter hkeys key items).map fun x => (key x, value x)
  rw [hall, List.map_flatMap] at hsorted
  rw [entries, collect_eq, List.flatMap_map]
  refine (List.Perm.of_eq (List.flatMap_congr fun k _ => ?_)).trans hsorted
  rw [List.map_map]
  refine List.map_congr_left fun x hx => ?_
  rw [Function.comp_apply, eq_of_beq (List.mem_filter.1 hx).2]

/-- A map lists items by their keys: it has the keys that items have, in the order of first use, and
under each the values of exactly the items that have it, in their order. -/
structure Lists (m : Assoc (List α)) (items : List β) (key : β → String) (value : β → α) : Prop where
  mem_keys : ∀ k, k ∈ m.keys ↔ ∃ x ∈ items, key x = k
  keys : m.keys = (items.map key).eraseDups
  values : ∀ p ∈ m, p.2 = (items.filter (key · == p.1)).map value

theorem lists_collect : (collect items key value).Lists items key value where
  mem_keys k := by rw [keys_collect, List.mem_eraseDups, List.mem_map]
  keys := keys_collect items key value
  values p hp := by
    rw [collect_eq] at hp
    obtain ⟨k, -, rfl⟩ := List.mem_map.1 hp
    rfl

theorem map_entries (m : Assoc (List α)) : m.entries.map (·.2) = m.flatMap (·.2) := by
  rw [entries, List.map_flatMap]
  simp

end Assoc

/-! ## One pass -/

namespace Strategy

/-- The neighbours of blocks by block and port: those before a block and those after it. -/
structure Neighbours where
  inbound : Assoc (Assoc (List String))
  outbound : Assoc (Assoc (List String))

/-- One more connection. -/
def Neighbours.add (n : Neighbours) (d : Connection) : Neighbours where
  inbound := n.inbound.update d.targetBlock [] (·.update d.targetInput [] (· ++ [d.sourceBlock]))
  outbound := n.outbound.update d.sourceBlock [] (·.update d.sourceOutput [] (· ++ [d.targetBlock]))

/-- The neighbours of all blocks, in one pass over the connections. -/
def neighbours (connections : List Connection) : Neighbours := connections.foldl .add ⟨[], []⟩

theorem neighbours_eq (connections : List Connection) :
    neighbours connections =
      ⟨Assoc.collectIn connections (·.targetInput) (·.sourceBlock) (·.targetBlock),
        Assoc.collectIn connections (·.sourceOutput) (·.targetBlock) (·.sourceBlock)⟩ := by
  induction connections using List.reverseRecOn with
  | nil => rfl
  | append_singleton connections d ih =>
    rw [neighbours, List.foldl_concat, ← neighbours, ih, Neighbours.add, Assoc.collectIn_concat,
      Assoc.collectIn_concat]

/-- A node has the neighbours that the one pass finds for its block. -/
theorem compileNode_neighbours (s : Strategy) (b : Block) :
    ((neighbours s.connections).inbound.get? b.id).getD [] = (s.compileNode b).inputs ∧
    ((neighbours s.connections).outbound.get? b.id).getD [] = (s.compileNode b).outputs := by
  rw [neighbours_eq]
  exact ⟨Assoc.getD_collectIn _ _ _ _ _, Assoc.getD_collectIn _ _ _ _ _⟩

end Strategy

/-! ## The four views -/

namespace CompiledNode

/-- The connections into a node that its inputs list: source, node and input. -/
def incoming (n : CompiledNode) : List (String × String × String) :=
  n.inputs.entries.map fun p => (p.2, n.id, p.1)

/-- The connections out of a node that its outputs list: node, output and target. -/
def outgoing (n : CompiledNode) : List (String × String × String) :=
  n.outputs.entries.map fun p => (n.id, p.1, p.2)

end CompiledNode

/-- What a compiled strategy says of the connections of a strategy: the edges are their ends, a node
lists those into its id by input and those out of it by output, and there is a trigger for each trigger
block that has the targets of those out of its id, which its node has too. If ids are different, the
inputs of all nodes together have each connection to a block once, and the outputs each one from a
block. -/
structure CompiledStrategy.Tells (c : CompiledStrategy) (s : Strategy) : Prop where
  edges : c.edges = s.connections.map fun d =>
    ⟨d.sourceBlock, d.sourceOutput, d.targetBlock, d.targetInput⟩
  nodes : c.nodes.map (·.id) = s.blocks.map (·.id)
  inputs : ∀ n ∈ c.nodes, n.inputs.Lists (s.connections.filter (·.targetBlock == n.id))
    (·.targetInput) (·.sourceBlock)
  outputs : ∀ n ∈ c.nodes, n.outputs.Lists (s.connections.filter (·.sourceBlock == n.id))
    (·.sourceOutput) (·.targetBlock)
  triggers : (c.triggers.map fun t => (t.id, t.config)) =
    (s.blocks.filter (·.category == .trigger)).map fun b => (b.id, b.config)
  nextNodes : ∀ t ∈ c.triggers,
    t.nextNodes = (s.connections.filter (·.sourceBlock == t.id)).map (·.targetBlock)
  branches : ∀ t ∈ c.triggers, ∀ n ∈ c.nodes, n.id = t.id →
    t.nextNodes.Perm (n.outputs.flatMap (·.2))
  incoming : (s.blocks.map (·.id)).Nodup →
    (c.nodes.flatMap (·.incoming)).Perm
      ((s.connections.filter fun d => s.blocks.any (·.id == d.targetBlock)).map fun d =>
        (d.sourceBlock, d.targetBlock, d.targetInput))
  outgoing : (s.blocks.map (·.id)).Nodup →
    (c.nodes.flatMap (·.outgoing)).Perm
      ((s.connections.filter fun d => s.blocks.any (·.id == d.sourceBlock)).map fun d =>
        (d.sourceBlock, d.sourceOutput, d.targetBlock))

namespace Strategy

/-- The connections at an id, collected by port, are listed once each. -/
theorem perm_entries_at {α : Type} (connections : List Connection) (id : String)
    (endId port far : Connection → String) (f : String → String → String → α) :
    ((Assoc.collect (connections.filter (endId · == id)) port far).entries.map fun p =>
        f id p.1 p.2).Perm
      ((connections.filter (endId · == id)).map fun d => f (endId d) (port d) (far d)) := by
  have hentries := (Assoc.perm_entries_collect (connections.filter (endId · == id)) port far).map
    fun p => f id p.1 p.2
  rw [List.map_map] at hentries
  refine hentries.trans (.of_eq (List.map_congr_left fun d hd => ?_))
  rw [Function.comp_apply, eq_of_beq (List.mem_filter.1 hd).2]

section Node

variable (s : Strategy) (b : Block)

theorem perm_incoming :
    (s.compileNode b).incoming.Perm ((s.connections.filter (·.targetBlock == b.id)).map fun d =>
      (d.sourceBlock, d.targetBlock, d.targetInput)) :=
  perm_entries_at s.connections b.id (·.targetBlock) (·.targetInput) (·.sourceBlock)
    fun id key source => (source, id, key)

theorem perm_outgoing :
    (s.compileNode b).outgoing.Perm ((s.connections.filter (·.sourceBlock == b.id)).map fun d =>
      (d.sourceBlock, d.sourceOutput, d.targetBlock)) :=
  perm_entries_at s.connections b.id (·.sourceBlock) (·.sourceOutput) (·.targetBlock)
    fun id key target => (id, key, target)

theorem perm_targets : (s.successors b.id).Perm ((s.compileNode b).outputs.flatMap (·.2)) := by
  have hentries := perm_entries_at s.connections b.id (·.sourceBlock) (·.sourceOutput)
    (·.targetBlock) fun _ _ target => target
  rw [Assoc.map_entries] at hentries
  exact hentries.symm

end Node

/-- With different ids, each connection is counted with the one block that has the id at its end. -/
theorem perm_flatMap_blocks {α : Type} (s : Strategy) (hnodup : (s.blocks.map (·.id)).Nodup)
    (endId : Connection → String) (f : Connection → α) :
    (s.blocks.flatMap fun b => (s.connections.filter (endId · == b.id)).map f).Perm
      ((s.connections.filter fun d => s.blocks.any (·.id == endId d)).map f) := by
  have hsorted := (perm_flatMap_filter hnodup endId s.connections).map f
  rw [List.map_flatMap, List.flatMap_map] at hsorted
  refine hsorted.trans (.of_eq (congrArg (List.map f) (List.filter_congr fun d _ => ?_)))
  rw [Bool.eq_iff_iff]
  simp

/-- The four views that a compiled strategy has of connections agree, and say what the connections
say. -/
theorem compile_tells_connections (catalog : Catalog) (s : Strategy) : (s.compile catalog).Tells s where
  edges := rfl
  nodes := by
    show (s.blocks.map s.compileNode).map (·.id) = _
    rw [List.map_map]
    rfl
  inputs := List.forall_mem_map.2 fun b _ => Assoc.lists_collect _ _ _
  outputs := List.forall_mem_map.2 fun b _ => Assoc.lists_collect _ _ _
  triggers := by
    show (s.triggers.map (compileTrigger catalog s)).map _ = _
    rw [List.map_map]
    rfl
  nextNodes := List.forall_mem_map.2 fun b _ => rfl
  branches := by
    refine List.forall_mem_map.2 fun t _ => List.forall_mem_map.2 fun b _ hid => ?_
    show (s.successors t.id).Perm _
    rw [show t.id = b.id from hid.symm]
    exact s.perm_targets b
  incoming hnodup := by
    show ((s.blocks.map s.compileNode).flatMap (·.incoming)).Perm _
    rw [List.flatMap_map]
    exact (List.Perm.flatMap_left _ fun b _ => s.perm_incoming b).trans
      (s.perm_flatMap_blocks hnodup (·.targetBlock) _)
  outgoing hnodup := by
    show ((s.blocks.map s.compileNode).flatMap (·.outgoing)).Perm _
    rw [List.flatMap_map]
    exact (List.Perm.flatMap_left _ fun b _ => s.perm_outgoing b).trans
      (s.perm_flatMap_blocks hnodup (·.sourceBlock) _)

/-- Two connections between the same ports and one from another output, crossed by one that comes from
nowhere and one that leads nowhere. -/
def tangled : Strategy :=
  { annotated with
    connections :=
      [⟨"c0", "watch", "out", "act", "in", none⟩, ⟨"c1", "gone", "out", "act", "other", none⟩,
       ⟨"c2", "watch", "late", "act", "in", none⟩, ⟨"c3", "watch", "out", "act", "in", none⟩,
       ⟨"c4", "act", "out", "gone", "in", none⟩] }

theorem tangled_tells :
    (tangled.blocks.map (·.id)).Nodup ∧
    ((tangled.compile .empty).nodes.map (·.inputs)) =
      [[], [("in", ["watch", "watch", "watch"]), ("other", ["gone"])]] ∧
    ((tangled.compile .empty).nodes.flatMap (·.incoming)).Perm
      [("watch", "act", "in"), ("gone", "act", "other"), ("watch", "act", "in"),
        ("watch", "act", "in")] ∧
    ((tangled.compile .empty).nodes.flatMap (·.outgoing)).Perm
      [("watch", "out", "act"), ("watch", "late", "act"), ("watch", "out", "act"),
        ("act", "out", "gone")] := by
  have hnodup : (tangled.blocks.map (·.id)).Nodup := by decide
  have htells := compile_tells_connections .empty tangled
  exact ⟨hnodup, by decide, htells.incoming hnodup, htells.outgoing hnodup⟩

end Strategy

end Tradeflow
