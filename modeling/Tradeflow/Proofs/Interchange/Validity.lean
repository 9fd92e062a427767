/-
  What the validator says of a strategy that went through the interchange form. Ports are made up
  from the edges, so every edge finds its two ports, all of type `any`, and every port has an edge
  (`joins_decompile`, `wired_decompile`); paths and triggers are the same (`reachesCycle_decompile`).
  Ids, categories and settings of blocks are kept, and with them whatever is found in settings alone;
  the limits are kept, and a purpose that adds to the risk is given up, so the score does not grow.
  What is lost is the name of a block, and with it what it was known by as a logic gate.
  `validate_decompile`: without errors before, there is a verdict afterwards, and the errors in it are
  those about the operators of conditions that are named by their type.
-/
import Tradeflow.Proofs.Interchange.Behaviour
import Tradeflow.Proofs.Validation.Codes
import Tradeflow.Proofs.Validation.ScoreRange

namespace Tradeflow

/-! ## Ports made up from edges -/

namespace Assoc

variable {α β : Type}

theorem mem_keys_set (m : Assoc α) (k key : String) (value : α) :
    key ∈ (m.set k value).keys ↔ key ∈ m.keys ∨ key = k := by
  induction m with
  | nil => simp [set, keys]
  | cons p m ih =>
    obtain ⟨k₀, v₀⟩ := p
    by_cases hk : k₀ = k
    · subst hk
      simp only [set, keys, if_true, List.map_cons, List.mem_cons]
      tauto
    · simp only [keys] at ih
      simp only [set, keys, if_neg hk, List.map_cons, List.mem_cons, ih]
      tauto

/-- The keys that were there, and those of the items that were added. -/
theorem mem_keys_foldl_update (items : List β) (key : String) (name : β → String) (start : α)
    (change : β → α → α) (m : Assoc α) :
    key ∈ (items.foldl (fun m x => m.update (name x) start (change x)) m).keys ↔
      key ∈ m.keys ∨ ∃ x ∈ items, name x = key := by
  induction items generalizing m with
  | nil => simp
  | cons x items ih =>
    rw [List.foldl_cons, ih, update, mem_keys_set]
    simp only [List.mem_cons, exists_eq_or_imp, or_assoc, eq_comm (a := key)]

end Assoc

namespace CompiledEdge

theorem mem_keys_inbound (edges : List CompiledEdge) (id key : String) :
    key ∈ (inbound edges id).keys ↔ ∃ e ∈ edges, e.target = id ∧ e.targetInput = key := by
  rw [inbound, Assoc.mem_keys_foldl_update]
  simp [Assoc.keys, and_assoc]

theorem mem_keys_outbound (edges : List CompiledEdge) (id key : String) :
    key ∈ (outbound edges id).keys ↔ ∃ e ∈ edges, e.source = id ∧ e.sourceOutput = key := by
  rw [outbound, Assoc.mem_keys_foldl_update]
  simp [Assoc.keys, and_assoc]

end CompiledEdge

namespace CompiledStrategy

/-! ## Blocks and connections that come back -/

section Decompiled

variable (catalog : Catalog) (s : Strategy)

theorem mem_blocks_decompile {b : Block} (hb : b ∈ (s.compile catalog).decompile.blocks) :
    ∃ i, ∃ b₀ ∈ s.blocks, b = decompileNode i (s.compileNode b₀) := by
  obtain ⟨i, hi, rfl⟩ := List.mem_mapIdx.1 hb
  obtain ⟨b₀, hb₀, hnode⟩ := List.mem_map.1 (List.getElem_mem hi)
  exact ⟨i, b₀, hb₀, congrArg (decompileNode i) hnode.symm⟩

/-- What is found by id, category and settings of blocks is found as before. -/
theorem map_content_decompile :
    ((s.compile catalog).decompile.blocks.map fun b => (b.id, b.category, b.config)) =
      s.blocks.map fun b => (b.id, b.category, b.config) := by
  rw [map_decompile catalog s fun _ _ => rfl, Strategy.carried, List.map_map]
  rfl

theorem exists_block_decompile {p : String × BlockCategory × Assoc Json → Prop} :
    (∃ b ∈ (s.compile catalog).decompile.blocks, p (b.id, b.category, b.config)) ↔
      ∃ b ∈ s.blocks, p (b.id, b.category, b.config) := by
  have hmem := congrArg (fun contents => ∃ x ∈ contents, p x) (map_content_decompile catalog s)
  simpa using hmem

theorem forall_block_decompile {p : String × BlockCategory × Assoc Json → Prop} :
    (∀ b ∈ (s.compile catalog).decompile.blocks, p (b.id, b.category, b.config)) ↔
      ∀ b ∈ s.blocks, p (b.id, b.category, b.config) := by
  have hmem := congrArg (fun contents => ∀ x ∈ contents, p x) (map_content_decompile catalog s)
  simpa using hmem

theorem exists_connection_decompile {p : CompiledEdge → Prop} :
    (∃ c ∈ (s.compile catalog).decompile.connections, p (Strategy.compileEdge c)) ↔
      ∃ c ∈ s.connections, p (Strategy.compileEdge c) := by
  have hmem := congrArg (fun edges => ∃ e ∈ edges, p e)
    (compileEdge_decompile (s.compile catalog))
  simpa [Strategy.compile] using hmem

theorem forall_connection_decompile {p : CompiledEdge → Prop} :
    (∀ c ∈ (s.compile catalog).decompile.connections, p (Strategy.compileEdge c)) ↔
      ∀ c ∈ s.connections, p (Strategy.compileEdge c) := by
  have hmem := congrArg (fun edges => ∀ e ∈ edges, p e)
    (compileEdge_decompile (s.compile catalog))
  simpa [Strategy.compile] using hmem

/-- The two searches walk along the same edges, from the same triggers. -/
theorem graph_decompile :
    (s.compile catalog).decompile.successors = s.successors ∧
      (s.compile catalog).decompile.nodes = s.nodes ∧
      (s.compile catalog).decompile.triggerIds = s.triggerIds := by
  have hids : (s.compile catalog).decompile.blocks.map (·.id) = s.blocks.map (·.id) := by
    rw [map_decompile catalog s fun _ _ => rfl, Strategy.carried, List.map_map]
    rfl
  have htargets : (s.compile catalog).decompile.connections.map (·.targetBlock) =
      s.connections.map (·.targetBlock) := by
    have hedges := congrArg (List.map (·.target)) (compileEdge_decompile (s.compile catalog))
    rw [List.map_map, Strategy.compile, List.map_map] at hedges
    exact hedges
  refine ⟨funext fun id => ?_, ?_, ?_⟩
  · rw [Strategy.successors_eq, Strategy.successors_eq, compileEdge_decompile]
    rfl
  · rw [Strategy.nodes, Strategy.nodes, hids, htargets]
  · rw [Strategy.triggerIds, Strategy.triggers, Strategy.blocksOf,
      map_filter_decompile catalog s (fun _ _ => rfl) (fun _ _ => rfl), Strategy.carried,
      List.filter_map, List.map_map]
    rfl

theorem findCycle_decompile : (s.compile catalog).decompile.findCycle = s.findCycle := by
  obtain ⟨hnext, hnodes, hroots⟩ := graph_decompile catalog s
  rw [Strategy.findCycle, Strategy.findCycle, hnext, hnodes, hroots]

theorem findUnreachable_decompile :
    (s.compile catalog).decompile.findUnreachable = s.findUnreachable := by
  obtain ⟨hnext, hnodes, hroots⟩ := graph_decompile catalog s
  rw [Strategy.findUnreachable, Strategy.findUnreachable, hnext, hnodes, hroots]
  rw [map_filter_decompile catalog s (fun _ _ => rfl) (fun _ _ => rfl), Strategy.carried,
    List.filter_map, List.map_map]
  rfl

theorem reachesCycle_decompile :
    (s.compile catalog).decompile.ReachesCycle ↔ s.ReachesCycle := by
  rw [← not_iff_not, ← Strategy.findCycle_eq_nil_iff, findCycle_decompile,
    Strategy.findCycle_eq_nil_iff]

theorem block?_decompile {id : String} (hblock : ∃ b ∈ s.blocks, b.id = id) :
    ∃ i b₀, b₀.id = id ∧
      (s.compile catalog).decompile.block? id = some (decompileNode i (s.compileNode b₀)) := by
  obtain ⟨b, hb, hid⟩ := (exists_block_decompile catalog s (p := fun x => x.1 = id)).2 hblock
  cases hfound : (s.compile catalog).decompile.block? id with
  | none => exact absurd (beq_iff_eq.2 hid) (List.find?_eq_none.1 hfound b hb)
  | some b' =>
    obtain ⟨hmem, hid'⟩ := Strategy.of_block?_eq_some hfound
    obtain ⟨i, b₀, -, rfl⟩ := mem_blocks_decompile catalog s hmem
    exact ⟨i, b₀, hid', rfl⟩

theorem find?_decompilePort (side : PortSide) {keys : List String} {key : String}
    (hkey : key ∈ keys) :
    (keys.map (decompilePort side)).find? (·.id == key) = some (decompilePort side key) := by
  rw [List.find?_map]
  cases hfound : keys.find? ((·.id == key) ∘ decompilePort side) with
  | none => exact absurd (beq_self_eq_true key) (List.find?_eq_none.1 hfound key hkey)
  | some k =>
    have hk := List.find?_some hfound
    exact congrArg (some ∘ decompilePort side) (beq_iff_eq.1 hk)

/-- The port that was made up for an edge is found on the block it ends at. -/
theorem input?_decompile (i : Nat) {c : Connection} (hc : c ∈ s.connections) {b : Block}
    (hb : b.id = c.targetBlock) :
    (decompileNode i (s.compileNode b)).input? c.targetInput =
      some (decompilePort .input c.targetInput) := by
  refine find?_decompilePort .input ?_
  rw [Strategy.compileNode, Strategy.inbound_eq, CompiledEdge.mem_keys_inbound]
  exact ⟨_, List.mem_map_of_mem hc, hb.symm, rfl⟩

theorem output?_decompile (i : Nat) {c : Connection} (hc : c ∈ s.connections) {b : Block}
    (hb : b.id = c.sourceBlock) :
    (decompileNode i (s.compileNode b)).output? c.sourceOutput =
      some (decompilePort .output c.sourceOutput) := by
  refine find?_decompilePort .output ?_
  rw [Strategy.compileNode, Strategy.outbound_eq, CompiledEdge.mem_keys_outbound]
  exact ⟨_, List.mem_map_of_mem hc, hb.symm, rfl⟩

/-- Edges with a block at each end join ports that fit. -/
theorem joins_decompile (hjoins : ∀ c ∈ s.connections, s.Joins c) :
    ∀ c ∈ (s.compile catalog).decompile.connections, (s.compile catalog).decompile.Joins c := by
  have hends : ∀ c ∈ s.connections, ∃ source target,
      (s.compile catalog).decompile.block? c.sourceBlock = some source ∧
      (s.compile catalog).decompile.block? c.targetBlock = some target ∧
      source.output? c.sourceOutput = some (decompilePort .output c.sourceOutput) ∧
      target.input? c.targetInput = some (decompilePort .input c.targetInput) := by
    intro c hc
    obtain ⟨source, target, -, -, hsource, htarget, -⟩ := hjoins c hc
    obtain ⟨i, b, hb, hfound⟩ := block?_decompile catalog s
      ⟨source, Strategy.of_block?_eq_some hsource⟩
    obtain ⟨i', b', hb', hfound'⟩ := block?_decompile catalog s
      ⟨target, Strategy.of_block?_eq_some htarget⟩
    exact ⟨_, _, hfound, hfound', output?_decompile s i hc hb, input?_decompile s i' hc hb'⟩
  intro c hc
  obtain ⟨source, target, hsource, htarget, houtput, hinput⟩ :=
    (forall_connection_decompile catalog s (p := fun e => ∃ source target,
      (s.compile catalog).decompile.block? e.source = some source ∧
      (s.compile catalog).decompile.block? e.target = some target ∧
      source.output? e.sourceOutput = some (decompilePort .output e.sourceOutput) ∧
      target.input? e.targetInput = some (decompilePort .input e.targetInput))).2 hends c hc
  exact ⟨source, target, _, _, hsource, htarget, houtput, hinput, .inr (.inl rfl)⟩

/-- No port was made up without an edge. -/
theorem wired_decompile {b : Block} (hb : b ∈ (s.compile catalog).decompile.blocks) {p : Port}
    (hp : p ∈ b.inputs) :
    ∃ c ∈ (s.compile catalog).decompile.connections,
      c.targetBlock = b.id ∧ c.targetInput = p.id := by
  obtain ⟨i, b₀, -, rfl⟩ := mem_blocks_decompile catalog s hb
  obtain ⟨key, hkey, rfl⟩ := List.mem_map.1 hp
  rw [Strategy.compileNode, Strategy.inbound_eq, CompiledEdge.mem_keys_inbound] at hkey
  obtain ⟨e, he, htarget⟩ := hkey
  obtain ⟨c, hc, rfl⟩ := List.mem_map.1 he
  exact (exists_connection_decompile catalog s (p := fun e => e.target = b₀.id ∧
    e.targetInput = key)).2 ⟨c, hc, htarget⟩

end Decompiled

end CompiledStrategy

/-! ## Errors -/

/-- The errors among some findings. -/
def Issue.errors (issues : List Issue) : List Issue := issues.filter (·.severity == .error)

theorem Issue.errors_append (xs ys : List Issue) : errors (xs ++ ys) = errors xs ++ errors ys :=
  List.filter_append _ _

theorem Issue.errors_eq_nil_iff {issues : List Issue} : errors issues = [] ↔ NoErrors issues := by
  simp [errors, NoErrors, List.filter_eq_nil_iff]

theorem NoErrors.errors_eq {issues : List Issue} (h : NoErrors issues) : Issue.errors issues = [] :=
  Issue.errors_eq_nil_iff.2 h

namespace Block

/-- What is found about the operator of a block, if it is a condition. -/
def conditionIssues (b : Block) : List Issue :=
  if b.category = .condition then b.operatorIssues else []

theorem errors_operatorIssues (b : Block) : Issue.errors b.operatorIssues = b.operatorIssues := by
  refine List.filter_eq_self.2 fun i hi => ?_
  unfold operatorIssues at hi
  split at hi
  · cases hi
  · split at hi
    · rw [List.mem_singleton.1 hi]
      rfl
    · cases hi

theorem operatorIssues_carried {b : Block} (h : b.carried.isLogicGate = b.isLogicGate) :
    b.carried.operatorIssues = b.operatorIssues := by
  have hallowed : b.carried.allowedOperators = b.allowedOperators := by
    rw [allowedOperators, allowedOperators, h]
  unfold operatorIssues
  rw [hallowed]
  rfl

theorem errors_categoryIssues {b : Block} (hlimits : b.category = .risk → NoErrors b.limitIssues) :
    Issue.errors b.categoryIssues = b.conditionIssues := by
  unfold categoryIssues conditionIssues
  cases hcategory : b.category with
  | condition => exact b.errors_operatorIssues
  | risk => exact (hlimits hcategory).errors_eq
  | action => exact b.noErrors_slippageIssues.errors_eq
  | trigger | capital | data | utility => rfl

/-- A block with no other errors has those about its operator. -/
theorem errors_issues (config : ValidationConfig) (catalog : Catalog) {b : Block}
    (hschedule : NoErrors b.scheduleIssues) (hlimits : b.category = .risk → NoErrors b.limitIssues) :
    Issue.errors (b.issues config catalog) = b.conditionIssues := by
  rw [issues, settingIssues, Issue.errors_append, Issue.errors_append, Issue.errors_append,
    (b.noErrors_typeIssues catalog).errors_eq, hschedule.errors_eq,
    (b.noErrors_whitelistIssues config).errors_eq, errors_categoryIssues hlimits]
  rfl

end Block

namespace Strategy

variable {R : Type} [Scalar R]

/-- All the conditions of an admissible strategy, but not the one on operators. -/
structure Sound (R : Type) [Scalar R] (s : Strategy) : Prop where
  structureIssues : NoErrors s.structureIssues
  connectionIssues : NoErrors s.connectionIssues
  schedules : ∀ b ∈ s.blocks, NoErrors b.scheduleIssues
  limits : ∀ b ∈ s.blocks, b.category = .risk → NoErrors b.limitIssues
  riskIssues : NoErrors (s.riskIssues R)

theorem Sound.errors_findings {s : Strategy} (h : s.Sound R) (v : Validator)
    (hrules : v.rules = []) :
    Issue.errors (v.findings R s) = s.blocks.flatMap Block.conditionIssues := by
  have hblocks : Issue.errors (s.blocks.flatMap (Block.issues v.config v.catalog)) =
      s.blocks.flatMap Block.conditionIssues := by
    rw [Issue.errors, List.filter_flatMap]
    exact List.flatMap_congr fun b hb =>
      Block.errors_issues v.config v.catalog (h.schedules b hb) (h.limits b hb)
  rw [Validator.findings, hrules, List.filterMap_nil, List.append_nil, Issue.errors_append,
    Issue.errors_append, Issue.errors_append, Issue.errors_append, h.structureIssues.errors_eq,
    h.connectionIssues.errors_eq, hblocks, h.riskIssues.errors_eq,
    (noErrors_complianceIssues v.config v.catalog s).errors_eq]
  simp

/-- An admissible strategy comes back sound. -/
theorem Admissible.sound_decompile {s : Strategy} (h : s.Admissible R) (catalog : Catalog) :
    (s.compile catalog).decompile.Sound R where
  structureIssues := by
    rw [noErrors_structureIssues, CompiledStrategy.reachesCycle_decompile]
    exact ⟨(CompiledStrategy.exists_block_decompile catalog s (p := fun x => x.2.1 = .trigger)).2
      h.trigger, h.noCycle⟩
  connectionIssues := by
    rw [noErrors_connectionIssues]
    exact ⟨CompiledStrategy.joins_decompile catalog s h.connections,
      fun b hb _ p hp _ => CompiledStrategy.wired_decompile catalog s hb hp⟩
  schedules := by
    simp only [Block.noErrors_scheduleIssues]
    exact (CompiledStrategy.forall_block_decompile catalog s (p := fun x => x.2.1 = .trigger →
      Assoc.get? x.2.2 "scheduleType" = some (.str "interval") →
      ∃ v, Assoc.get? x.2.2 "interval" = some v ∧ v.truthy = true)).2 h.intervals
  limits := by
    simp only [Block.noErrors_limitIssues]
    exact (CompiledStrategy.forall_block_decompile catalog s (p := fun x => x.2.1 = .risk →
      ∀ key ∈ ["value", "maxValue", "seconds", "maxTrades", "maxLoss"],
        (∀ k : Int, Assoc.get? x.2.2 key = some (.int k) → ¬ k ≤ 0) ∧
        (∀ x' : Float, Assoc.get? x.2.2 key = some (.num x') → ¬ x' ≤ 0))).2 h.limits
  riskIssues := noErrors_riskIssues _ |>.2 h.positionSize

end Strategy

/-! ## Points for findings -/

/-- No finding is one that adds to the score. -/
def Spared (issues : List Issue) : Prop := ∀ i ∈ issues, i.code ≠ .riskExceeded

theorem Spared.append {xs ys : List Issue} (hx : Spared xs) (hy : Spared ys) : Spared (xs ++ ys) :=
  List.forall_mem_append.2 ⟨hx, hy⟩

theorem Coded.spared {codes : List IssueCode} {issues : List Issue} (h : Coded codes issues)
    (hcodes : .riskExceeded ∉ codes) : Spared issues := h.ne hcodes

theorem Spared.exceededCount_eq {issues : List Issue} (h : Spared issues) :
    exceededCount issues = 0 := by
  rw [exceededCount, List.length_eq_zero_iff, List.filter_eq_nil_iff]
  exact fun i hi => by simpa using h i hi

theorem exceededCount_append (xs ys : List Issue) :
    exceededCount (xs ++ ys) = exceededCount xs + exceededCount ys := by
  rw [exceededCount, List.filter_append, List.length_append]
  rfl

theorem exceededCount_flatMap {α : Type} (xs : List α) {f g : α → List Issue}
    (h : ∀ x, exceededCount (f x) = exceededCount (g x)) :
    exceededCount (xs.flatMap f) = exceededCount (xs.flatMap g) := by
  induction xs with
  | nil => rfl
  | cons x xs ih =>
    rw [List.flatMap_cons, List.flatMap_cons, exceededCount_append, exceededCount_append, h, ih]

namespace Block

/-- What is found about the slippage of a block, if it is an action. -/
def actionIssues (b : Block) : List Issue :=
  if b.category = .action then b.slippageIssues else []

theorem exceededCount_categoryIssues (b : Block) :
    exceededCount b.categoryIssues = exceededCount b.actionIssues := by
  have hcode : IssueCode.invalidConfig ≠ .riskExceeded := by decide
  have hlimits : Spared b.limitIssues := List.forall_mem_map.2 fun _ _ => hcode
  unfold categoryIssues actionIssues
  cases b.category with
  | action => rfl
  | risk => exact hlimits.exceededCount_eq
  | condition => exact (b.coded_operatorIssues.spared (by decide)).exceededCount_eq
  | trigger | capital | data | utility => rfl

theorem exceededCount_issues (config : ValidationConfig) (catalog : Catalog) (b : Block) :
    exceededCount (b.issues config catalog) = exceededCount b.actionIssues := by
  have hconfig : IssueCode.invalidConfig ≠ .riskExceeded := by decide
  have hinput : IssueCode.missingRequiredInput ≠ .riskExceeded := by decide
  have htype : Spared (b.typeIssues catalog) := Issue.forall_ite hconfig
  have hschedule : Spared b.scheduleIssues := Issue.forall_ite hinput
  have hnames : Spared (b.whitelistIssues config) :=
    (b.coded_whitelistIssues config).spared (by decide)
  rw [issues, settingIssues, exceededCount_append, exceededCount_append, exceededCount_append,
    htype.exceededCount_eq, hschedule.exceededCount_eq,
    hnames.exceededCount_eq, exceededCount_categoryIssues]
  omega

end Block

namespace Strategy

theorem spared_structureIssues (s : Strategy) : Spared s.structureIssues := by
  have htrigger : IssueCode.missingTrigger ≠ .riskExceeded := by decide
  have haction : IssueCode.missingRequiredInput ≠ .riskExceeded := by decide
  have hcycle : IssueCode.circularDependency ≠ .riskExceeded := by decide
  have hreach : IssueCode.unreachableBlock ≠ .riskExceeded := by decide
  refine Spared.append (Spared.append (Spared.append (Issue.forall_ite htrigger)
    (Issue.forall_ite haction)) (Issue.forall_else hcycle))
    (Issue.forall_filterMap fun id i hi => ?_)
  split at hi
  · split at hi
    · cases hi
    · cases hi
      exact hreach
  · cases hi

/-- The limits and the slippage of actions are all that adds to the score. -/
theorem exceededCount_findings (R : Type) [Scalar R] (v : Validator) (hrules : v.rules = [])
    (s : Strategy) :
    exceededCount (v.findings R s) =
      exceededCount (s.blocks.flatMap Block.actionIssues) + exceededCount (s.riskIssues R) := by
  have hblocks := exceededCount_flatMap s.blocks (Block.exceededCount_issues v.config v.catalog)
  have hconnections : Spared s.connectionIssues := s.coded_connectionIssues.spared (by decide)
  have hcompliance : Spared (s.complianceIssues R v.config v.catalog) :=
    (s.coded_complianceIssues R v.config v.catalog).spared (by decide)
  rw [Validator.findings, hrules, List.filterMap_nil, List.append_nil, exceededCount_append,
    exceededCount_append, exceededCount_append, exceededCount_append,
    s.spared_structureIssues.exceededCount_eq, hconnections.exceededCount_eq, hblocks,
    hcompliance.exceededCount_eq]
  omega

/-- No limit is found to be exceeded that was not exceeded before. -/
theorem riskIssues_decompile (R : Type) [Scalar R] (catalog : Catalog) (s : Strategy) :
    ((s.compile catalog).decompile.riskIssues R).Sublist (s.riskIssues R) := by
  have hrisk : ((s.compile catalog).decompile.blocksOf .risk).isEmpty =
      (s.blocksOf .risk).isEmpty := by
    rw [Bool.eq_iff_iff, List.isEmpty_iff, List.isEmpty_iff, blocksOf, blocksOf,
      List.filter_eq_nil_iff, List.filter_eq_nil_iff]
    exact CompiledStrategy.forall_block_decompile catalog s
      (p := fun x => ¬ (x.2.1 == .risk) = true)
  have hstop : (Scalar.isZero (Scalar.ofFloat s.riskParams.stopLossPercent : R) &&
      (s.compile catalog).decompile.category == .trading) = true →
      (Scalar.isZero (Scalar.ofFloat s.riskParams.stopLossPercent : R) &&
        s.category == .trading) = true := by
    intro h
    cases (Bool.and_eq_true_iff.1 h).2
  unfold riskIssues
  rw [hrisk]
  exact (((((((List.Sublist.refl _).append (List.Sublist.refl _)).append
    (List.Sublist.refl _)).append (List.Sublist.refl _)).append
    (riskIssue_sublist hstop ..)).append (List.Sublist.refl _)).append
    (List.Sublist.refl _)).append (List.Sublist.refl _)

/-- Nothing is found that adds to the score and was not found before. -/
theorem exceededCount_decompile (R : Type) [Scalar R] (v : Validator) (hrules : v.rules = [])
    (catalog : Catalog) (s : Strategy) :
    exceededCount (v.findings R (s.compile catalog).decompile) ≤
      exceededCount (v.findings R s) := by
  have hactions : (s.compile catalog).decompile.blocks.map Block.actionIssues =
      s.blocks.map Block.actionIssues := by
    rw [CompiledStrategy.map_decompile catalog s fun _ _ => rfl, carried, List.map_map]
    rfl
  have hrisk := ((s.riskIssues_decompile R catalog).filter (·.code == .riskExceeded)).length_le
  rw [exceededCount_findings R v hrules, exceededCount_findings R v hrules, List.flatMap_def,
    List.flatMap_def, hactions]
  exact Nat.add_le_add_left hrisk _

end Strategy

/-! ## The verdict -/

namespace Validator

theorem errors_of_validate {R : Type} [Scalar R] {v : Validator} {s : Strategy} {r : Verdict R}
    (hr : v.validate R s = .ok r) : r.errors = Issue.errors (v.findings R s) := (of_validate hr).1

theorem isFinite_of_validate {v : Validator} {s : Strategy} {r : Verdict Float}
    (hr : v.validate Float s = .ok r) :
    Double.isFinite (s.rawRisk Float (v.findings Float s) + Scalar.decimal 5 1) = true := by
  by_contra hinfinite
  obtain ⟨f, hf, -⟩ := v.validate_of_not_finite s (Bool.eq_false_iff.2 hinfinite)
  cases hr.symm.trans hf

/-- A strategy without errors has a verdict when it comes back from the interchange form too. Its
errors are those about the operators of conditions that are known by their type alone; there are none
if each condition is a logic gate that way exactly if it was one. -/
theorem validate_decompile (config : ValidationConfig) (catalog catalog' : Catalog) (s : Strategy)
    (r : Verdict Float) (hr : (Validator.mk config catalog []).validate Float s = .ok r)
    (hvalid : r.errors = []) :
    ∃ r', (Validator.mk config catalog []).validate Float (s.compile catalog').decompile = .ok r' ∧
      r'.errors = s.carried.blocks.flatMap Block.conditionIssues ∧
      ((∀ b ∈ s.blocks, b.category = .condition → b.carried.isLogicGate = b.isLogicGate) →
        r'.errors = []) := by
  have hadmissible : s.Admissible Float := by
    rw [errors_of_validate hr, Issue.errors_eq_nil_iff] at hvalid
    exact (noErrors_findings _ s rfl).1 hvalid
  have hfewer := Strategy.exceededCount_decompile Float ⟨config, catalog, []⟩ rfl catalog' s
  have hfinite := s.rawRisk_finite_of_le (s.compile catalog').decompile rfl (Nat.zero_le _) hfewer
    (isFinite_of_validate hr)
  obtain ⟨r', hr', -⟩ := validate_of_finite _ _ hfinite
  have herrors : r'.errors = s.carried.blocks.flatMap Block.conditionIssues := by
    have hsound := hadmissible.sound_decompile catalog'
    rw [errors_of_validate hr', hsound.errors_findings _ rfl, List.flatMap_def, List.flatMap_def,
      CompiledStrategy.map_decompile catalog' s fun _ _ => rfl]
  refine ⟨r', hr', herrors, fun hgates => ?_⟩
  rw [herrors, Strategy.carried, List.flatMap_map, List.flatMap_eq_nil_iff]
  intro b hb
  have hcarried : b.carried.category = b.category := rfl
  rw [Block.conditionIssues, hcarried]
  split
  case isTrue hcondition =>
    have hoperator := (Block.noErrors_operatorIssues b).2 (hadmissible.operators b hb hcondition)
    rw [Block.operatorIssues_carried (hgates b hb hcondition), ← Block.errors_operatorIssues]
    exact hoperator.errors_eq
  case isFalse => rfl

/-- A schedule, and a condition that is called a logic gate. -/
def gated (type : String) : Strategy :=
  Engine.pair Engine.hourly
    (Engine.plainBlock .condition type "Logic Gate" [("operator", .str "and")])

set_option maxRecDepth 4000 in
/-- A condition on the price that was a logic gate by its name is none when it comes back. -/
theorem gate_lost :
    ((standard.validate Float (gated "condition_price")).map (·.errors)).toOption = some [] ∧
    ((standard.validate Float ((gated "condition_price").compile .core).decompile).map
        (·.errors)).toOption =
      some [⟨.error, .invalidConfig, "Invalid operator: and", some "condition_price", none,
        some "operator"⟩] := by
  have hcycle : (gated "condition_price").findCycle = [] := by cbv
  have hreach : (gated "condition_price").findUnreachable = ["condition_price"] := by cbv
  rw [validate, validate, findings, findings, Strategy.structureIssues, Strategy.structureIssues,
    CompiledStrategy.findCycle_decompile, CompiledStrategy.findUnreachable_decompile, hcycle, hreach]
  decide +kernel

set_option maxRecDepth 4000 in
/-- One that is a logic gate by its type stays one. -/
theorem gate_kept :
    ∃ r r', standard.validate Float (gated "condition_logic") = .ok r ∧ r.errors = [] ∧
      standard.validate Float ((gated "condition_logic").compile .core).decompile = .ok r' ∧
      r'.errors = [] := by
  have hcycle : (gated "condition_logic").findCycle = [] := by cbv
  have hreach : (gated "condition_logic").findUnreachable = ["condition_logic"] := by cbv
  obtain ⟨r, hr, herrors⟩ : ∃ r : Verdict Float,
      standard.validate Float (gated "condition_logic") = .ok r ∧ r.errors = [] := by
    refine Except.exists_of_map ?_
    rw [validate, findings, Strategy.structureIssues, hcycle, hreach]
    decide +kernel
  obtain ⟨r', hr', -, hkept⟩ := validate_decompile .standard .core .core _ r hr herrors
  exact ⟨r, r', hr, herrors, hr', hkept (by decide +kernel)⟩

end Validator

end Tradeflow
