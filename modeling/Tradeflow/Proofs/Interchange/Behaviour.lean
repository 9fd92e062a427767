/-
  Running a strategy that went through the interchange form. A run looks at the id and the settings
  of the blocks of its plan and at nothing else (`Plan.core`, `replay_core`), so two strategies run
  alike when the cores of their plans agree. The form keeps of a block its id, category, settings
  and type; what comes back is enabled, has no kind of action of its own, and is named by its type
  (`Block.carried`). So the form runs like the strategy of carried blocks (`plan_decompile`), and
  like the strategy itself where nothing of this matters (`Strategy.Portable`).
  `backtest_decompile` says both for calls that use no cache.
-/
import Tradeflow.Backtest.Engine
import Tradeflow.Catalog.Core
import Tradeflow.Proofs.Backtest.Trace
import Tradeflow.Proofs.Interchange.RoundTrip

namespace Tradeflow

/-! ## What a run reads of its plan -/

/-- A block with nothing but its id and its settings. -/
def Block.core (b : Block) : Block where
  id := b.id
  category := .utility
  name := ""
  type := none
  description := ""
  version := ""
  config := b.config
  position := .origin
  inputs := []
  outputs := []
  enabled := true
  actionKind := none
  metadata := []

/-- The plan with nothing but ids and settings of its blocks. -/
def Plan.core (p : Plan) : Plan where
  triggers := p.triggers.map fun x => (x.1.core, x.2)
  actions := p.actions.map fun x => (x.1.core, x.2)
  tokens := p.tokens

section Core

variable {R : Type} [Scalar R]

theorem Trigger.fires_core (v : Trigger.View R) (clocks : Trigger.Clocks) (b : Block)
    (kind : TriggerKind) : Trigger.fires v clocks b.core kind = Trigger.fires v clocks b kind := by
  cases kind <;> rfl

theorem Trigger.anyFires_core (v : Trigger.View R) (clocks : Trigger.Clocks)
    (triggers : List (Block × TriggerKind)) :
    Trigger.anyFires v clocks (triggers.map fun x => (x.1.core, x.2)) =
      Trigger.anyFires v clocks triggers := by
  induction triggers generalizing clocks with
  | nil => rfl
  | cons x triggers ih =>
    obtain ⟨b, kind⟩ := x
    rw [List.map_cons, Trigger.anyFires, Trigger.anyFires, Trigger.fires_core]
    simp only [ih]

theorem Action.execute_core (e : Action.Setup R) (s : Action.State R) (b : Block)
    (kind : ActionKind) : Action.execute e s b.core kind = Action.execute e s b kind := by
  cases kind <;> rfl

theorem Action.executeAll_core (e : Action.Setup R) (s : Action.State R)
    (actions : List (Block × ActionKind)) :
    Action.executeAll e s (actions.map fun x => (x.1.core, x.2)) =
      Action.executeAll e s actions := by
  induction actions generalizing s with
  | nil => rfl
  | cons x actions ih =>
    obtain ⟨b, kind⟩ := x
    rw [List.map_cons, Action.executeAll, Action.executeAll, Action.execute_core]
    simp only [ih]

namespace Backtest

theorem tick_core (config : EngineConfig) (plan : Plan) (s : State R) (t : PriceTick R) :
    tick config plan.core s t = tick config plan s t := by
  have htriggers : ∀ (v : Trigger.View R) (clocks : Trigger.Clocks),
      Trigger.anyFires v clocks plan.core.triggers = Trigger.anyFires v clocks plan.triggers :=
    fun v clocks => Trigger.anyFires_core v clocks plan.triggers
  have hactions : ∀ (e : Action.Setup R) (s : Action.State R),
      Action.executeAll e s plan.core.actions = Action.executeAll e s plan.actions :=
    fun e s => Action.executeAll_core e s plan.actions
  unfold tick
  simp only [htriggers, hactions]

theorem replay_core (config : EngineConfig) (plan : Plan) (watch : Watch) (index : Nat)
    (s : State R) (ticks : List (PriceTick R)) :
    replay config plan.core watch index s ticks = replay config plan watch index s ticks := by
  induction ticks generalizing index s with
  | nil => rfl
  | cons t ticks ih =>
    rw [replay, replay, tick_core]
    simp only [ih]

/-- Strategies whose plans agree in ids and settings run alike. -/
theorem run_congr {sim : Simulator} {strategy strategy' : Strategy}
    (h : (strategy.plan sim.catalog sim.config.quoteToken).core =
      (strategy'.plan sim.catalog sim.config.quoteToken).core)
    (watch : Watch) (entropy : Nat) (cfg : SimulationConfig) :
    run R sim watch entropy strategy cfg = run R sim watch entropy strategy' cfg := by
  generalize hplan : strategy.plan sim.catalog sim.config.quoteToken = plan at h
  generalize hplan' : strategy'.plan sim.catalog sim.config.quoteToken = plan' at h
  have htokens : plan.tokens = plan'.tokens := by
    have hcore := congrArg Plan.tokens h
    exact hcore
  have hreplay : ∀ (s : State R) (ticks : List (PriceTick R)),
      replay sim.config plan watch 0 s ticks = replay sim.config plan' watch 0 s ticks := by
    intro s ticks
    rw [← replay_core, h, replay_core]
  unfold run
  simp only [hplan, hplan', htokens, hreplay]

end Backtest

end Core

/-! ## Blocks that were carried -/

/-- A block as the interchange form carries it: enabled, named by its type, and without a kind of
action of its own. -/
def Block.carried (b : Block) : Block :=
  { b with
    name := b.givenType?.getD b.name
    type := some (b.givenType?.getD b.name)
    enabled := true
    actionKind := none }

/-- The strategy with its blocks as the interchange form carries them. -/
def Strategy.carried (s : Strategy) : Strategy := { s with blocks := s.blocks.map Block.carried }

namespace CompiledStrategy

section Blocks

variable {α : Type} {p : Block → Bool} {f : Block → α}

/-- What depends on neither ports nor positions is the same of decompiled and of carried blocks. -/
theorem map_filter_decompile (catalog : Catalog) (s : Strategy)
    (hp : ∀ i b, p (decompileNode i (s.compileNode b)) = p b.carried)
    (hf : ∀ i b, f (decompileNode i (s.compileNode b)) = f b.carried) :
    ((s.compile catalog).decompile.blocks.filter p).map f =
      (s.carried.blocks.filter p).map f := by
  have hnumber : (s.compile catalog).decompile.blocks =
      s.blocks.mapIdx fun i b => decompileNode i (s.compileNode b) :=
    List.ext_getElem (by simp [decompile, Strategy.compile]) (by simp [decompile, Strategy.compile])
  have hcarried : (s.carried.blocks.filter p).map f =
      (s.blocks.filter (p ∘ Block.carried)).map (f ∘ Block.carried) := by
    rw [Strategy.carried, List.filter_map, List.map_map]
  rw [hnumber, hcarried]
  exact map_filter_mapIdx s.blocks hp hf

theorem map_decompile (catalog : Catalog) (s : Strategy)
    (hf : ∀ i b, f (decompileNode i (s.compileNode b)) = f b.carried) :
    (s.compile catalog).decompile.blocks.map f = s.carried.blocks.map f := by
  have hall := map_filter_decompile (p := fun _ => true) catalog s (fun _ _ => rfl) hf
  rwa [List.filter_eq_self.2 fun _ _ => rfl, List.filter_eq_self.2 fun _ _ => rfl] at hall

end Blocks

/-- The plan of what comes back is that of the carried blocks, but for ports and positions. -/
theorem plan_decompile (catalog catalog' : Catalog) (quote : String) (s : Strategy) :
    ((s.compile catalog).decompile.plan catalog' quote).core =
      (s.carried.plan catalog' quote).core := by
  have htriggers : ((s.compile catalog).decompile.enabled .trigger).map
        (fun b => (b.core, catalog'.triggerOf b)) =
      (s.carried.enabled .trigger).map fun b => (b.core, catalog'.triggerOf b) :=
    map_filter_decompile catalog s (fun _ _ => rfl) (fun _ _ => rfl)
  have hactions : ((s.compile catalog).decompile.enabled .action).map
        (fun b => (b.core, catalog'.actionOf b)) =
      (s.carried.enabled .action).map fun b => (b.core, catalog'.actionOf b) :=
    map_filter_decompile catalog s (fun _ _ => rfl) (fun _ _ => rfl)
  have htokens : (s.compile catalog).decompile.pricedTokens quote = s.carried.pricedTokens quote := by
    rw [Strategy.pricedTokens, Strategy.pricedTokens, List.flatMap_def, List.flatMap_def,
      map_decompile catalog s fun _ _ => rfl]
  rw [Plan.core, Plan.core, Strategy.plan, Strategy.plan]
  simp only [List.map_map]
  congr 1

end CompiledStrategy

/-! ## Strategies that lose nothing -/

theorem Catalog.typeOf?_carried {catalog : Catalog} {b : Block} {t : BlockType}
    (h : catalog.typeOf? b = some t) : catalog.typeOf? b.carried = some t := by
  cases hgiven : b.givenType? with
  | none =>
    rw [typeOf?, hgiven] at h
    cases h
  | some word =>
    have hne : (word != "") = true := (Option.filter_eq_some_iff.1 hgiven).2
    have hcarried : b.carried.givenType? = some word := by
      rw [Block.carried, hgiven]
      exact if_pos hne
    rw [typeOf?, hcarried, ← hgiven]
    exact h

namespace Strategy

/-- Nothing that a run looks at is lost on the way: triggers and actions are enabled, and what they
do is told by their settings and types, without their names and without the kind that an action
has of its own. -/
structure Portable (catalog : Catalog) (s : Strategy) : Prop where
  enabled : ∀ b ∈ s.blocks, b.category = .trigger ∨ b.category = .action → b.enabled = true
  triggers : ∀ b ∈ s.blocks, b.category = .trigger →
    catalog.triggerOf b.carried = catalog.triggerOf b
  actions : ∀ b ∈ s.blocks, b.category = .action → catalog.actionOf b.carried = catalog.actionOf b

theorem enabled_carried {s : Strategy} {category : BlockCategory} {κ : Type} (kind : Block → κ)
    (henabled : ∀ b ∈ s.blocks, b.category = category → b.enabled = true)
    (hkind : ∀ b ∈ s.blocks, b.category = category → kind b.carried = kind b) :
    (s.carried.enabled category).map (fun b => (b.core, kind b)) =
      (s.enabled category).map fun b => (b.core, kind b) := by
  have hfilter : s.blocks.filter (fun b => b.category == category && true) =
      s.blocks.filter fun b => b.category == category && b.enabled := by
    refine List.filter_congr fun b hb => ?_
    by_cases hcategory : b.category = category
    · rw [henabled b hb hcategory]
    · rw [beq_false_of_ne hcategory, Bool.false_and, Bool.false_and]
  have hcarried : (s.carried.enabled category).map (fun b => (b.core, kind b)) =
      (s.blocks.filter fun b => b.category == category && true).map
        fun b => (b.core, kind b.carried) := by
    rw [enabled, carried, List.filter_map, List.map_map]
    rfl
  rw [hcarried, hfilter, enabled]
  refine List.map_congr_left fun b hb => ?_
  obtain ⟨hmem, htest⟩ := List.mem_filter.1 hb
  have hcategory : b.category = category := beq_iff_eq.1 (Bool.and_eq_true_iff.1 htest).1
  rw [hkind b hmem hcategory]

theorem Portable.plan_carried {catalog : Catalog} {s : Strategy} (h : s.Portable catalog)
    (quote : String) : (s.carried.plan catalog quote).core = (s.plan catalog quote).core := by
  have htriggers := enabled_carried catalog.triggerOf
    (fun b hb hcategory => h.enabled b hb (.inl hcategory)) h.triggers
  have hactions := enabled_carried catalog.actionOf
    (fun b hb hcategory => h.enabled b hb (.inr hcategory)) h.actions
  have htokens : s.carried.pricedTokens quote = s.pricedTokens quote := by
    rw [pricedTokens, pricedTokens, carried, List.flatMap_def, List.flatMap_def, List.map_map]
    rfl
  rw [Plan.core, Plan.core, plan, plan]
  simp only [List.map_map]
  congr 1

/-- Blocks of registered types that say what their blocks do are carried well, as long as none has
another kind of action of its own. -/
theorem portable_of_typed {catalog : Catalog} {s : Strategy}
    (henabled : ∀ b ∈ s.blocks, b.category = .trigger ∨ b.category = .action → b.enabled = true)
    (htriggers : ∀ b ∈ s.blocks, b.category = .trigger →
      ∃ t kind, catalog.typeOf? b = some t ∧ t.triggerKind = some kind)
    (hactions : ∀ b ∈ s.blocks, b.category = .action →
      ∃ t kind, catalog.typeOf? b = some t ∧ t.actionKind = some kind ∧
        (b.actionKind = none ∨ b.actionKind = some kind)) : s.Portable catalog where
  enabled := henabled
  triggers := by
    intro b hb hcategory
    obtain ⟨t, kind, htype, hkind⟩ := htriggers b hb hcategory
    have hcarried := Catalog.typeOf?_carried htype
    rw [Catalog.triggerOf, Catalog.triggerOf, hcarried, htype, Option.bind_some, hkind]
    rfl
  actions := by
    intro b hb hcategory
    obtain ⟨t, kind, htype, hkind, hown⟩ := hactions b hb hcategory
    have hcarried : catalog.actionOf b.carried = kind := by
      rw [Catalog.actionOf, Catalog.typeOf?_carried htype, Option.bind_some, hkind]
      rfl
    rw [hcarried, Catalog.actionOf, htype, Option.bind_some, hkind]
    rcases hown with hown | hown <;> rw [hown]

end Strategy

/-! ## Calls without the cache -/

namespace Engine

variable {R : Type} [Scalar R]

theorem backtest_uncached (e : Engine R) (o : Occasion) (s : Strategy) (cfg : SimulationConfig) :
    e.backtest o false s cfg =
      (compute e.sim e.issued o s cfg).map fun r => (r, { e with issued := e.issued + 1 }) := by
  have hlookup : e.lookup false s cfg = none := by
    rw [lookup, Bool.and_false, if_neg Bool.false_ne_true]
  have hstore : ∀ (e : Engine R) (r : BacktestResult R), e.store false s cfg r = e := by
    intro e r
    rw [store, Bool.and_false, Bool.false_and, if_neg Bool.false_ne_true]
  unfold backtest
  rw [hlookup]
  cases hcompute : (compute e.sim e.issued o s cfg : Except Fault (BacktestResult R)) with
  | error f => rfl
  | ok r =>
    dsimp only
    rw [hstore]
    rfl

theorem backtest_congr {e : Engine R} (s s' : Strategy) (hid : s.id = s'.id)
    (hplan : (s.plan e.sim.catalog e.sim.config.quoteToken).core =
      (s'.plan e.sim.catalog e.sim.config.quoteToken).core)
    (o : Occasion) (cfg : SimulationConfig) :
    e.backtest o false s cfg = e.backtest o false s' cfg := by
  have hfile : (file e.issued o s cfg : Backtest.Outcome R → BacktestResult R) =
      file e.issued o s' cfg := by
    funext outcome
    rw [file, file, hid]
  rw [backtest_uncached, backtest_uncached, compute, compute, Backtest.run_congr hplan, hfile]

/-- Without the cache, what comes back from the interchange form runs like the strategy of carried
blocks, whatever the strategy; and like the strategy itself if that is portable. -/
theorem backtest_decompile (catalog : Catalog) (s : Strategy) (e : Engine R) (o : Occasion)
    (cfg : SimulationConfig) :
    e.backtest o false (s.compile catalog).decompile cfg = e.backtest o false s.carried cfg ∧
    (s.Portable e.sim.catalog →
      e.backtest o false (s.compile catalog).decompile cfg = e.backtest o false s cfg) := by
  have hplan := CompiledStrategy.plan_decompile catalog e.sim.catalog e.sim.config.quoteToken s
  have hid : (s.compile catalog).decompile.id = s.id := rfl
  constructor
  · exact backtest_congr _ s.carried hid hplan o cfg
  · intro hportable
    exact backtest_congr _ s hid (hplan.trans (hportable.plan_carried _)) o cfg

/-- A block of a type with a name. -/
def plainBlock (category : BlockCategory) (type name : String) (config : Assoc Json) : Block where
  id := type
  category := category
  name := name
  type := some type
  description := ""
  version := "1.0.0"
  config := config
  position := .origin
  inputs := []
  outputs := []
  enabled := true
  actionKind := none
  metadata := []

/-- A trigger and an action. -/
def pair (trigger action : Block) : Strategy where
  id := "s"
  name := ""
  description := ""
  category := .custom
  version := "1.0.0"
  status := .draft
  blocks := [trigger, action]
  connections := []
  settings := .standard
  riskParams := .standard
  tags := []
  metadata := []

def hourly : Block := plainBlock .trigger "trigger_schedule" "Schedule" [("interval", .int 3600)]

def halfSwap : Block :=
  { plainBlock .action "action_swap" "Swap" [("amount", .int 50)] with actionKind := some .swap }

/-- One hour of a synthetic market. -/
def oneHour : SimulationConfig where
  startDate := ⟨0⟩
  endDate := ⟨3600000000⟩
  initialCapital := 1000
  priceDataSource := .synthetic
  slippageModel := .realistic
  gasModel := .historical
  marketConditions := none
  monteCarloRuns := none
  seed := some 7

/-- How many trades a strategy makes in that hour. -/
def tradesInOneHour (s : Strategy) : Option Nat :=
  let e : Engine Float := Engine.start ⟨.standard, .core, none⟩
  ((e.backtest ⟨⟨0⟩, 0, .idle⟩ false s oneHour).map (·.1.trades.length)).toOption

/-- The trades of a strategy, and those of what comes back from the interchange form. -/
def tradesBeforeAndAfter (s : Strategy) : Option Nat × Option Nat :=
  (tradesInOneHour s, tradesInOneHour (s.compile .core).decompile)

/-- An action that is switched off comes back switched on; one whose type is not registered comes
back without its kind, and so does a trigger that is known by its name. -/
theorem trades_lost_and_gained :
    tradesBeforeAndAfter (pair hourly { halfSwap with enabled := false }) = (some 0, some 1) ∧
    tradesBeforeAndAfter (pair hourly { halfSwap with type := some "mine" }) = (some 1, some 0) ∧
    tradesBeforeAndAfter (pair { hourly with type := some "mine" } halfSwap) = (some 1, some 0) := by
  decide +kernel

/-- Switched on and of registered types, both come back as they were. -/
theorem hourly_halfSwap_portable :
    (pair hourly halfSwap).Portable .core ∧ tradesInOneHour (pair hourly halfSwap) = some 1 ∧
      tradesInOneHour ((pair hourly halfSwap).compile .core).decompile = some 1 := by
  have hportable : (pair hourly halfSwap).Portable .core := by
    refine Strategy.portable_of_typed (by decide +kernel) ?_ ?_
    · intro b hb hcategory
      rcases List.mem_cons.1 hb with rfl | hb
      · exact ⟨Catalog.Core.triggerSchedule, .schedule, rfl, rfl⟩
      · cases List.mem_singleton.1 hb
        cases hcategory
    · intro b hb hcategory
      rcases List.mem_cons.1 hb with rfl | hb
      · cases hcategory
      · cases List.mem_singleton.1 hb
        exact ⟨Catalog.Core.actionSwap, .swap, rfl, rfl, .inr rfl⟩
  have htrades : tradesInOneHour (pair hourly halfSwap) = some 1 := by decide +kernel
  have hsame := (backtest_decompile .core (pair hourly halfSwap)
    (Engine.start ⟨.standard, .core, none⟩ : Engine Float) ⟨⟨0⟩, 0, .idle⟩ oneHour).2 hportable
  refine ⟨hportable, htrades, ?_⟩
  rw [← htrades, tradesInOneHour, tradesInOneHour, hsame]

end Engine

end Tradeflow
