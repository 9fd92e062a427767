/-
  The ticks that a run works through. At each, the triggers are asked one after the other
  (`Trigger.anyFires_cons`). `Ticked` says all that one tick does; a `Trace` is a list of ticks, each
  worked through from the state that the one before it left. Every run is a trace, up to the tick
  before which it was stopped (`replay_cons`), and so is what any number of its first ticks did
  (`trace_of_replay`, `Trace.take`): what is proved for traces holds after every tick, also of runs
  that fail later.
-/
import Tradeflow.Backtest.Run
import Tradeflow.Proofs.Backtest.Actions

namespace Tradeflow

variable {R : Type} [Scalar R]

/-! ## Triggers in turn -/

namespace Trigger

variable {v : View R} {clocks clocks' : Clocks} {triggers : List (Block × TriggerKind)}
  {fired : Bool}

/-- A trigger other than a schedule leaves the clocks alone. -/
theorem fires_of_ne_schedule {kind : TriggerKind} (hkind : kind ≠ .schedule) (v : View R)
    (clocks : Clocks) (b : Block) : fires v clocks b kind = (holds v b kind).map (·, clocks) := by
  unfold fires
  split
  · exact absurd rfl hkind
  · rfl

/-- The first trigger is asked, and the others after it. -/
theorem anyFires_cons {x : Block × TriggerKind} :
    anyFires v clocks (x :: triggers) = .ok (fired, clocks') ↔
      ∃ first clocks₁ more, fires v clocks x.1 x.2 = .ok (first, clocks₁) ∧
        anyFires v clocks₁ triggers = .ok (more, clocks') ∧ fired = (first || more) := by
  obtain ⟨b, kind⟩ := x
  constructor
  · intro h
    rw [anyFires] at h
    split at h
    · cases h
    case h_2 first clocks₁ hfirst =>
      split at h
      · cases h
      case h_2 more clocks₂ hmore =>
        cases h
        exact ⟨first, clocks₁, more, hfirst, hmore, rfl⟩
  · rintro ⟨first, clocks₁, more, hfirst, hmore, rfl⟩
    rw [anyFires, hfirst]
    dsimp only
    rw [hmore]

end Trigger

namespace Backtest

variable {config : EngineConfig} {plan : Plan}
  {s s' s'' : State R} {t : PriceTick R} {step : Step R} {ticks : List (PriceTick R)}
  {steps : List (Step R)}

/-! ## One tick -/

/-- What one tick does; `fired` says whether a trigger fired. -/
structure Ticked (config : EngineConfig) (plan : Plan) (s : State R) (t : PriceTick R)
    (fired : Bool) (s' : State R) (step : Step R) : Prop where
  triggers : Trigger.anyFires ⟨config.defaultPrices, t, s.previous, s.action.ledger⟩ s.clocks
    plan.triggers = .ok (fired, s'.clocks)
  acted : fired = true →
    Action.executeAll ⟨config.quoteToken, config.defaultPrices, t⟩ s.action plan.actions =
      .ok (s'.action, step.trades)
  idle : fired = false → s'.action = s.action ∧ step.trades = []
  previous : s'.previous = t.prices
  firings : s'.firings = if fired then s.firings + 1 else s.firings
  equity : step.equity = ⟨t.timestamp, s'.action.ledger.equity config.defaultPrices t⟩
  peak : s'.peak = Scalar.larger s.peak step.equity.value
  drawdown : step.drawdown = ⟨t.timestamp, drawdownOf s'.peak step.equity.value⟩

theorem tick_cases (h : tick config plan s t = .ok (s', step)) :
    ∃ fired, Ticked config plan s t fired s' step := by
  unfold tick at h
  dsimp only at h
  split at h
  · cases h
  case h_2 fired clocks htriggers =>
    cases fired with
    | true =>
      rw [if_pos rfl] at h
      split at h
      · cases h
      case h_2 action trades hacted =>
        cases h
        exact ⟨true,
          { triggers := htriggers
            acted := fun _ => hacted
            idle := fun hfired => by cases hfired
            previous := rfl
            firings := rfl
            equity := rfl
            peak := rfl
            drawdown := rfl }⟩
    | false =>
      cases h
      exact ⟨false,
        { triggers := htriggers
          acted := fun hfired => by cases hfired
          idle := fun _ => ⟨rfl, rfl⟩
          previous := rfl
          firings := rfl
          equity := rfl
          peak := rfl
          drawdown := rfl }⟩

/-- A tick records the trades of its actions; without a firing trigger there are none. -/
theorem Ticked.recorded {fired : Bool} (h : Ticked config plan s t fired s' step) :
    Action.Recorded ⟨config.quoteToken, config.defaultPrices, t⟩ s.action step.trades
      s'.action := by
  cases fired with
  | true => exact Action.recorded_executeAll (h.acted rfl)
  | false =>
    obtain ⟨haction, htrades⟩ := h.idle rfl
    rw [haction, htrades]
    exact .nil s.action

/-! ## Many ticks -/

/-- Ticks worked through one after the other, with what each leaves behind. -/
inductive Trace (config : EngineConfig) (plan : Plan) :
    State R → List (PriceTick R) → List (Step R) → State R → Prop where
  | nil (s : State R) : Trace config plan s [] [] s
  | cons {s s' s'' : State R} {t : PriceTick R} {step : Step R} {ticks : List (PriceTick R)}
      {steps : List (Step R)} (first : tick config plan s t = .ok (s', step))
      (rest : Trace config plan s' ticks steps s'') :
      Trace config plan s (t :: ticks) (step :: steps) s''

theorem Trace.length_eq (h : Trace config plan s ticks steps s') : steps.length = ticks.length := by
  induction h with
  | nil => rfl
  | cons _ _ ih => simp [ih]

/-- What the first ticks did is a trace of its own. -/
theorem Trace.take (h : Trace config plan s ticks steps s') (n : Nat) :
    ∃ s₁, Trace config plan s (ticks.take n) (steps.take n) s₁ := by
  induction h generalizing n with
  | nil s =>
    rw [List.take_nil, List.take_nil]
    exact ⟨s, .nil s⟩
  | @cons s s' s'' t step ticks steps first rest ih =>
    cases n with
    | zero => exact ⟨s, .nil s⟩
    | succ n =>
      obtain ⟨s₁, hrest⟩ := ih n
      exact ⟨s₁, .cons first hrest⟩

/-- Before a tick a replay is stopped, or else it works through the tick and goes on. -/
theorem replay_cons {watch : Watch} {index : Nat} {p : Progress R}
    (h : replay config plan watch index s (t :: ticks) = .ok p) :
    (watch.cancelled index = true ∨ config.maxDurationSeconds < watch.elapsed index) ∧
        p = ⟨s, [], if watch.cancelled index = true then .cancelled else .timedOut⟩ ∨
      ¬ (watch.cancelled index = true ∨ config.maxDurationSeconds < watch.elapsed index) ∧
        ∃ s₁ step p₁, tick config plan s t = .ok (s₁, step) ∧
          replay config plan watch (index + 1) s₁ ticks = .ok p₁ ∧
          p = { p₁ with steps := step :: p₁.steps } := by
  rw [replay] at h
  split at h
  case isTrue hcancelled =>
    cases h
    exact .inl ⟨.inl hcancelled, by rw [if_pos hcancelled]⟩
  case isFalse hcancelled =>
    split at h
    case isTrue hlate =>
      cases h
      exact .inl ⟨.inr hlate, by rw [if_neg hcancelled]⟩
    case isFalse hintime =>
      refine .inr ⟨not_or.2 ⟨hcancelled, hintime⟩, ?_⟩
      split at h
      · cases h
      case h_2 s₁ step htick =>
        split at h
        · cases h
        case h_2 p₁ hrest =>
          cases h
          exact ⟨s₁, step, p₁, htick, hrest, rfl⟩

/-- A run works through its first ticks, as many as it has steps. -/
theorem trace_of_replay {watch : Watch} {index : Nat} {p : Progress R}
    (h : replay config plan watch index s ticks = .ok p) :
    p.steps.length ≤ ticks.length ∧
      Trace config plan s (ticks.take p.steps.length) p.steps p.state := by
  induction ticks generalizing index s p with
  | nil =>
    cases h
    exact ⟨Nat.le_refl 0, .nil _⟩
  | cons t ticks ih =>
    rcases replay_cons h with ⟨-, rfl⟩ | ⟨-, s₁, step, p₁, htick, hrest, rfl⟩
    · exact ⟨Nat.zero_le _, .nil _⟩
    · obtain ⟨hle, htrace⟩ := ih hrest
      exact ⟨Nat.succ_le_succ hle, .cons htick htrace⟩

/-- The price series that a run goes over, and the random numbers that are left after it. -/
def marketOf (sim : Simulator) (strategy : Strategy) (cfg : SimulationConfig)
    (seeded : Random.Generator) : List (PriceTick R) × Random.Generator :=
  PriceSeries.build sim.config sim.feed (strategy.plan sim.catalog sim.config.quoteToken).tokens cfg
    seeded

/-- A run replays the ticks of its market for the plan of its strategy. -/
theorem run_cases {sim : Simulator} {watch : Watch} {entropy : Nat} {strategy : Strategy}
    {cfg : SimulationConfig} {outcome : Outcome R}
    (h : run R sim watch entropy strategy cfg = .ok outcome) :
    ∃ seeded ticks g p, generatorOf cfg entropy = .ok seeded ∧
      marketOf sim strategy cfg seeded = (ticks, g) ∧
      replay sim.config (strategy.plan sim.catalog sim.config.quoteToken) watch 0
        (State.start (Scalar.ofFloat cfg.initialCapital) g) ticks = .ok p ∧
      outcome = p.outcome cfg := by
  unfold run at h
  split at h
  · cases h
  case h_2 seeded hseeded =>
    dsimp only at h
    split at h
    · cases h
    case h_2 p hreplay =>
      cases h
      exact ⟨seeded, _, _, p, hseeded, rfl, hreplay, rfl⟩

end Backtest

end Tradeflow
