/-
  What a run knows of the future: nothing. Two feeds that agree for `k` bars of every token lead to
  runs that do the same at their first `k` ticks, whatever bars follow and however many.

  A tick depends on the state before it and on nothing else, so ticks and their trace determine what
  they leave behind (`Trace.unique`); the random numbers of a historical run are drawn by its swaps
  alone, so both runs start from the same ones (`build_historical`). A run that is not stopped goes
  through all its ticks (`replay_all`), and one that fails at an early tick fails whatever comes
  later (`replay_append_error`).
-/
import Tradeflow.Proofs.Backtest.Trace
import Tradeflow.Proofs.Market.History

namespace Tradeflow

/-- A watch that never stops a run. -/
def Watch.Open (limit : Float) (w : Watch) : Prop :=
  ∀ i, w.cancelled i = false ∧ ¬ limit < w.elapsed i

namespace Backtest

variable {R : Type} [Scalar R] {config : EngineConfig} {plan : Plan} {s s' s'' : State R}
  {ticks later : List (PriceTick R)} {steps steps' : List (Step R)}

/-! ## Ticks determine what they leave behind -/

theorem Trace.unique (h : Trace config plan s ticks steps s')
    (h' : Trace config plan s ticks steps' s'') : steps = steps' ∧ s' = s'' := by
  induction h generalizing steps' with
  | nil =>
    cases h'
    exact ⟨rfl, rfl⟩
  | cons first rest ih =>
    cases h' with
    | cons first' rest' =>
      rw [first] at first'
      cases first'
      obtain ⟨rfl, rfl⟩ := ih rest'
      exact ⟨rfl, rfl⟩

theorem replay_cons_open {watch : Watch} (hopen : watch.Open config.maxDurationSeconds)
    (index : Nat) (t : PriceTick R) :
    replay config plan watch index s (t :: ticks) =
      match tick config plan s t with
      | .error f => .error f
      | .ok (s', step) =>
        match replay config plan watch (index + 1) s' ticks with
        | .error f => .error f
        | .ok p => .ok { p with steps := step :: p.steps } := by
  obtain ⟨hcancelled, helapsed⟩ := hopen index
  rw [replay, hcancelled]
  exact (if_neg Bool.false_ne_true).trans (if_neg helapsed)

/-- A run that is not stopped goes through all its ticks. -/
theorem replay_all {watch : Watch} (hopen : watch.Open config.maxDurationSeconds) {index : Nat}
    {p : Progress R} (h : replay config plan watch index s ticks = .ok p) :
    Trace config plan s ticks p.steps p.state := by
  induction ticks generalizing index s p with
  | nil =>
    cases h
    exact .nil s
  | cons t ticks ih =>
    rw [replay_cons_open hopen] at h
    split at h
    · cases h
    case h_2 s₁ step hfirst =>
      split at h
      · cases h
      case h_2 p₁ hrest =>
        cases h
        exact .cons hfirst (ih hrest)

/-- A fault at an early tick is the fault of the run. -/
theorem replay_append_error {watch watch' : Watch} (hopen : watch.Open config.maxDurationSeconds)
    (hopen' : watch'.Open config.maxDurationSeconds) {index index' : Nat} {f : Fault}
    (h : replay config plan watch index s ticks = .error f) :
    replay config plan watch' index' s (ticks ++ later) = .error f := by
  induction ticks generalizing index index' s with
  | nil => cases h
  | cons t ticks ih =>
    rw [replay_cons_open hopen] at h
    rw [List.cons_append, replay_cons_open hopen']
    split at h
    · exact h
    · split at h
      case h_1 e hrest =>
        cases h
        rw [ih hrest]
      · cases h

/-! ## Historical runs -/

theorem plan_tokens_ne_nil (catalog : Catalog) (quote : String) (strategy : Strategy) :
    (strategy.plan catalog quote).tokens ≠ [] := by
  have hmem : "TON" ∈ (strategy.plan catalog quote).tokens :=
    List.mem_eraseDups.2 (List.mem_append_right _ List.mem_cons_self)
  exact List.ne_nil_of_mem hmem

/-- A series of bars takes no random numbers. -/
theorem build_historical {feed : PriceFeed} {tokens : List String} {cfg : SimulationConfig}
    {g : Random.Generator} (hsource : cfg.priceDataSource = .historical)
    (hne : (PriceSeries.historical feed tokens cfg : List (PriceTick R)) ≠ []) :
    (PriceSeries.build config (some feed) tokens cfg g : List (PriceTick R) × Random.Generator) =
      (PriceSeries.historical feed tokens cfg, g) := by
  unfold PriceSeries.build
  rw [hsource]
  exact if_neg (by rwa [List.isEmpty_iff])

/-- The ticks that a finished run went through, and what each left behind. -/
structure Replayed (sim : Simulator) (entropy : Nat) (strategy : Strategy) (cfg : SimulationConfig)
    (ticks : List (PriceTick R)) (steps : List (Step R)) (o : Outcome R) : Prop where
  trace : ∃ seeded g s, generatorOf cfg entropy = .ok seeded ∧
    marketOf sim strategy cfg seeded = (ticks, g) ∧
    Trace sim.config (strategy.plan sim.catalog sim.config.quoteToken)
      (State.start (Scalar.ofFloat cfg.initialCapital) g) ticks steps s
  trades : o.trades = steps.flatMap (·.trades)
  equity : o.equityCurve = steps.map (·.equity)
  drawdown : o.drawdownCurve = steps.map (·.drawdown)

theorem exists_replayed {sim : Simulator} {watch : Watch} {entropy : Nat} {strategy : Strategy}
    {cfg : SimulationConfig} {o : Outcome R} (h : run R sim watch entropy strategy cfg = .ok o)
    (hopen : watch.Open sim.config.maxDurationSeconds) :
    ∃ ticks steps, Replayed sim entropy strategy cfg ticks steps o := by
  obtain ⟨seeded, ticks, g, p, hseeded, hmarket, hreplay, rfl⟩ := run_cases h
  exact ⟨ticks, p.steps,
    { trace := ⟨seeded, g, p.state, hseeded, hmarket, replay_all hopen hreplay⟩
      trades := rfl
      equity := rfl
      drawdown := rfl }⟩

/-- Markets of two feeds that agree for `k` bars are the same for `k` ticks, with the same random
numbers left. -/
theorem marketOf_agree {catalog : Catalog} {feed feed' : PriceFeed} {strategy : Strategy}
    {cfg : SimulationConfig} {k : Nat} (hpos : 0 < k) (hsource : cfg.priceDataSource = .historical)
    (hagree : PriceSeries.AgreeFirst k feed feed' cfg.startDate cfg.endDate
      (strategy.plan catalog config.quoteToken).tokens) (g : Random.Generator) :
    ∃ ticks ticks' : List (PriceTick R),
      marketOf ⟨config, catalog, some feed⟩ strategy cfg g = (ticks, g) ∧
      marketOf ⟨config, catalog, some feed'⟩ strategy cfg g = (ticks', g) ∧
      k ≤ ticks.length ∧ k ≤ ticks'.length ∧ ticks.take k = ticks'.take k := by
  obtain ⟨hlong, hlong', htake⟩ := PriceSeries.historical_agree (R := R)
    (plan_tokens_ne_nil catalog config.quoteToken strategy) hagree
  have hne := List.length_pos_iff.1 (Nat.lt_of_lt_of_le hpos hlong)
  have hne' := List.length_pos_iff.1 (Nat.lt_of_lt_of_le hpos hlong')
  exact ⟨_, _, build_historical hsource hne, build_historical hsource hne', hlong, hlong', htake⟩

/-- A fault of the replay is the fault of the run. -/
theorem run_fault {sim : Simulator} {watch : Watch} {entropy : Nat} {strategy : Strategy}
    {cfg : SimulationConfig} {seeded g : Random.Generator} {f : Fault}
    (hseeded : generatorOf cfg entropy = .ok seeded)
    (hmarket : marketOf sim strategy cfg seeded = (ticks, g))
    (h : replay sim.config (strategy.plan sim.catalog sim.config.quoteToken) watch 0
      (State.start (Scalar.ofFloat cfg.initialCapital) g) ticks = .error f) :
    run R sim watch entropy strategy cfg = .error f := by
  rw [marketOf] at hmarket
  unfold run
  rw [hseeded]
  dsimp only
  rw [hmarket]
  dsimp only
  rw [h]

theorem generatorOf_seed {cfg : SimulationConfig} {seed : Int} (hseed : cfg.seed = some seed)
    (entropy entropy' : Nat) : generatorOf cfg entropy = generatorOf cfg entropy' := by
  rw [generatorOf, generatorOf, hseed]

/-- Traces over ticks that agree for `k` of them leave the same behind at each of these. -/
theorem Trace.take_unique {ticks' : List (PriceTick R)} {k : Nat}
    (h : Trace config plan s ticks steps s') (h' : Trace config plan s ticks' steps' s'')
    (htake : ticks.take k = ticks'.take k) : steps.take k = steps'.take k := by
  obtain ⟨s₁, hfirst⟩ := h.take k
  obtain ⟨s₂, hfirst'⟩ := h'.take k
  rw [htake] at hfirst
  exact (hfirst.unique hfirst').1

/-- Two finished runs on feeds that agree for `k` bars did the same at their first `k` ticks. -/
theorem Replayed.agree {catalog : Catalog} {feed feed' : PriceFeed} {strategy : Strategy}
    {cfg : SimulationConfig} {seed : Int} {entropy entropy' k : Nat}
    {ticks ticks' : List (PriceTick R)} {o o' : Outcome R} (hpos : 0 < k)
    (hseed : cfg.seed = some seed) (hsource : cfg.priceDataSource = .historical)
    (hagree : PriceSeries.AgreeFirst k feed feed' cfg.startDate cfg.endDate
      (strategy.plan catalog config.quoteToken).tokens)
    (h : Replayed ⟨config, catalog, some feed⟩ entropy strategy cfg ticks steps o)
    (h' : Replayed ⟨config, catalog, some feed'⟩ entropy' strategy cfg ticks' steps' o') :
    k ≤ steps.length ∧ k ≤ steps'.length ∧ steps.take k = steps'.take k := by
  obtain ⟨seeded, g, s, hseeded, hmarket, htrace⟩ := h.trace
  obtain ⟨seeded', g', s', hseeded', hmarket', htrace'⟩ := h'.trace
  rw [generatorOf_seed hseed entropy' entropy, hseeded] at hseeded'
  cases hseeded'
  obtain ⟨_, _, hticks, hticks', hlong, hlong', htake⟩ :=
    marketOf_agree (R := R) hpos hsource hagree seeded
  cases hmarket.symm.trans hticks
  cases hmarket'.symm.trans hticks'
  rw [htrace.length_eq, htrace'.length_eq]
  exact ⟨hlong, hlong', htrace.take_unique htrace' htake⟩

/-- Historical runs with one seed on two feeds that agree for the first `k` bars of every token of
the plan, neither of them stopped. Where both finish, they agree on the first `k` points of equity
and drawdown and on all that the first `k` ticks left behind, the trades among it; and a fault
among the first `k` ticks is the fault of both. -/
theorem run_no_foresight (config : EngineConfig) (catalog : Catalog) (feed feed' : PriceFeed)
    (watch watch' : Watch) (entropy entropy' k : Nat) (strategy : Strategy)
    (cfg : SimulationConfig) (seed : Int) (hseed : cfg.seed = some seed)
    (hsource : cfg.priceDataSource = .historical)
    (hopen : watch.Open config.maxDurationSeconds) (hopen' : watch'.Open config.maxDurationSeconds)
    (hagree : PriceSeries.AgreeFirst k feed feed' cfg.startDate cfg.endDate
      (strategy.plan catalog config.quoteToken).tokens) :
    (∀ o o' : Outcome R,
      run R ⟨config, catalog, some feed⟩ watch entropy strategy cfg = .ok o →
      run R ⟨config, catalog, some feed'⟩ watch' entropy' strategy cfg = .ok o' →
      o.equityCurve.take k = o'.equityCurve.take k ∧
      o.drawdownCurve.take k = o'.drawdownCurve.take k ∧
      ∃ ticks steps ticks' steps',
        Replayed ⟨config, catalog, some feed⟩ entropy strategy cfg ticks steps o ∧
        Replayed ⟨config, catalog, some feed'⟩ entropy' strategy cfg ticks' steps' o' ∧
        k ≤ steps.length ∧ k ≤ steps'.length ∧ steps.take k = steps'.take k) ∧
    ∀ seeded f, generatorOf cfg entropy = .ok seeded →
      replay config (strategy.plan catalog config.quoteToken) watch 0
        (State.start (Scalar.ofFloat cfg.initialCapital : R) seeded)
        ((marketOf ⟨config, catalog, some feed⟩ strategy cfg seeded).1.take k) = .error f →
      run R ⟨config, catalog, some feed⟩ watch entropy strategy cfg = .error f ∧
        run R ⟨config, catalog, some feed'⟩ watch' entropy' strategy cfg = .error f := by
  rcases Nat.eq_zero_or_pos k with rfl | hpos
  · constructor
    · intro o o' h h'
      obtain ⟨ticks, steps, hrun⟩ := exists_replayed h hopen
      obtain ⟨ticks', steps', hrun'⟩ := exists_replayed h' hopen'
      exact ⟨rfl, rfl, ticks, steps, ticks', steps', hrun, hrun', Nat.zero_le _, Nat.zero_le _, rfl⟩
    · intro seeded f _ hfault
      cases hfault
  · constructor
    · intro o o' h h'
      obtain ⟨ticks, steps, hrun⟩ := exists_replayed h hopen
      obtain ⟨ticks', steps', hrun'⟩ := exists_replayed h' hopen'
      obtain ⟨hlong, hlong', htake⟩ := hrun.agree hpos hseed hsource hagree hrun'
      refine ⟨?_, ?_, ticks, steps, ticks', steps', hrun, hrun', hlong, hlong', htake⟩
      · rw [hrun.equity, hrun'.equity, ← List.map_take, ← List.map_take, htake]
      · rw [hrun.drawdown, hrun'.drawdown, ← List.map_take, ← List.map_take, htake]
    · intro seeded f hseeded hfault
      obtain ⟨ticks, ticks', hticks, hticks', -, -, htake⟩ :=
        marketOf_agree (R := R) hpos hsource hagree seeded
      rw [hticks] at hfault
      constructor
      · refine run_fault hseeded hticks ?_
        rw [← List.take_append_drop k ticks]
        exact replay_append_error hopen hopen hfault
      · rw [htake] at hfault
        refine run_fault ((generatorOf_seed hseed entropy' entropy).trans hseeded) hticks' ?_
        rw [← List.take_append_drop k ticks']
        exact replay_append_error hopen hopen' hfault

/-- A feed of two bars, at midnight and an hour later. -/
def twoBars (last : Float) : PriceFeed := fun _ _ _ =>
  let bar (time : String) (price : Float) : Json :=
    .obj [("timestamp", .str time), ("open", .num price), ("high", .num price),
      ("low", .num price), ("close", .num price)]
  some (.arr [bar "2024-03-01T00:00:00Z" 2, bar "2024-03-01T01:00:00Z" last])

set_option maxRecDepth 8000 in
theorem bars?_twoBars (last : Float) (token : String) (start stop : Instant) :
    (twoBars last token start stop).bind PriceSeries.bars? =
      some [⟨⟨63844848000000000⟩, 2, 2, 2, 2, 0⟩,
        ⟨⟨63844851600000000⟩, last, last, last, last, 0⟩] := rfl

/-- Buys every hour. -/
def buyHourly : Strategy :=
  let block : Block :=
    { id := "b", category := .trigger, name := "", type := none, description := "",
      version := "1.0.0", config := [("type", .str "time_schedule"), ("interval", .int 3600)],
      position := .origin, inputs := [], outputs := [], enabled := true, actionKind := none,
      metadata := [] }
  { id := "s", name := "", description := "", category := .custom, version := "1.0.0",
    status := .draft, blocks := [block, { block with category := .action, actionKind := some .swap }],
    connections := [], settings := .standard, riskParams := .standard, tags := [], metadata := [] }

def twoHours : SimulationConfig :=
  { startDate := ⟨63844848000000000⟩, endDate := ⟨63844855200000000⟩, initialCapital := 1000,
    priceDataSource := .historical, slippageModel := .realistic, gasModel := .historical,
    marketConditions := none, monteCarloRuns := none, seed := some 7 }

/-- The same hours of a synthetic market. -/
def syntheticHours : SimulationConfig := { twoHours with priceDataSource := .synthetic }

/-- One price goes up and the other one down. Both runs trade twice, and the first hour of each is
the first hour of the other. -/
theorem rise_and_fall_same_first_hour :
    ∃ o o' : Outcome Float,
      run Float ⟨.standard, .empty, some (twoBars 3)⟩ .idle 0 buyHourly twoHours = .ok o ∧
      run Float ⟨.standard, .empty, some (twoBars 1)⟩ .idle 0 buyHourly twoHours = .ok o' ∧
      o.trades.length = 2 ∧ o'.trades.length = 2 ∧
      o.equityCurve.take 1 = o'.equityCurve.take 1 := by
  have hfinish : ∀ last : Float, ((run Float ⟨.standard, .empty, some (twoBars last)⟩ .idle 0
      buyHourly twoHours).map (·.trades.length)).toOption = some 2 →
      ∃ o, run Float ⟨.standard, .empty, some (twoBars last)⟩ .idle 0 buyHourly twoHours = .ok o ∧
        o.trades.length = 2 := by
    intro last h
    cases hrun : run Float ⟨.standard, .empty, some (twoBars last)⟩ .idle 0 buyHourly twoHours with
    | error f =>
      rw [hrun] at h
      cases h
    | ok o =>
      rw [hrun] at h
      exact ⟨o, rfl, Option.some.inj h⟩
  obtain ⟨o, hrun, htrades⟩ := hfinish 3 (by decide +kernel)
  obtain ⟨o', hrun', htrades'⟩ := hfinish 1 (by decide +kernel)
  have hopen : Watch.idle.Open EngineConfig.standard.maxDurationSeconds :=
    fun _ => ⟨rfl, show ¬ (300 : Float) < 0 by decide⟩
  have hagree : PriceSeries.AgreeFirst 1 (twoBars 3) (twoBars 1) twoHours.startDate
      twoHours.endDate (buyHourly.plan .empty EngineConfig.standard.quoteToken).tokens :=
    fun token _ => ⟨_, _, bars?_twoBars 3 token _ _, bars?_twoBars 1 token _ _, by decide,
      by decide, by simp only [List.take_succ_cons, List.take_zero]⟩
  obtain ⟨hsame, -⟩ := run_no_foresight (R := Float) .standard .empty (twoBars 3) (twoBars 1) .idle
    .idle 0 0 1 buyHourly twoHours 7 rfl rfl hopen hopen hagree
  exact ⟨o, o', hrun, hrun', htrades, htrades', (hsame o o' hrun hrun').1⟩

end Backtest

end Tradeflow
