/-
  What a run leaves behind when it is stopped before one of its ticks, and when it is not. A `Moment`
  is a tick that was worked through, together with whether a trigger fired at it and what it left
  behind; the `Course` of a run chains moments from one state to the next. What one moment can be
  (`Ticked.regular`) holds of all of them (`Course.regular`), and what is reported of a run is read
  off its moments (`Reported`).
  `replay_leaves`: how many there are is up to the watch alone.
  `backtest_reports_moments`: a run that was stopped reports the first moments of the run that is
  not, and nothing of it is kept in the cache.
-/
import Tradeflow.Proofs.Backtest.CacheSafety
import Tradeflow.Proofs.Backtest.Foresight

namespace Tradeflow

variable {R : Type} [Scalar R]

/-! ## When a run is stopped -/

namespace Watch

/-- Does the watch stop a run before a tick? -/
def stops (limit : Float) (w : Watch) (index : Nat) : Bool :=
  w.cancelled index || decide (limit < w.elapsed index)

/-- Of `n` ticks from a first one on, the watch leaves `m` to a run: nothing stops it before these, and
then either no tick is left or it is stopped before the next one. -/
structure Leaves (limit : Float) (w : Watch) (first n m : Nat) (status : BacktestStatus) : Prop where
  le : m ≤ n
  before : ∀ i < m, w.stops limit (first + i) = false
  stopped : m < n → w.stops limit (first + m) = true ∧
    status = if w.cancelled (first + m) = true then .cancelled else .timedOut
  completed : m = n → status = .completed

variable {limit : Float} {w : Watch} {first n m : Nat} {status : BacktestStatus}

/-- Where no tick is left, the run is completed. -/
theorem leaves_nil : w.Leaves limit first 0 0 .completed where
  le := Nat.le_refl 0
  before := fun _ hi => absurd hi (Nat.not_lt_zero _)
  stopped := fun hlt => absurd hlt (Nat.not_lt_zero _)
  completed := fun _ => rfl

/-- A run that is stopped before the first tick has none of them. -/
theorem leaves_none (hstops : w.stops limit first = true)
    (hstatus : status = if w.cancelled first = true then .cancelled else .timedOut) :
    w.Leaves limit first (n + 1) 0 status where
  le := Nat.zero_le _
  before := fun _ hi => absurd hi (Nat.not_lt_zero _)
  stopped := fun _ => ⟨hstops, hstatus⟩
  completed := fun hend => nomatch hend

/-- A run that goes through the first tick has one more than those that are left to it then. -/
theorem Leaves.cons (h : w.Leaves limit (first + 1) n m status)
    (hgoes : w.stops limit first = false) : w.Leaves limit first (n + 1) (m + 1) status where
  le := Nat.succ_le_succ h.le
  before := by
    intro i hi
    cases i with
    | zero => exact hgoes
    | succ i =>
      rw [← Nat.succ_add_eq_add_succ]
      exact h.before i (Nat.lt_of_succ_lt_succ hi)
  stopped := by
    intro hlt
    rw [← Nat.succ_add_eq_add_succ]
    exact h.stopped (Nat.lt_of_succ_lt_succ hlt)
  completed := fun hend => h.completed (Nat.succ.inj hend)

/-- A watch that never stops a run leaves it all ticks. -/
theorem Leaves.all_of_open (h : w.Leaves limit first n m status) (hopen : w.Open limit) : m = n := by
  rcases Nat.lt_or_eq_of_le h.le with hlt | heq
  · obtain ⟨hcancelled, helapsed⟩ := hopen (first + m)
    have hstops := (h.stopped hlt).1
    rw [stops, hcancelled, decide_eq_false helapsed] at hstops
    cases hstops
  · exact heq

end Watch

/-! ## Triggers and actions of one tick -/

/-- Every trigger is asked, and the answer is whether one of them fires. -/
theorem Trigger.anyFires_cases {v : Trigger.View R} {clocks clocks' : Trigger.Clocks}
    {triggers : List (Block × TriggerKind)} {fired : Bool}
    (h : Trigger.anyFires v clocks triggers = .ok (fired, clocks')) :
    ∃ answers : List Bool, fired = answers.any id ∧
      List.Forall₂ (fun x answer => ∃ before after,
        Trigger.fires v before x.1 x.2 = .ok (answer, after)) triggers answers := by
  induction triggers generalizing clocks fired with
  | nil =>
    cases h
    exact ⟨[], rfl, .nil⟩
  | cons x triggers ih =>
    obtain ⟨first, clocks₁, more, hfirst, hmore, rfl⟩ := anyFires_cons.1 h
    obtain ⟨answers, rfl, hanswers⟩ := ih hmore
    exact ⟨first :: answers, rfl, .cons ⟨clocks, clocks₁, hfirst⟩ hanswers⟩

/-- Every action is executed, and makes one trade or none. -/
theorem Action.executeAll_cases {e : Action.Setup R} {s s' : Action.State R}
    {actions : List (Block × ActionKind)} {trades : List (Trade R)}
    (h : Action.executeAll e s actions = .ok (s', trades)) :
    ∃ made : List (Option (Trade R)), trades = made.reduceOption ∧
      List.Forall₂ (fun x trade => ∃ before after,
        Action.execute e before x.1 x.2 = .ok (after, trade)) actions made := by
  induction actions generalizing s trades with
  | nil =>
    cases h
    exact ⟨[], rfl, .nil⟩
  | cons x actions ih =>
    obtain ⟨s₁, trade, rest, hfirst, hrest, rfl⟩ := executeAll_cons h
    obtain ⟨made, rfl, hmade⟩ := ih hrest
    refine ⟨trade :: made, ?_, .cons ⟨s, s₁, hfirst⟩ hmade⟩
    cases trade <;> rfl

theorem Action.Recorded.timestamp {e : Action.Setup R} {s s' : Action.State R}
    {trades : List (Trade R)} (h : Action.Recorded e s trades s') :
    ∀ t ∈ trades, t.timestamp = e.tick.timestamp := by
  induction h with
  | nil => exact fun _ ht => nomatch ht
  | cons first _ ih => exact List.forall_mem_cons.2 ⟨first.timestamp, ih⟩

namespace Backtest

variable {config : EngineConfig} {plan : Plan} {s s' s'' : State R} {ticks : List (PriceTick R)}
  {steps : List (Step R)}

/-! ## Moments -/

/-- A tick that was worked through: whether a trigger fired, and what it left behind. -/
structure Moment (R : Type) where
  tick : PriceTick R
  fired : Bool
  step : Step R

/-- What every moment of a run is like. A trigger fired if one of the triggers of the plan says so; if
one did, each action of the plan made at most one trade, in their order, and else there is none. -/
structure Moment.Regular (config : EngineConfig) (plan : Plan) (d : Moment R) : Prop where
  equityTime : d.step.equity.timestamp = d.tick.timestamp
  drawdownTime : d.step.drawdown.timestamp = d.tick.timestamp
  asked : ∃ previous ledger, ∃ answers : List Bool, d.fired = answers.any id ∧
    List.Forall₂ (fun x answer => ∃ before after,
      Trigger.fires ⟨config.defaultPrices, d.tick, previous, ledger⟩ before x.1 x.2 =
        .ok (answer, after)) plan.triggers answers
  acted : d.fired = true → ∃ made : List (Option (Trade R)), d.step.trades = made.reduceOption ∧
    List.Forall₂ (fun x trade => ∃ before after,
      Action.execute ⟨config.quoteToken, config.defaultPrices, d.tick⟩ before x.1 x.2 =
        .ok (after, trade)) plan.actions made
  idle : d.fired = false → d.step.trades = []
  stamped : ∀ t ∈ d.step.trades, t.timestamp = d.tick.timestamp

theorem Ticked.regular {t : PriceTick R} {fired : Bool} {step : Step R}
    (h : Ticked config plan s t fired s' step) : Moment.Regular config plan ⟨t, fired, step⟩ where
  equityTime := congrArg (·.timestamp) h.equity
  drawdownTime := congrArg (·.timestamp) h.drawdown
  asked := ⟨s.previous, s.action.ledger, Trigger.anyFires_cases h.triggers⟩
  acted := fun hfired => Action.executeAll_cases (h.acted hfired)
  idle := fun hfired => (h.idle hfired).2
  stamped := h.recorded.timestamp

/-- Moments one after the other, each from the state that the one before it left. -/
inductive Course (config : EngineConfig) (plan : Plan) :
    State R → List (Moment R) → State R → Prop where
  | nil (s : State R) : Course config plan s [] s
  | cons {s s' s'' : State R} {d : Moment R} {days : List (Moment R)}
      (first : tick config plan s d.tick = .ok (s', d.step))
      (ticked : Ticked config plan s d.tick d.fired s' d.step)
      (rest : Course config plan s' days s'') : Course config plan s (d :: days) s''

variable {days days' : List (Moment R)}

theorem Course.regular (h : Course config plan s days s') :
    ∀ d ∈ days, d.Regular config plan := by
  induction h with
  | nil => exact fun _ hd => nomatch hd
  | cons _ ticked _ ih => exact List.forall_mem_cons.2 ⟨ticked.regular, ih⟩

/-- The firings counted are the moments at which a trigger fired. -/
theorem Course.firings (h : Course config plan s days s') :
    s'.firings = s.firings + days.countP (·.fired) := by
  induction h with
  | nil => rfl
  | @cons s s' s'' d days _ ticked _ ih =>
    rw [ih, ticked.firings, List.countP_cons]
    split <;> omega

/-- The first moments of a course are a course. -/
theorem Course.take (h : Course config plan s days s') (n : Nat) :
    ∃ s₁, Course config plan s (days.take n) s₁ := by
  induction h generalizing n with
  | nil s => exact ⟨s, by rw [List.take_nil]; exact .nil s⟩
  | @cons s s' s'' d days first ticked _ ih =>
    cases n with
    | zero => exact ⟨s, .nil s⟩
    | succ n =>
      obtain ⟨s₁, hrest⟩ := ih n
      exact ⟨s₁, .cons first ticked hrest⟩

/-- The state and the ticks settle the course. -/
theorem Course.unique (h : Course config plan s days s') (h' : Course config plan s days' s'')
    (hticks : days.map (·.tick) = days'.map (·.tick)) : days = days' := by
  induction h generalizing days' with
  | nil => exact (List.map_eq_nil_iff.1 hticks.symm).symm
  | @cons s s₁ s₂ d days first ticked _ ih =>
    cases h' with
    | nil => cases hticks
    | @cons _ s₁' _ d' days' first' ticked' rest' =>
      obtain ⟨htick, hlater⟩ := List.cons.inj hticks
      obtain ⟨t, fired, step⟩ := d
      obtain ⟨t', fired', step'⟩ := d'
      dsimp only at htick
      subst htick
      obtain ⟨rfl, rfl⟩ := Prod.mk.inj (Except.ok.inj (first.symm.trans first'))
      obtain ⟨rfl, -⟩ := Prod.mk.inj (Except.ok.inj (ticked.triggers.symm.trans ticked'.triggers))
      rw [ih rest' hlater]

theorem course_of_trace (h : Trace config plan s ticks steps s') :
    ∃ days, Course config plan s days s' ∧ days.map (·.tick) = ticks ∧
      days.map (·.step) = steps := by
  induction h with
  | nil s => exact ⟨[], .nil s, rfl, rfl⟩
  | @cons s s' s'' t step ticks steps first rest ih =>
    obtain ⟨fired, hticked⟩ := tick_cases first
    obtain ⟨days, hcourse, rfl, rfl⟩ := ih
    exact ⟨⟨t, fired, step⟩ :: days, .cons first hticked hcourse, rfl, rfl⟩

/-! ## Stopped runs -/

/-- How many ticks a run works through, and how it ends, is what the watch leaves of them. -/
theorem replay_leaves {watch : Watch} {index : Nat} {p : Progress R}
    (h : replay config plan watch index s ticks = .ok p) :
    watch.Leaves config.maxDurationSeconds index ticks.length p.steps.length p.status := by
  induction ticks generalizing index s p with
  | nil =>
    cases h
    exact Watch.leaves_nil
  | cons t ticks ih =>
    have hstops : watch.stops config.maxDurationSeconds index = true ↔
        watch.cancelled index = true ∨ config.maxDurationSeconds < watch.elapsed index := by
      rw [Watch.stops, Bool.or_eq_true, decide_eq_true_iff]
    rcases replay_cons h with ⟨hstopped, rfl⟩ | ⟨hgoes, s₁, step, p₁, -, hrest, rfl⟩
    · exact Watch.leaves_none (hstops.2 hstopped) rfl
    · exact (ih hrest).cons (Bool.eq_false_iff.2 fun hstopped => hgoes (hstops.1 hstopped))

/-- A replay worked through moments, as many as its watch leaves of the ticks. -/
theorem course_of_replay {watch : Watch} {index : Nat} {p : Progress R}
    (h : replay config plan watch index s ticks = .ok p) :
    ∃ days, Course config plan s days p.state ∧ days.map (·.step) = p.steps ∧
      days.map (·.tick) = ticks.take days.length ∧
      watch.Leaves config.maxDurationSeconds index ticks.length days.length p.status := by
  obtain ⟨-, htrace⟩ := trace_of_replay h
  obtain ⟨days, hcourse, hticks, hsteps⟩ := course_of_trace htrace
  have hlength : days.length = p.steps.length := by rw [← hsteps, List.length_map]
  exact ⟨days, hcourse, hsteps, hlength ▸ hticks, hlength ▸ replay_leaves h⟩

section Metrics

variable {trades : List (Trade R)} {curve : List (EquityPoint R)} {capital : R}
  {start stop : Instant} {firings : Int}

theorem triggerFirings_metrics :
    (Performance.metrics trades curve capital start stop firings).triggerFirings = firings := by
  unfold Performance.metrics
  split <;> rfl

theorem totalTrades_metrics (h : curve = [] → trades = []) :
    (Performance.metrics trades curve capital start stop firings).totalTrades = trades.length := by
  unfold Performance.metrics
  split
  case h_1 hlast =>
    have hcurve : curve = [] := List.map_eq_nil_iff.1 (List.getLast?_eq_none_iff.1 hlast)
    rw [h hcurve]
    rfl
  case h_2 => rfl

end Metrics

/-- What is reported of a run that worked through some moments. -/
structure Reported (config : EngineConfig) (plan : Plan) (days : List (Moment R))
    (r : BacktestResult R) : Prop where
  regular : ∀ d ∈ days, d.Regular config plan
  equity : r.equityCurve = days.map (·.step.equity)
  drawdown : r.drawdownCurve = days.map (·.step.drawdown)
  equityTimes : r.equityCurve.map (·.timestamp) = days.map (·.tick.timestamp)
  drawdownTimes : r.drawdownCurve.map (·.timestamp) = days.map (·.tick.timestamp)
  trades : r.trades = days.flatMap (·.step.trades)
  firings : r.metrics.triggerFirings = days.countP (·.fired)
  totalTrades : r.metrics.totalTrades = r.trades.length
  unmoved : days = [] → r.metrics = Performance.none r.metrics.triggerFirings

/-- What a run from the start reports is read off its course. -/
theorem Course.reported {capital : R} {g : Random.Generator} {p : Progress R}
    {cfg : SimulationConfig} (h : Course config plan (State.start capital g) days p.state)
    (hsteps : days.map (·.step) = p.steps) (serial : Nat) (o : Occasion) (strategy : Strategy) :
    Reported config plan days (Engine.file serial o strategy cfg (p.outcome cfg)) := by
  have hequity : p.steps.map (·.equity) = days.map (·.step.equity) := by
    rw [← hsteps, List.map_map]
    rfl
  have hdrawdown : p.steps.map (·.drawdown) = days.map (·.step.drawdown) := by
    rw [← hsteps, List.map_map]
    rfl
  have htrades : p.steps.flatMap (·.trades) = days.flatMap (·.step.trades) := by
    rw [← hsteps, List.flatMap_map]
  have hfirings : p.state.firings = days.countP (·.fired) := by
    rw [h.firings, State.start, Nat.zero_add]
  refine
    { regular := h.regular
      equity := hequity
      drawdown := hdrawdown
      equityTimes := ?_
      drawdownTimes := ?_
      trades := htrades
      firings := triggerFirings_metrics.trans (congrArg _ hfirings)
      totalTrades := ?_
      unmoved := ?_ }
  · show (p.steps.map (·.equity)).map (·.timestamp) = _
    rw [hequity, List.map_map]
    exact List.map_congr_left fun d hd => (h.regular d hd).equityTime
  · show (p.steps.map (·.drawdown)).map (·.timestamp) = _
    rw [hdrawdown, List.map_map]
    exact List.map_congr_left fun d hd => (h.regular d hd).drawdownTime
  · refine totalTrades_metrics fun hcurve => ?_
    rw [List.map_eq_nil_iff.1 hcurve, List.flatMap_nil]
  · rintro rfl
    show Performance.metrics _ (p.steps.map (·.equity)) _ _ _ _ =
      Performance.none (Performance.metrics _ (p.steps.map (·.equity)) _ _ _ _).triggerFirings
    rw [triggerFirings_metrics, hequity]
    rfl

/-- The plan that an engine makes of a strategy. -/
def planOf (sim : Simulator) (strategy : Strategy) : Plan :=
  strategy.plan sim.catalog sim.config.quoteToken

/-- A run from the start of a market: the moments it worked through, and its report. -/
structure Made (sim : Simulator) (o : Occasion) (strategy : Strategy) (cfg : SimulationConfig)
    (ticks : List (PriceTick R)) (g : Random.Generator) (days : List (Moment R))
    (r : BacktestResult R) : Prop where
  course : ∃ last, Course sim.config (planOf sim strategy)
    (State.start (Scalar.ofFloat cfg.initialCapital) g) days last
  worked : days.map (·.tick) = ticks.take days.length
  leaves : o.watch.Leaves sim.config.maxDurationSeconds 0 ticks.length days.length r.status
  reported : Reported sim.config (planOf sim strategy) days r

theorem exists_made {sim : Simulator} {serial : Nat} {o : Occasion} {strategy : Strategy}
    {cfg : SimulationConfig} {r : BacktestResult R}
    (h : Engine.compute sim serial o strategy cfg = .ok r) :
    ∃ seeded ticks g days, generatorOf cfg o.entropy = .ok seeded ∧
      marketOf sim strategy cfg seeded = (ticks, g) ∧
      Made sim o strategy cfg ticks g days r := by
  unfold Engine.compute at h
  cases hrun : run R sim o.watch o.entropy strategy cfg with
  | error f =>
    rw [hrun] at h
    cases h
  | ok outcome =>
    rw [hrun] at h
    cases h
    obtain ⟨seeded, ticks, g, p, hseeded, hmarket, hreplay, rfl⟩ := run_cases hrun
    obtain ⟨days, hcourse, hsteps, hticks, hleaves⟩ := course_of_replay hreplay
    exact ⟨seeded, ticks, g, days, hseeded, hmarket, ⟨p.state, hcourse⟩, hticks, hleaves,
      hcourse.reported hsteps serial o strategy⟩

/-- The moments of a run are the first ones of a run that works through all ticks. -/
theorem Made.first_moments {sim : Simulator} {o o' : Occasion} {strategy : Strategy}
    {cfg : SimulationConfig} {ticks : List (PriceTick R)} {g : Random.Generator}
    {days all : List (Moment R)} {r whole : BacktestResult R}
    (h : Made sim o strategy cfg ticks g days r) (hwhole : Made sim o' strategy cfg ticks g all whole)
    (hall : all.length = ticks.length) : days = all.take days.length := by
  obtain ⟨last, hcourse⟩ := h.course
  obtain ⟨last', hcourse'⟩ := hwhole.course
  obtain ⟨middle, hfirst⟩ := hcourse'.take days.length
  refine hcourse.unique hfirst ?_
  rw [h.worked, List.map_take, hwhole.worked, hall, List.take_length]

/-- A backtest that is not answered from the cache. It works through `m` ticks of its market, as many
as its watch leaves it, and reports one point of equity and of drawdown for each of them, all the
trades that the actions of the plan made at those at which one of its triggers fired, and how many
those were. What the run reports that is not stopped begins with that. A run that was stopped leaves
the cache as it was. -/
theorem backtest_reports_moments (e : Engine R) (o : Occasion) (useCache : Bool)
    (strategy : Strategy) (cfg : SimulationConfig) (r : BacktestResult R) (e' : Engine R)
    (hmiss : e.lookup useCache strategy cfg = none)
    (h : e.backtest o useCache strategy cfg = .ok (r, e')) :
    ∃ seeded ticks g days, generatorOf cfg o.entropy = .ok seeded ∧
      marketOf e.sim strategy cfg seeded = (ticks, g) ∧
      o.watch.Leaves e.sim.config.maxDurationSeconds 0 ticks.length days.length r.status ∧
      days.map (·.tick) = ticks.take days.length ∧
      Reported e.sim.config (planOf e.sim strategy) days r ∧
      (∀ (watch : Watch) serial whole, watch.Open e.sim.config.maxDurationSeconds →
        Engine.compute e.sim serial { o with watch := watch } strategy cfg = .ok whole →
        ∃ all, all.map (·.tick) = ticks ∧
          Reported e.sim.config (planOf e.sim strategy) all whole ∧
          days = all.take days.length ∧
          r.equityCurve = whole.equityCurve.take days.length ∧
          r.drawdownCurve = whole.drawdownCurve.take days.length ∧
          whole.trades = r.trades ++ (all.drop days.length).flatMap (·.step.trades)) ∧
      (r.status ≠ .completed → e'.cache = e.cache) := by
  unfold Engine.backtest at h
  rw [hmiss] at h
  dsimp only at h
  split at h
  · cases h
  case h_2 made hcompute =>
    obtain ⟨rfl, rfl⟩ := Prod.mk.inj (Except.ok.inj h)
    obtain ⟨seeded, ticks, g, days, hseeded, hmarket, hmade⟩ := exists_made hcompute
    refine ⟨seeded, ticks, g, days, hseeded, hmarket, hmade.leaves, hmade.worked, hmade.reported,
      fun watch serial whole hopen hwhole => ?_, fun hstopped => ?_⟩
    · obtain ⟨seeded', ticks', g', all, hseeded', hmarket', hall⟩ := exists_made hwhole
      cases hseeded.symm.trans hseeded'
      cases hmarket.symm.trans hmarket'
      have hlength : all.length = ticks.length := hall.leaves.all_of_open hopen
      have hfirst : days = all.take days.length := hmade.first_moments hall hlength
      refine ⟨all, ?_, hall.reported, hfirst, ?_, ?_, ?_⟩
      · rw [hall.worked, hlength, List.take_length]
      · rw [hmade.reported.equity, hall.reported.equity, ← List.map_take, ← hfirst]
      · rw [hmade.reported.drawdown, hall.reported.drawdown, ← List.map_take, ← hfirst]
      · rw [hmade.reported.trades, hall.reported.trades]
        conv_lhs => rw [← List.take_append_drop days.length all, ← hfirst, List.flatMap_append]
    · rcases Engine.store_cases { e with issued := e.issued + 1 } useCache strategy cfg made with
        ⟨-, hcompleted, -⟩ | hsame
      · exact absurd hcompleted hstopped
      · exact hsame

/-- A watch that cancels a run before its second tick. -/
def cancelSecond : Watch := ⟨fun index => index == 1, fun _ => 0⟩

/-- Of two hours the second one is cancelled: one moment, one trade, nothing is kept, and the run that
is not cancelled begins the same. -/
theorem second_hour_cancelled :
    ∃ (r whole : BacktestResult Float) (e' : Engine Float) (days : List (Moment Float)),
      (Engine.start ⟨.standard, .empty, some (twoBars 3)⟩).backtest ⟨⟨0⟩, 0, cancelSecond⟩ true
        buyHourly twoHours = .ok (r, e') ∧
      Engine.compute ⟨.standard, .empty, some (twoBars 3)⟩ 1 ⟨⟨0⟩, 0, .idle⟩ buyHourly twoHours =
        .ok whole ∧
      r.status = .cancelled ∧ days.length = 1 ∧ r.equityCurve = days.map (·.step.equity) ∧
      r.metrics.totalTrades = 1 ∧ e'.cache = .empty ∧
      whole.trades.length = 2 ∧ r.equityCurve = whole.equityCurve.take 1 := by
  let e : Engine Float := .start ⟨.standard, .empty, some (twoBars 3)⟩
  obtain ⟨⟨r, e'⟩, hrun, hfigures⟩ : ∃ made,
      e.backtest ⟨⟨0⟩, 0, cancelSecond⟩ true buyHourly twoHours = .ok made ∧
      (made.1.status, made.1.equityCurve.length, made.1.trades.length) = (.cancelled, 1, 1) :=
    Except.exists_of_map (by decide +kernel)
  obtain ⟨whole, hwhole, hall⟩ : ∃ whole : BacktestResult Float,
      Engine.compute e.sim 1 ⟨⟨0⟩, 0, .idle⟩ buyHourly twoHours = .ok whole ∧
      whole.trades.length = 2 :=
    Except.exists_of_map (by decide +kernel)
  have hopen : Watch.idle.Open e.sim.config.maxDurationSeconds :=
    fun _ => ⟨rfl, show ¬ (300 : Float) < 0 by decide⟩
  obtain ⟨hstatus, hcurve, htrades⟩ : r.status = .cancelled ∧ r.equityCurve.length = 1 ∧
      r.trades.length = 1 := by
    simpa using hfigures
  obtain ⟨-, ticks, -, days, -, -, -, -, hreport, huncut, hcache⟩ :=
    backtest_reports_moments e ⟨⟨0⟩, 0, cancelSecond⟩ true buyHourly twoHours r e' rfl hrun
  have hdays : days.length = 1 := by rw [← hcurve, hreport.equity, List.length_map]
  obtain ⟨-, -, -, -, hbegins, -, -⟩ := huncut .idle 1 whole hopen hwhole
  refine ⟨r, whole, e', days, hrun, hwhole, hstatus, hdays, hreport.equity, ?_, hcache ?_, hall, ?_⟩
  · rw [hreport.totalTrades, htrades]
    rfl
  · rw [hstatus]
    exact nofun
  · rw [hbegins, hdays]

end Backtest

end Tradeflow
