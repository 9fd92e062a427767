/-
  What the cache of an engine holds when calls overlap. `Published` says of a result that a call which
  may use the cache has finished a completed run with it since the cache was last cleared. `Safe`:
  entries and answers are published, and what a call finishes with is its own; it is kept by every step
  (`safe_step`), so it holds however the steps of calls interleave (`safe_run`). An entry can be replaced
  only by a call that missed it: calls that do not overlap never do that (`kept_step`, `kept_run`).
  `overlap_safe` sums up, and `run_call` says that a call by itself is a backtest of the engine.
-/
import Tradeflow.Backtest.Traffic

namespace Tradeflow

variable {R : Type}

/-! ## Steps of the engine -/

namespace Engine

theorem compute_cases [Scalar R] {sim : Simulator} {serial : Nat} {o : Occasion} {s : Strategy}
    {cfg : SimulationConfig} {r : BacktestResult R} (h : compute sim serial o s cfg = .ok r) :
    r.strategyId = s.id ∧ r.config = cfg := by
  unfold compute at h
  cases hrun : Backtest.run R sim o.watch o.entropy s cfg with
  | error f =>
    rw [hrun] at h
    cases h
  | ok outcome =>
    rw [hrun] at h
    cases h
    exact ⟨rfl, rfl⟩

theorem lookup_cases {e : Engine R} {useCache : Bool} {s : Strategy} {cfg : SimulationConfig}
    {r : BacktestResult R} (h : e.lookup useCache s cfg = some r) :
    (e.sim.config.enableCache && useCache) = true ∧ e.cache.get? (.of s cfg) = some r := by
  unfold lookup at h
  split at h
  case isTrue hcaches => exact ⟨hcaches, h⟩
  case isFalse => cases h

theorem lookup_none {e : Engine R} {useCache : Bool} {s : Strategy} {cfg : SimulationConfig}
    (h : e.lookup useCache s cfg = none) (hcaches : (e.sim.config.enableCache && useCache) = true) :
    e.cache.get? (.of s cfg) = none := by
  unfold lookup at h
  rwa [if_pos hcaches] at h

@[simp]
theorem store_sim (e : Engine R) (useCache : Bool) (s : Strategy) (cfg : SimulationConfig)
    (r : BacktestResult R) : (e.store useCache s cfg r).sim = e.sim := by
  unfold store
  split <;> rfl

/-- A result is kept if the call may use the cache and its run was completed. -/
theorem store_cases (e : Engine R) (useCache : Bool) (s : Strategy) (cfg : SimulationConfig)
    (r : BacktestResult R) :
    ((e.sim.config.enableCache && useCache) = true ∧ r.status = .completed ∧
      (e.store useCache s cfg r).cache = e.cache.put (.of s cfg) r) ∨
    (e.store useCache s cfg r).cache = e.cache := by
  unfold store
  split
  case isTrue hkept =>
    rw [Bool.and_eq_true, beq_iff_eq] at hkept
    exact .inl ⟨hkept.1, hkept.2, rfl⟩
  case isFalse => exact .inr rfl

end Engine

namespace Cache

theorem mem_of_get? {c : Cache R} {key : CacheKey} {r : BacktestResult R}
    (h : c.get? key = some r) : (key, r) ∈ c.entries := by
  obtain ⟨p, hfind, rfl⟩ := Option.map_eq_some_iff.1 h
  have hkey : p.1 = key := by simpa using List.find?_some hfind
  rw [← hkey]
  exact List.mem_of_find?_eq_some hfind

theorem mem_put {c : Cache R} {key : CacheKey} {r : BacktestResult R}
    {p : CacheKey × BacktestResult R} (h : p ∈ (c.put key r).entries) :
    p = (key, r) ∨ p ∈ c.entries :=
  (List.mem_cons.1 h).imp_right fun hp => (List.mem_filter.1 hp).1

end Cache

/-! ## Published results -/

/-- What happened since the cache was last cleared. -/
def sinceClear : List (Event R) → List (Event R)
  | [] => []
  | .cleared :: _ => []
  | e :: log => e :: sinceClear log

/-- A result that may be found in the cache under a key. -/
structure Published (sim : Simulator) (log : List (Event R)) (key : CacheKey)
    (r : BacktestResult R) : Prop where
  completed : r.status = .completed
  strategyId : r.strategyId = key.strategyId
  startDate : r.config.startDate = key.start
  endDate : r.config.endDate = key.stop
  stored : ∃ c, .finished c r ∈ sinceClear log ∧ c.caches sim = true ∧ c.key = key

/-- A result stays published until the cache is cleared. -/
theorem Published.cons {sim : Simulator} {log : List (Event R)} {key : CacheKey}
    {r : BacktestResult R} (h : Published sim log key r) {e : Event R} (he : e ≠ .cleared) :
    Published sim (e :: log) key r := by
  have hsince : sinceClear (e :: log) = e :: sinceClear log := by
    cases e with
    | cleared => exact absurd rfl he
    | answered | finished | failed => rfl
  obtain ⟨c, hmem, hcaches, hkey⟩ := h.stored
  refine { h with stored := ⟨c, ?_, hcaches, hkey⟩ }
  rw [hsince]
  exact List.mem_cons_of_mem _ hmem

/-- Every call that was answered may use the cache, and got what was published under its key. -/
def AnswersPublished (sim : Simulator) (log : List (Event R)) : Prop :=
  ∀ later c r earlier, log = later ++ .answered c r :: earlier →
    c.caches sim = true ∧ Published sim earlier c.key r

theorem AnswersPublished.cons {sim : Simulator} {log : List (Event R)}
    (h : AnswersPublished sim log) {e : Event R}
    (he : ∀ c r, e = .answered c r → c.caches sim = true ∧ Published sim log c.key r) :
    AnswersPublished sim (e :: log) := by
  intro later c r earlier hlog
  cases later with
  | nil =>
    obtain ⟨hhead, rfl⟩ := List.cons.inj hlog
    exact he c r hhead
  | cons e' later => exact h later c r earlier (List.cons.inj hlog).2

namespace Traffic

variable [Scalar R] {sim : Simulator} {t : Traffic R}

/-! ## What every step keeps -/

/-- What holds of an engine and its calls at any time. -/
structure Safe (sim : Simulator) (t : Traffic R) : Prop where
  simulator : t.engine.sim = sim
  entries : ∀ p ∈ t.engine.cache.entries, Published sim t.log p.1 p.2
  answers : AnswersPublished sim t.log
  own : ∀ c r, .finished c r ∈ t.log →
    ∃ serial, Engine.compute sim serial c.occasion c.strategy c.run = .ok r

theorem safe_start (sim : Simulator) : Safe sim (start sim : Traffic R) where
  simulator := rfl
  entries := fun _ hp => nomatch hp
  answers := by
    intro later c r earlier hlog
    cases later <;> cases hlog
  own := fun _ _ h => nomatch h

theorem safe_lookup (h : Safe sim t) (c : Call) : Safe sim (t.step (.lookup c)) := by
  unfold step
  dsimp only
  split
  case h_1 r hlookup =>
    obtain ⟨hcaches, hget⟩ := Engine.lookup_cases hlookup
    rw [h.simulator] at hcaches
    have hentry := h.entries _ (Cache.mem_of_get? hget)
    exact
      { simulator := h.simulator
        entries := fun p hp => (h.entries p hp).cons nofun
        answers := h.answers.cons fun _ _ he => by
          cases he
          exact ⟨hcaches, hentry⟩
        own := fun c' r' hmem => h.own c' r' ((List.mem_cons.1 hmem).resolve_left nofun) }
  · exact { h with }

/-- A result that is kept is published by the call that keeps it. -/
theorem published_store (h : Safe sim t) {c : Call} {r : BacktestResult R}
    (hcompute : Engine.compute sim t.engine.issued c.occasion c.strategy c.run = .ok r)
    {p : CacheKey × BacktestResult R}
    (hp : p ∈ ({ t.engine with issued := t.engine.issued + 1 }.store c.useCache c.strategy c.run
      r).cache.entries) : Published sim (.finished c r :: t.log) p.1 p.2 := by
  rcases Engine.store_cases { t.engine with issued := t.engine.issued + 1 } c.useCache c.strategy c.run r
    with ⟨hcaches, hcompleted, hput⟩ | hsame
  · rw [hput] at hp
    rcases Cache.mem_put hp with rfl | hold
    · obtain ⟨hid, hrun⟩ := Engine.compute_cases hcompute
      rw [← h.simulator]
      exact
        { completed := hcompleted
          strategyId := hid
          startDate := congrArg _ hrun
          endDate := congrArg _ hrun
          stored := ⟨c, List.mem_cons_self, hcaches, rfl⟩ }
    · exact (h.entries p hold).cons nofun
  · rw [hsame] at hp
    exact (h.entries p hp).cons nofun

theorem safe_finish (h : Safe sim t) (i : Nat) : Safe sim (t.step (.finish i)) := by
  unfold step
  dsimp only
  split
  · exact h
  case h_2 c hc =>
    split
    case h_1 f hcompute =>
      have hanswers : AnswersPublished sim (.failed c f :: t.log) :=
        h.answers.cons fun _ _ he => nomatch he
      refine ⟨h.simulator, fun p hp => (h.entries p hp).cons nofun, hanswers, ?_⟩
      exact fun c' r' hmem => h.own c' r' ((List.mem_cons.1 hmem).resolve_left nofun)
    case h_2 r hcompute =>
      rw [h.simulator] at hcompute
      have hanswers : AnswersPublished sim (.finished c r :: t.log) :=
        h.answers.cons fun _ _ he => nomatch he
      have hsim := Engine.store_sim { t.engine with issued := t.engine.issued + 1 } c.useCache
        c.strategy c.run r
      refine ⟨hsim.trans h.simulator, fun p hp => published_store h hcompute hp, hanswers, ?_⟩
      intro c' r' hmem
      rcases List.mem_cons.1 hmem with heq | hold
      · cases heq
        exact ⟨_, hcompute⟩
      · exact h.own c' r' hold

theorem safe_clear (h : Safe sim t) : Safe sim (t.step .clear) := by
  have hanswers : AnswersPublished sim (.cleared :: t.log) :=
    h.answers.cons fun _ _ he => nomatch he
  refine ⟨h.simulator, fun p hp => ?_, hanswers, fun c' r' hmem => ?_⟩
  · cases hp
  · exact h.own c' r' ((List.mem_cons.1 hmem).resolve_left nofun)

theorem safe_step (h : Safe sim t) (move : Move) : Safe sim (t.step move) := by
  cases move with
  | lookup c => exact safe_lookup h c
  | finish i => exact safe_finish h i
  | clear => exact safe_clear h

theorem safe_run (h : Safe sim t) (moves : List Move) : Safe sim (t.run moves) := by
  induction moves generalizing t with
  | nil => exact h
  | cons move moves ih => exact ih (safe_step h move)

/-! ## Calls that do not use the cache -/

/-- Looking into the cache does not change it. -/
theorem cache_lookup (t : Traffic R) (c : Call) :
    (t.step (.lookup c)).engine = t.engine := by
  unfold step
  dsimp only
  split <;> rfl

/-- The only other way for a call to change the cache is to store what it has finished with. -/
theorem cache_finish (t : Traffic R) (i : Nat) :
    (∃ c r, t.pending[i]? = some c ∧ c.caches t.engine.sim = true ∧
      (t.step (.finish i)).engine.cache = t.engine.cache.put c.key r) ∨
    (t.step (.finish i)).engine.cache = t.engine.cache := by
  unfold step
  dsimp only
  split
  · exact .inr rfl
  case h_2 c hc =>
    split
    · exact .inr rfl
    case h_2 r hcompute =>
      exact (Engine.store_cases { t.engine with issued := t.engine.issued + 1 } c.useCache c.strategy
        c.run r).imp (fun ⟨hcaches, _, hput⟩ => ⟨c, r, hc, hcaches, hput⟩) id

theorem cache_step_of_not_caches (t : Traffic R) {move : Move} {c : Call}
    (hcall : t.callOf move = some c) (hc : c.useCache = false) :
    (t.step move).engine.cache = t.engine.cache := by
  cases move with
  | lookup c' => rw [cache_lookup]
  | clear => cases hcall
  | finish i =>
    refine (cache_finish t i).resolve_left fun ⟨c', r, hpending, hcaches, _⟩ => ?_
    cases hcall.symm.trans hpending
    rw [Call.caches, hc, Bool.and_false] at hcaches
    cases hcaches

/-! ## Calls that do not overlap -/

/-- At most one call is pending, and it has missed the entry that it may store. -/
structure Apart (t : Traffic R) : Prop where
  single : t.pending.length ≤ 1
  missed : ∀ c ∈ t.pending, c.caches t.engine.sim = true → t.engine.cache.get? c.key = none

theorem apart_lookup (hidle : t.pending = []) (c : Call) : Apart (t.step (.lookup c)) := by
  unfold step
  dsimp only
  split
  · exact ⟨by rw [hidle]; exact Nat.zero_le 1, fun c' hc' => by rw [hidle] at hc'; cases hc'⟩
  case h_2 hlookup =>
    have hpending : t.pending ++ [c] = [c] := by rw [hidle, List.nil_append]
    refine ⟨by rw [hpending]; exact Nat.le_refl 1, fun c' hc' hcaches => ?_⟩
    rw [hpending, List.mem_singleton] at hc'
    subst hc'
    exact Engine.lookup_none hlookup hcaches

theorem apart_finish (h : Apart t) (i : Nat) : Apart (t.step (.finish i)) := by
  unfold step
  dsimp only
  split
  · exact h
  case h_2 c hc =>
    -- the call that ends is the only one there is
    have hleft : t.pending.eraseIdx i = [] := by
      obtain ⟨hi, -⟩ := List.getElem?_eq_some_iff.1 hc
      have hsingle := h.single
      have hlength := List.length_eraseIdx_of_lt hi
      exact List.length_eq_zero_iff.1 (by omega)
    split
    all_goals
      refine ⟨?_, fun c' hc' => ?_⟩
      · rw [hleft]
        exact Nat.zero_le 1
      · rw [hleft] at hc'
        cases hc'

theorem apart_step (h : Apart t) (move : Move) (hserial : ∀ c, move = .lookup c → t.pending = []) :
    Apart (t.step move) := by
  cases move with
  | lookup c => exact apart_lookup (hserial c rfl) c
  | finish i => exact apart_finish h i
  | clear => exact ⟨h.single, fun c _ _ => rfl⟩

/-- A call that has missed an entry cannot replace another one. -/
theorem kept_step (h : Apart t) {move : Move} (hclear : move ≠ .clear) {key : CacheKey}
    {r : BacktestResult R} (hget : t.engine.cache.get? key = some r) :
    (t.step move).engine.cache.get? key = some r := by
  cases move with
  | lookup c => rwa [cache_lookup]
  | clear => exact absurd rfl hclear
  | finish i =>
    rcases cache_finish t i with ⟨c, r', hpending, hcaches, hput⟩ | hsame
    · have hmissed := h.missed c (List.mem_of_getElem? hpending) hcaches
      have hother : c.key ≠ key := by
        intro hkey
        rw [hkey, hget] at hmissed
        cases hmissed
      rw [hput, Cache.get?_put, if_neg hother, hget]
    · rw [hsame, hget]

theorem kept_run (h : Apart t) {moves : List Move} (hserial : t.Serial moves)
    (hclear : .clear ∉ moves) {key : CacheKey} {r : BacktestResult R}
    (hget : t.engine.cache.get? key = some r) :
    (t.run moves).engine.cache.get? key = some r := by
  induction moves generalizing t with
  | nil => exact hget
  | cons move moves ih =>
    rw [List.mem_cons, not_or] at hclear
    exact ih (apart_step h move hserial.1) hserial.2 hclear.2 (kept_step h (Ne.symm hclear.1) hget)

theorem apart_run (h : Apart t) {moves : List Move} (hserial : t.Serial moves) :
    Apart (t.run moves) := by
  induction moves generalizing t with
  | nil => exact h
  | cons move moves ih => exact ih (apart_step h move hserial.1) hserial.2

theorem serial_append {moves later : List Move} (h : t.Serial (moves ++ later)) :
    t.Serial moves ∧ (t.run moves).Serial later := by
  induction moves generalizing t with
  | nil => exact ⟨trivial, h⟩
  | cons move moves ih =>
    obtain ⟨hfirst, hrest⟩ := h
    exact ⟨⟨hfirst, (ih hrest).1⟩, (ih hrest).2⟩

/-- A call by itself is a backtest of the engine. -/
theorem run_call (hidle : t.pending = []) (c : Call) :
    (∀ r e, t.engine.backtest c.occasion c.useCache c.strategy c.run = .ok (r, e) →
      t.run [.lookup c, .finish 0] = ⟨e, [], .answered c r :: t.log⟩ ∨
      t.run [.lookup c, .finish 0] = ⟨e, [], .finished c r :: t.log⟩) ∧
    (∀ f, t.engine.backtest c.occasion c.useCache c.strategy c.run = .error f →
      t.run [.lookup c, .finish 0] = ⟨t.engine, [], .failed c f :: t.log⟩) := by
  obtain ⟨engine, pending, log⟩ := t
  dsimp only at hidle
  subst hidle
  unfold Engine.backtest
  simp only [run, List.foldl_cons, List.foldl_nil, step]
  cases hlookup : engine.lookup c.useCache c.strategy c.run with
  | some r =>
    refine ⟨fun r' e' hanswer => ?_, fun f hfault => by cases hfault⟩
    cases hanswer
    exact .inl rfl
  | none =>
    simp only [List.nil_append, List.getElem?_cons_zero, List.eraseIdx_cons_zero]
    cases hcompute : (Engine.compute engine.sim engine.issued c.occasion c.strategy c.run :
        Except Fault (BacktestResult R)) with
    | error f =>
      refine ⟨fun r' e' hanswer => (by cases hanswer), fun f hfault => ?_⟩
      cases hfault
      rfl
    | ok r =>
      refine ⟨fun r' e' hanswer => ?_, fun f hfault => by cases hfault⟩
      cases hanswer
      exact .inr rfl

end Traffic

/-! ## Runs in many markets -/

namespace Engine

variable [Scalar R]

theorem mem_computeAll {sim : Simulator} {o : Occasion} {s : Strategy} {serial : Nat}
    {cfgs : List SimulationConfig} {results : List (BacktestResult R)}
    (h : computeAll sim o s serial cfgs = .ok results) {r : BacktestResult R} (hr : r ∈ results) :
    ∃ serial, ∃ cfg ∈ cfgs, compute sim serial o s cfg = .ok r := by
  induction cfgs generalizing serial results with
  | nil =>
    cases h
    cases hr
  | cons cfg cfgs ih =>
    rw [computeAll] at h
    split at h
    · cases h
    case h_2 first hfirst =>
      cases hrest : (computeAll sim o s (serial + 1) cfgs : Except Fault (List (BacktestResult R))) with
      | error f =>
        rw [hrest] at h
        cases h
      | ok rest =>
        rw [hrest] at h
        cases h
        rcases List.mem_cons.1 hr with rfl | hr
        · exact ⟨serial, cfg, List.mem_cons_self, hfirst⟩
        · obtain ⟨n, cfg', hmem, hcompute⟩ := ih hrest hr
          exact ⟨n, cfg', List.mem_cons_of_mem _ hmem, hcompute⟩

theorem exists_of_bind {α β : Type} {x : Except Fault α} {f : α → Except Fault β} {b : β}
    (h : x >>= f = .ok b) : ∃ a, x = .ok a ∧ f a = .ok b := by
  cases x with
  | error e => cases h
  | ok a => exact ⟨a, rfl, h⟩

theorem results_aggregate {metrics : List (Metrics R)} {results : List (BacktestResult R)}
    {r : MonteCarloResult R} (h : MonteCarlo.aggregate metrics results = .ok r) :
    r.results = results := by
  unfold MonteCarlo.aggregate at h
  obtain ⟨medianReturn, -, h⟩ := exists_of_bind h
  obtain ⟨avgReturn, -, h⟩ := exists_of_bind h
  obtain ⟨low, -, h⟩ := exists_of_bind h
  obtain ⟨high, -, h⟩ := exists_of_bind h
  obtain ⟨medianDrawdown, -, h⟩ := exists_of_bind h
  obtain ⟨maxDrawdown, -, h⟩ := exists_of_bind h
  obtain ⟨avgSharpe, -, h⟩ := exists_of_bind h
  cases h
  rfl

/-- The runs in many markets are computed each for itself, and leave the cache as it is. -/
theorem monteCarlo_cases {e e' : Engine R} {o : Occasion} {s : Strategy} {cfg : SimulationConfig}
    {runs seed : Option Int} {r : MonteCarloResult R}
    (h : e.monteCarlo o s cfg runs seed = .ok (r, e')) :
    e'.cache = e.cache ∧ ∀ b ∈ r.results, ∃ serial cfg',
      compute e.sim serial { o with watch := o.watch.clockOnly } s cfg' = .ok b := by
  unfold monteCarlo at h
  dsimp only at h
  split at h
  · cases h
  · split at h
    · cases h
    · split at h
      · cases h
      case h_2 results hcompute =>
        split at h
        · cases h
        case h_2 aggregated haggregate =>
          cases h
          refine ⟨rfl, fun b hb => ?_⟩
          rw [results_aggregate haggregate] at hb
          obtain ⟨serial, cfg', -, hb⟩ := mem_computeAll hcompute hb
          exact ⟨serial, cfg', hb⟩

end Engine

/-! ## All together -/

namespace Traffic

/-- However the steps of calls interleave with each other and with clearing the cache: entries and
answers are published results, calls without the cache get none and store none, and so do runs in
many markets. As long as calls do not overlap, an entry stays until the cache is cleared. -/
theorem overlap_safe [Scalar R] (sim : Simulator) (moves : List Move) :
    Safe sim (reached sim moves : Traffic R) ∧
    (∀ c : Call, c.useCache = false →
      (∀ r, .answered c r ∉ (reached sim moves : Traffic R).log) ∧
      ∀ move, (reached sim moves : Traffic R).callOf move = some c →
        ((reached sim moves : Traffic R).step move).engine.cache =
          (reached sim moves : Traffic R).engine.cache) ∧
    (∀ o s cfg runs seed r e,
      (reached sim moves : Traffic R).engine.monteCarlo o s cfg runs seed = .ok (r, e) →
      e.cache = (reached sim moves : Traffic R).engine.cache ∧ ∀ b ∈ r.results, ∃ serial cfg',
        Engine.compute sim serial { o with watch := o.watch.clockOnly } s cfg' = .ok b) ∧
    (∀ later key r, (start sim : Traffic R).Serial (moves ++ later) → .clear ∉ later →
      (reached sim moves : Traffic R).engine.cache.get? key = some r →
      (reached sim (moves ++ later) : Traffic R).engine.cache.get? key = some r) := by
  have hsafe : Safe sim (reached sim moves : Traffic R) := safe_run (safe_start sim) moves
  refine ⟨hsafe, fun c hc => ⟨fun r hanswer => ?_, fun move hcall => ?_⟩,
    fun o s cfg runs seed r e hruns => ?_, fun later key r hserial hclear hget => ?_⟩
  · obtain ⟨later, earlier, hlog⟩ := List.append_of_mem hanswer
    have hcaches := (hsafe.answers later c r earlier hlog).1
    rw [Call.caches, hc, Bool.and_false] at hcaches
    cases hcaches
  · exact cache_step_of_not_caches _ hcall hc
  · have hcases := Engine.monteCarlo_cases hruns
    rw [hsafe.simulator] at hcases
    exact hcases
  · have hapart : Apart (start sim : Traffic R) := ⟨Nat.zero_le 1, fun c hc => nomatch hc⟩
    obtain ⟨hbefore, hafter⟩ := serial_append hserial
    have hkept := kept_run (apart_run hapart hbefore) hafter hclear hget
    rwa [reached, run, List.foldl_append]

/-- A call for a strategy without blocks. -/
def idleCall : Call where
  occasion := ⟨⟨0⟩, 0, .idle⟩
  useCache := true
  strategy :=
    { id := "s", name := "", description := "", category := .custom, version := "1.0.0",
      status := .draft, blocks := [], connections := [], settings := .standard,
      riskParams := .standard, tags := [], metadata := [] }
  run :=
    { startDate := ⟨0⟩, endDate := ⟨3600000000⟩, initialCapital := 1000,
      priceDataSource := .synthetic, slippageModel := .realistic, gasModel := .historical,
      marketConditions := none, monteCarloRuns := none, seed := some 7 }

/-- The id of its entry after some steps. -/
def idleEntry (moves : List Move) : Option String :=
  ((reached ⟨.standard, .empty, none⟩ moves : Traffic Float).engine.cache.get? idleCall.key).map (·.id)

-- Where two calls overlap that both miss the entry, the later one replaces it.
example : idleEntry [.lookup idleCall, .lookup idleCall, .finish 0] = some "run_000000000000" ∧
    idleEntry [.lookup idleCall, .lookup idleCall, .finish 0, .finish 0] =
      some "run_000000000001" ∧
    idleEntry [.lookup idleCall, .finish 0, .lookup idleCall, .finish 0] =
      some "run_000000000000" := by
  decide +kernel

end Traffic

end Tradeflow
