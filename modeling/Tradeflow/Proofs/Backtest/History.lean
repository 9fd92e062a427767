/-
  What the requests that an engine has answered before mean for a quick check. A request `Fills` the
  entry of a key if it makes a backtest with that key which the cache may keep. The first request of
  a history that fills an entry settles it (`entry_after`): before it there is none (`no_entry`), and
  from then on the entry stays (`entry_kept`).
  `sandbox_after_history`: a quick check is answered as by a new engine if no request filled the entry
  of its key, and else it reports the run of the first request that did, whatever its capital was.
-/
import Tradeflow.Backtest.Traffic
import Tradeflow.Catalog.Core
import Tradeflow.Proofs.Backtest.CacheSafety

namespace Tradeflow

variable {R : Type} [Scalar R] {sim : Simulator} {key : CacheKey}

/-- What a call gets from a new engine. -/
def Call.own (R : Type) [Scalar R] (sim : Simulator) (c : Call) : Except Fault (BacktestResult R) :=
  Engine.compute sim 0 c.occasion c.strategy c.run

/-- A call that may use the cache and is completed if it has to run. -/
def Call.Keeps (R : Type) [Scalar R] (sim : Simulator) (c : Call) : Prop :=
  c.caches sim = true ∧ ∃ r, c.own R sim = .ok r ∧ r.status = .completed

namespace Engine

variable {e : Engine R} {c : Call} {q : Request} {history : List Request} {r : BacktestResult R}

/-! ## Runs and their names -/

/-- Runs of a call differ in the names of their results only. -/
theorem compute_eq_own (sim : Simulator) (serial : Nat) (c : Call) :
    ∃ id, compute sim serial c.occasion c.strategy c.run =
      (c.own R sim).map fun r => { r with id := id } := by
  refine ⟨"run_" ++ String.ofList (Text.hexPadded 12 serial), ?_⟩
  unfold Call.own compute
  cases Backtest.run R sim c.occasion.watch c.occasion.entropy c.strategy c.run <;> rfl

theorem exists_own {serial : Nat}
    (h : compute sim serial c.occasion c.strategy c.run = .ok r) :
    ∃ r', c.own R sim = .ok r' ∧ ∃ id, r = { r' with id := id } := by
  obtain ⟨id, hown⟩ := compute_eq_own (R := R) sim serial c
  rw [h] at hown
  cases hrun : c.own R sim with
  | error f =>
    rw [hrun] at hown
    cases hown
  | ok r' =>
    rw [hrun] at hown
    exact ⟨r', rfl, id, Except.ok.inj hown⟩

/-! ## One call -/

/-- The engine after a call. -/
def afterCall (e : Engine R) (c : Call) : Engine R :=
  e.orKeep (e.backtest c.occasion c.useCache c.strategy c.run)

/-- A call that has to run and may keep its result does so; else the cache stays as it is. -/
theorem afterCall_cases (e : Engine R) (c : Call) :
    (e.afterCall c).sim = e.sim ∧
    ((e.cache.get? c.key = none ∧ ∃ r id, c.own R e.sim = .ok r ∧ c.Keeps R e.sim ∧
        (e.afterCall c).cache = e.cache.put c.key { r with id := id }) ∨
      (e.cache.get? c.key = none → ¬ c.Keeps R e.sim) ∧ (e.afterCall c).cache = e.cache) := by
  unfold afterCall backtest
  cases hlookup : e.lookup c.useCache c.strategy c.run with
  | some r =>
    refine ⟨rfl, .inr ⟨fun hnone => ?_, rfl⟩⟩
    rw [Call.key, (lookup_cases hlookup).2] at hnone
    cases hnone
  | none =>
    dsimp only
    cases hcompute : (compute e.sim e.issued c.occasion c.strategy c.run :
        Except Fault (BacktestResult R)) with
    | error f =>
      refine ⟨rfl, .inr ⟨fun _ hkeeps => ?_, rfl⟩⟩
      obtain ⟨-, r, hown, -⟩ := hkeeps
      obtain ⟨id, hrenamed⟩ := compute_eq_own (R := R) e.sim e.issued c
      rw [hcompute, hown] at hrenamed
      cases hrenamed
    | ok r =>
      obtain ⟨r', hown, id, rfl⟩ := exists_own hcompute
      refine ⟨store_sim .., ?_⟩
      by_cases hkeeps : c.caches e.sim = true ∧ r'.status = .completed
      · obtain ⟨hcaches, hcompleted⟩ := hkeeps
        refine .inl ⟨lookup_none hlookup hcaches, r', id, hown, ⟨hcaches, r', hown, hcompleted⟩, ?_⟩
        have hkept : (e.sim.config.enableCache && c.useCache && r'.status == .completed) = true := by
          rw [show (e.sim.config.enableCache && c.useCache) = true from hcaches, hcompleted]
          rfl
        show (store ..).cache = _
        unfold store
        rw [if_pos hkept]
        rfl
      · refine .inr ⟨fun _ hkept => hkeeps ?_, ?_⟩
        · obtain ⟨hcaches, r'', hown', hcompleted⟩ := hkept
          rw [hown] at hown'
          cases hown'
          exact ⟨hcaches, hcompleted⟩
        · rcases store_cases { e with issued := e.issued + 1 } c.useCache c.strategy c.run
            { r' with id := id } with ⟨hcaches, hcompleted, -⟩ | hsame
          · exact absurd ⟨hcaches, hcompleted⟩ hkeeps
          · exact hsame

/-! ## One request -/

/-- The single backtest that a request makes. -/
def Request.call? : Request → Option Call
  | .backtest c => some c
  | .sandbox o s hours seed =>
    if hours ≤ 0 then none
    else (trailing o.now hours sandboxCapital seed).toOption.map (⟨o, true, s, ·⟩)
  | .estimate o s horizon seed =>
    (horizonDays? horizon).bind fun days =>
      (trailing o.now (days * 24) estimateCapital seed).toOption.map (⟨o, true, s, ·⟩)
  | .monteCarlo .. => none

/-- Does a request make a backtest with this key that the cache may keep? -/
def Request.Fills (R : Type) [Scalar R] (sim : Simulator) (key : CacheKey) (q : Request) : Prop :=
  ∃ c, q.call? = some c ∧ c.key = key ∧ c.Keeps R sim

theorem sandbox_eq (e : Engine R) {o : Occasion} {s : Strategy} {hours : Int} {seed : Option Int}
    {run : SimulationConfig} (hhours : 0 < hours)
    (hrun : trailing o.now hours sandboxCapital seed = .ok run) :
    e.sandbox o s hours seed =
      (e.backtest o true s run).map fun (r, e) => (quickReport r, e) := by
  unfold sandbox
  rw [if_neg (Int.not_le.2 hhours), hrun]
  dsimp only
  cases e.backtest o true s run <;> rfl

theorem sim_monteCarlo {e' : Engine R} {o : Occasion} {s : Strategy} {cfg : SimulationConfig}
    {runs seed : Option Int} {m : MonteCarloResult R}
    (h : e.monteCarlo o s cfg runs seed = .ok (m, e')) : e'.sim = e.sim := by
  unfold monteCarlo at h
  dsimp only at h
  split at h
  · cases h
  · split at h
    · cases h
    · split at h
      · cases h
      · split at h
        · cases h
        · cases h
          rfl

/-- A request without a backtest of its own leaves the cache alone. -/
theorem after_of_none (e : Engine R) (h : q.call? = none) :
    (e.after q).sim = e.sim ∧ (e.after q).cache = e.cache := by
  cases q with
  | backtest c => cases h
  | sandbox o s hours seed =>
    rw [Request.call?] at h
    rw [after, sandbox]
    split at h
    case isTrue hhours =>
      rw [if_pos hhours]
      exact ⟨rfl, rfl⟩
    case isFalse hhours =>
      rw [if_neg hhours]
      cases hrun : trailing o.now hours sandboxCapital seed with
      | error f => exact ⟨rfl, rfl⟩
      | ok run =>
        rw [hrun] at h
        cases h
  | estimate o s horizon seed =>
    rw [Request.call?] at h
    rw [after, afterEstimate, estimateBacktest]
    cases hdays : horizonDays? horizon with
    | none => exact ⟨rfl, rfl⟩
    | some days =>
      rw [hdays, Option.bind_some] at h
      dsimp only
      cases hrun : trailing o.now (days * 24) estimateCapital seed with
      | error f => exact ⟨rfl, rfl⟩
      | ok run =>
        rw [hrun] at h
        cases h
  | monteCarlo o s run runs seed =>
    rw [after]
    cases hruns : e.monteCarlo o s run runs seed with
    | error f => exact ⟨rfl, rfl⟩
    | ok made => exact ⟨sim_monteCarlo hruns, (monteCarlo_cases hruns).1⟩

/-- Any other request does to the cache what its backtest does. -/
theorem after_of_some (e : Engine R) (h : q.call? = some c) :
    (e.after q).sim = (e.afterCall c).sim ∧ (e.after q).cache = (e.afterCall c).cache := by
  cases q with
  | backtest c' =>
    cases h
    exact ⟨rfl, rfl⟩
  | sandbox o s hours seed =>
    rw [Request.call?] at h
    split at h
    · cases h
    case isFalse hhours =>
      cases hrun : trailing o.now hours sandboxCapital seed with
      | error f =>
        rw [hrun] at h
        cases h
      | ok run =>
        rw [hrun] at h
        cases h
        rw [after, afterCall, sandbox_eq e (Int.not_le.1 hhours) hrun]
        cases e.backtest o true s run <;> exact ⟨rfl, rfl⟩
  | estimate o s horizon seed =>
    rw [Request.call?] at h
    cases hdays : horizonDays? horizon with
    | none =>
      rw [hdays] at h
      cases h
    | some days =>
      rw [hdays, Option.bind_some] at h
      cases hrun : trailing o.now (days * 24) estimateCapital seed with
      | error f =>
        rw [hrun] at h
        cases h
      | ok run =>
        rw [hrun] at h
        cases h
        rw [after, afterEstimate, estimateBacktest, hdays, afterCall]
        dsimp only
        rw [hrun]
        dsimp only
        cases e.backtest o true s run with
        | error f => exact ⟨rfl, rfl⟩
        | ok made =>
          obtain ⟨b, e₁⟩ := made
          dsimp only [Except.map, orKeep]
          cases hruns : e₁.monteCarlo o s run (some estimateRuns) seed with
          | error f => exact ⟨rfl, rfl⟩
          | ok m => exact ⟨sim_monteCarlo hruns, (monteCarlo_cases hruns).1⟩
  | monteCarlo o s run runs seed => cases h

@[simp]
theorem sim_after (e : Engine R) (q : Request) : (e.after q).sim = e.sim := by
  cases hcall : q.call? with
  | none => exact (after_of_none e hcall).1
  | some c => exact (after_of_some e hcall).1.trans (afterCall_cases e c).1

/-- An entry stays. -/
theorem entry_kept (q : Request) (h : e.cache.get? key = some r) :
    (e.after q).cache.get? key = some r := by
  cases hcall : q.call? with
  | none => rwa [(after_of_none e hcall).2]
  | some c =>
    rw [(after_of_some e hcall).2]
    rcases (afterCall_cases e c).2 with ⟨hnone, r', id, -, -, hput⟩ | ⟨-, hsame⟩
    · have hother : c.key ≠ key := by
        rintro rfl
        rw [hnone] at h
        cases h
      rw [hput, Cache.get?_put, if_neg hother, h]
    · rwa [hsame]

/-- Where there is no entry, a request that does not fill it leaves none. -/
theorem no_entry (hnone : e.cache.get? key = none) (h : ¬ q.Fills R e.sim key) :
    (e.after q).cache.get? key = none := by
  cases hcall : q.call? with
  | none => rwa [(after_of_none e hcall).2]
  | some c =>
    rw [(after_of_some e hcall).2]
    rcases (afterCall_cases e c).2 with ⟨-, r', id, -, hkeeps, hput⟩ | ⟨-, hsame⟩
    · have hother : c.key ≠ key := fun hkey => h ⟨c, hcall, hkey, hkeeps⟩
      rw [hput, Cache.get?_put, if_neg hother, hnone]
    · rwa [hsame]

/-- Where there is no entry, one that fills it leaves its own result. -/
theorem entry_filled (hnone : e.cache.get? key = none) (h : q.Fills R e.sim key) :
    ∃ c r id, q.call? = some c ∧ c.own R e.sim = .ok r ∧
      (e.after q).cache.get? key = some { r with id := id } := by
  obtain ⟨c, hcall, rfl, hkeeps⟩ := h
  rw [(after_of_some e hcall).2]
  rcases (afterCall_cases e c).2 with ⟨-, r', id, hown, -, hput⟩ | ⟨hnot, -⟩
  · exact ⟨c, r', id, hcall, hown, by rw [hput, Cache.get?_put, if_pos rfl]⟩
  · exact absurd hkeeps (hnot hnone)

/-! ## Many requests -/

@[simp]
theorem sim_afterAll (e : Engine R) (history : List Request) : (e.afterAll history).sim = e.sim := by
  induction history generalizing e with
  | nil => rfl
  | cons q history ih => exact (ih (e.after q)).trans (sim_after e q)

theorem entry_kept_all (history : List Request) (h : e.cache.get? key = some r) :
    (e.afterAll history).cache.get? key = some r := by
  induction history generalizing e with
  | nil => exact h
  | cons q history ih => exact ih (entry_kept q h)

theorem no_entry_all (hnone : e.cache.get? key = none)
    (h : ∀ q ∈ history, ¬ q.Fills R e.sim key) : (e.afterAll history).cache.get? key = none := by
  induction history generalizing e with
  | nil => exact hnone
  | cons q history ih =>
    obtain ⟨hfirst, hrest⟩ := List.forall_mem_cons.1 h
    exact ih (no_entry hnone hfirst) (by rwa [sim_after])

/-- The first request that fills an entry settles it. -/
theorem entry_after {before : List Request} (later : List Request) (hnone : e.cache.get? key = none)
    (hbefore : ∀ q' ∈ before, ¬ q'.Fills R e.sim key) (h : q.Fills R e.sim key) :
    ∃ c r id, q.call? = some c ∧ c.own R e.sim = .ok r ∧
      (e.afterAll (before ++ q :: later)).cache.get? key = some { r with id := id } := by
  have hempty := no_entry_all hnone hbefore
  rw [← sim_afterAll e before] at h
  obtain ⟨c, r, id, hcall, hown, hentry⟩ := entry_filled hempty h
  rw [sim_afterAll] at hown
  refine ⟨c, r, id, hcall, hown, ?_⟩
  rw [afterAll, List.foldl_append, List.foldl_cons]
  exact entry_kept_all later hentry

/-! ## Quick checks -/

theorem trailing_initialCapital {now : Instant} {hours : Int} {capital : Float} {seed : Option Int}
    {run : SimulationConfig} (h : trailing now hours capital seed = .ok run) :
    run.initialCapital = capital ∧ run.seed = seed := by
  unfold trailing at h
  dsimp only at h
  split at h
  · cases h
  · split at h
    · cases h
      exact ⟨rfl, rfl⟩
    · cases h

/-- What a quick check answers. -/
def quickAnswer (e : Engine R) (o : Occasion) (s : Strategy) (hours : Int) (seed : Option Int) :
    Except Fault (SandboxResult R) :=
  (e.sandbox o s hours seed).map (·.1)

variable {o : Occasion} {s : Strategy} {hours : Int} {seed : Option Int} {run : SimulationConfig}

theorem quickAnswer_of_entry (hhours : 0 < hours)
    (hrun : trailing o.now hours sandboxCapital seed = .ok run)
    (hcache : e.sim.config.enableCache = true) (h : e.cache.get? (.of s run) = some r) :
    e.quickAnswer o s hours seed = .ok (quickReport r) := by
  have hlookup : e.lookup true s run = some r := by
    unfold lookup
    rw [hcache]
    exact h
  unfold quickAnswer
  rw [sandbox_eq e hhours hrun]
  unfold backtest
  rw [hlookup]
  rfl

/-- A quick check without an entry reports its own run. -/
theorem quickAnswer_of_no_entry (hhours : 0 < hours)
    (hrun : trailing o.now hours sandboxCapital seed = .ok run)
    (h : e.cache.get? (.of s run) = none) :
    e.quickAnswer o s hours seed =
      ((⟨o, true, s, run⟩ : Call).own R e.sim).map quickReport := by
  have hlookup : e.lookup true s run = none := by
    unfold lookup
    rw [h, ite_self]
  unfold quickAnswer
  rw [sandbox_eq e hhours hrun]
  unfold backtest
  rw [hlookup]
  obtain ⟨id, hown⟩ := compute_eq_own (R := R) e.sim e.issued ⟨o, true, s, run⟩
  dsimp only at hown ⊢
  rw [hown]
  cases (⟨o, true, s, run⟩ : Call).own R e.sim <;> rfl

/-- A quick check after any history of requests. A new engine reports a run with the capital of quick
checks. So does an engine that has answered requests before, as long as none of them made a completed
backtest of the same version of the strategy over the same time that the cache may keep; if one did,
the first of these is what is reported, with the capital and in the market that it was made with. -/
theorem sandbox_after_history (sim : Simulator) (history : List Request) (o : Occasion)
    (s : Strategy) (hours : Int) (seed : Option Int) (run : SimulationConfig) (hhours : 0 < hours)
    (hrun : trailing o.now hours sandboxCapital seed = .ok run) :
    (run.initialCapital = sandboxCapital ∧ run.seed = seed ∧
      (start sim : Engine R).quickAnswer o s hours seed =
        ((⟨o, true, s, run⟩ : Call).own R sim).map quickReport) ∧
    ((∀ q ∈ history, ¬ q.Fills R sim (.of s run)) →
      ((start sim : Engine R).afterAll history).quickAnswer o s hours seed =
        (start sim : Engine R).quickAnswer o s hours seed) ∧
    ∀ before q later, history = before ++ q :: later →
      (∀ q' ∈ before, ¬ q'.Fills R sim (.of s run)) → q.Fills R sim (.of s run) →
      ∃ c, q.call? = some c ∧
        ((start sim : Engine R).afterAll history).quickAnswer o s hours seed =
          (c.own R sim).map quickReport := by
  have hnew : (start sim : Engine R).cache.get? (.of s run) = none := rfl
  have hfresh := quickAnswer_of_no_entry hhours hrun hnew
  obtain ⟨hcapital, hseed⟩ := trailing_initialCapital hrun
  refine ⟨⟨hcapital, hseed, hfresh⟩, fun hunfilled => ?_, ?_⟩
  · rw [hfresh, quickAnswer_of_no_entry hhours hrun (no_entry_all hnew hunfilled), sim_afterAll]
  · rintro before q later rfl hbefore hfills
    obtain ⟨c, r, id, hcall, hown, hentry⟩ := entry_after later hnew hbefore hfills
    have hcache : sim.config.enableCache = true := by
      obtain ⟨c', -, -, hkeeps, -⟩ := hfills
      exact (Bool.and_eq_true _ _ ▸ hkeeps).1
    refine ⟨c, hcall, ?_⟩
    rw [quickAnswer_of_entry hhours hrun (by rwa [sim_afterAll]) hentry, show c.own R sim = .ok r from
      hown]
    rfl

/-- A backtest of an hour with five times the capital of a quick check. -/
def richHour : Call :=
  { Traffic.idleCall with
    run :=
      { Traffic.idleCall.run with
        startDate := ⟨63844848000000000⟩, endDate := ⟨63844851600000000⟩, initialCapital := 5000 } }

/-- The end of that hour. -/
def hourEnd : Occasion := ⟨⟨63844851600000000⟩, 0, .idle⟩

/-- The equity that a quick check of the hour reports after some requests. -/
def hourlyEquity (history : List Request) : Option Float :=
  (((start ⟨.standard, .core, none⟩).afterAll history).quickAnswer hourEnd Traffic.idleCall.strategy 1
    (some 7)).toOption.map (·.finalEquity)

/-- After the backtest, a quick check of the hour reports the capital of the backtest. -/
theorem quick_check_reports_foreign_capital :
    hourlyEquity [.backtest richHour] = some 5000 ∧ hourlyEquity [] = some 1000 ∧
      hourlyEquity [.backtest richHour] ≠ hourlyEquity [] := by
  decide +kernel

/-- The quick check of two hours fills another entry, so the backtest after it is the first one to fill
that of its hour. -/
theorem quick_check_repeats_backtest :
    ((start ⟨.standard, .core, none⟩ : Engine Float).afterAll
      [.sandbox hourEnd Traffic.idleCall.strategy 2 (some 7), .backtest richHour]).quickAnswer hourEnd
        Traffic.idleCall.strategy 1 (some 7) =
      (richHour.own Float ⟨.standard, .core, none⟩).map quickReport := by
  obtain ⟨run, hrun, hkey⟩ : ∃ run, trailing hourEnd.now 1 sandboxCapital (some 7) = .ok run ∧
      CacheKey.of Traffic.idleCall.strategy run = richHour.key :=
    Except.exists_of_map (by decide +kernel)
  obtain ⟨r, hown, hcompleted⟩ : ∃ r, richHour.own Float ⟨.standard, .core, none⟩ = .ok r ∧
      r.status = .completed :=
    Except.exists_of_map (by decide +kernel)
  have hother : (Request.sandbox hourEnd Traffic.idleCall.strategy 2 (some 7)).call?.map Call.key ≠
      some richHour.key := by
    decide +kernel
  obtain ⟨-, -, hfirst⟩ := sandbox_after_history (R := Float) ⟨.standard, .core, none⟩
    [.sandbox hourEnd Traffic.idleCall.strategy 2 (some 7), .backtest richHour] hourEnd
    Traffic.idleCall.strategy 1 (some 7) run (by decide) hrun
  rw [hkey] at hfirst
  have hfills : (Request.backtest richHour).Fills Float ⟨.standard, .core, none⟩ richHour.key :=
    ⟨richHour, rfl, rfl, rfl, r, hown, hcompleted⟩
  have hbefore : ∀ q' ∈ [Request.sandbox hourEnd Traffic.idleCall.strategy 2 (some 7)],
      ¬ q'.Fills Float ⟨.standard, .core, none⟩ richHour.key := by
    intro q' hq'
    rw [List.mem_singleton.1 hq']
    rintro ⟨c, hcall, hckey, -⟩
    rw [hcall] at hother
    exact hother (congrArg some hckey)
  obtain ⟨c, hcall, hanswer⟩ := hfirst _ _ [] rfl hbefore hfills
  cases hcall
  exact hanswer

end Engine

end Tradeflow
