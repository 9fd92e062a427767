/-
  Historical runs over a feed that fails for one of the tokens of the plan. Their market is that of the
  same run over synthetic prices, down to the random numbers that are left (`marketOf_of_unusable`),
  and what is done with a market does not ask where it is from; so both runs leave the same behind.
  `falls_back_wholly`: one unusable answer, whichever token it is for, makes a seeded run a synthetic
  one, and otherwise its market lasts as long as the shortest answer and prices the plan's tokens.
-/
import Tradeflow.Proofs.Backtest.ManyRuns
import Tradeflow.Proofs.Market.Fallback
import Tradeflow.Proofs.Validation.Presentation

namespace Tradeflow

open PriceSeries

/-- The same run over synthetic prices. -/
def SimulationConfig.synthetic (cfg : SimulationConfig) : SimulationConfig :=
  { cfg with priceDataSource := .synthetic }

variable {R : Type} [Scalar R]

namespace Backtest

variable {sim : Simulator} {feed : PriceFeed} {cfg : SimulationConfig} {s : Strategy}

theorem plan_tokens_nodup (catalog : Catalog) (quote : String) (s : Strategy) :
    (s.plan catalog quote).tokens.Nodup :=
  nodup_eraseDups _

/-- Without ticks of the feed, the market is synthetic. -/
theorem build_of_historical_nil {config : EngineConfig} {tokens : List String}
    (hsource : cfg.priceDataSource = .historical)
    (h : (historical feed tokens cfg : List (PriceTick R)) = []) (g : Random.Generator) :
    (build config (some feed) tokens cfg g : List (PriceTick R) × Random.Generator) =
      build config (some feed) tokens cfg.synthetic g := by
  have hleft : (build config (some feed) tokens cfg g : List (PriceTick R) × Random.Generator) =
      synthetic config cfg g := by
    unfold build
    rw [hsource]
    dsimp only
    rw [h]
    rfl
  exact hleft

theorem marketOf_of_unusable (hfeed : sim.feed = some feed)
    (hsource : cfg.priceDataSource = .historical)
    (h : ∃ token ∈ (s.plan sim.catalog sim.config.quoteToken).tokens,
      Unusable (feed token cfg.startDate cfg.endDate)) (g : Random.Generator) :
    (marketOf sim s cfg g : List (PriceTick R) × Random.Generator) =
      marketOf sim s cfg.synthetic g := by
  unfold marketOf
  rw [hfeed]
  exact build_of_historical_nil hsource (historical_of_unusable (plan_tokens_nodup ..) h) g

theorem marketOf_of_usable (hfeed : sim.feed = some feed)
    (hsource : cfg.priceDataSource = .historical)
    (h : ∀ token ∈ (s.plan sim.catalog sim.config.quoteToken).tokens,
      ¬ Unusable (feed token cfg.startDate cfg.endDate)) (g : Random.Generator) :
    ∃ ticks : List (PriceTick R), marketOf sim s cfg g = (ticks, g) ∧
      IsLeast (Set.image (fun token => barCount (feed token cfg.startDate cfg.endDate))
        {token | token ∈ (s.plan sim.catalog sim.config.quoteToken).tokens}) ticks.length ∧
      ∀ tick ∈ ticks,
        tick.prices.keys = (s.plan sim.catalog sim.config.quoteToken).tokens := by
  obtain ⟨hne, hleast, hprices⟩ := historical_of_usable (R := R)
    (plan_tokens_ne_nil sim.catalog sim.config.quoteToken s) (plan_tokens_nodup ..) h
  refine ⟨_, ?_, hleast, hprices⟩
  unfold marketOf
  rw [hfeed]
  exact build_historical hsource hne

/-- Two runs over one market that differ in where their prices are from do the same. -/
theorem run_of_marketOf_eq
    (h : ∀ g, (marketOf sim s cfg g : List (PriceTick R) × Random.Generator) =
      marketOf sim s cfg.synthetic g) (watch : Watch) (entropy : Nat) :
    run R sim watch entropy s cfg = run R sim watch entropy s cfg.synthetic := by
  have hsame : generatorOf cfg.synthetic entropy = generatorOf cfg entropy := rfl
  rw [run, run, hsame]
  cases generatorOf cfg entropy with
  | error f => rfl
  | ok g =>
    have hmarket := h g
    unfold marketOf at hmarket
    dsimp only
    rw [hmarket]
    rfl

end Backtest

namespace Engine

open Backtest

/-- A result of the same outcome for another configuration. -/
theorem alone_of_run_eq {e : Engine R} {o : Occasion} {s : Strategy} {cfg cfg' : SimulationConfig}
    (h : run R e.sim o.watch o.entropy s cfg = run R e.sim o.watch o.entropy s cfg') :
    e.alone o s cfg = (e.alone o s cfg').map fun r => { r with config := cfg } := by
  rw [alone, alone, backtest_uncached, backtest_uncached, compute, compute, h]
  cases run R e.sim o.watch o.entropy s cfg' <;> rfl

/-- A seeded run over a feed, the cache aside. If the feed's answer for any token of the plan is unusable,
the market is that of the same run over synthetic prices, with the same random numbers left; and that
run, made at any time and with any randomness at hand but stopped no earlier or later, has the same
result but for its name, the times it was made at and the configuration it was asked for. If no answer
is unusable, there are as many ticks as the shortest answer has items, and each prices exactly the
tokens of the plan. -/
theorem falls_back_wholly (e : Engine R) (s : Strategy) (cfg : SimulationConfig) (seed : Int)
    (feed : PriceFeed) (hfeed : e.sim.feed = some feed)
    (hsource : cfg.priceDataSource = .historical) (hseed : cfg.seed = some seed) :
    let tokens := (s.plan e.sim.catalog e.sim.config.quoteToken).tokens
    ((∃ token ∈ tokens, Unusable (feed token cfg.startDate cfg.endDate)) →
      (∀ g, (marketOf e.sim s cfg g : List (PriceTick R) × Random.Generator) =
        marketOf e.sim s cfg.synthetic g) ∧
      ∀ o o' : Occasion, o.watch.Alike e.sim.config.maxDurationSeconds o'.watch →
        e.alone o s cfg = (e.alone o' s cfg.synthetic).map fun r => { r with config := cfg }) ∧
    ((∀ token ∈ tokens, ¬ Unusable (feed token cfg.startDate cfg.endDate)) →
      ∀ g, ∃ ticks : List (PriceTick R), marketOf e.sim s cfg g = (ticks, g) ∧
        IsLeast (Set.image (fun token => barCount (feed token cfg.startDate cfg.endDate))
          {token | token ∈ tokens}) ticks.length ∧
        ∀ tick ∈ ticks, tick.prices.keys = tokens) := by
  refine ⟨fun h => ?_, fun h => marketOf_of_usable hfeed hsource h⟩
  have hmarket := fun g => marketOf_of_unusable (R := R) hfeed hsource h g
  refine ⟨hmarket, fun o o' halike => ?_⟩
  rw [← compute_unmarked (o := o) halike (show cfg.synthetic.seed = some seed from hseed) e.issued s]
  have hself : o.watch.Alike e.sim.config.maxDurationSeconds o.watch := fun _ => ⟨rfl, Iff.rfl⟩
  rw [compute_unmarked (o := o) hself (show cfg.synthetic.seed = some seed from hseed)]
  exact alone_of_run_eq (run_of_marketOf_eq hmarket o.watch o.entropy)

/-- A feed that has two bars for every token but one, for which it fails. -/
def allBut (missing : String) : PriceFeed := fun token start stop =>
  if token = missing then none else twoBars 3 token start stop

/-- The usual engine over that feed. -/
def engineWithout (missing : String) : Engine Float :=
  start ⟨.standard, .core, some (allBut missing)⟩

theorem tokens_hourlySwap (missing : String) :
    ((pair hourly halfSwap).plan (engineWithout missing).sim.catalog
      (engineWithout missing).sim.config.quoteToken).tokens = ["TON", "USDT"] := by
  show ((pair hourly halfSwap).plan .core EngineConfig.standard.quoteToken).tokens = _
  decide +kernel

/-- Where the feed fails for the second of two tokens, both trades of a swap are those over synthetic
prices. Where it fails for a token that is not asked for, the two bars of both tokens are priced. -/
theorem hourlySwap_falls_back :
    (∃ r r' : BacktestResult Float,
      (engineWithout "USDT").alone ⟨⟨0⟩, 0, .idle⟩ (pair hourly halfSwap) twoHours = .ok r ∧
      (engineWithout "USDT").alone ⟨⟨1⟩, 5, .idle⟩ (pair hourly halfSwap) twoHours.synthetic = .ok r' ∧
      r = { r' with config := twoHours } ∧ r'.trades.length = 2) ∧
    ∀ g, ∃ ticks : List (PriceTick Float),
      marketOf (engineWithout "ETH").sim (pair hourly halfSwap) twoHours g = (ticks, g) ∧
      ticks.length = 2 ∧ ∀ tick ∈ ticks, tick.prices.keys = ["TON", "USDT"] := by
  constructor
  · obtain ⟨hfail, -⟩ := falls_back_wholly (engineWithout "USDT") (pair hourly halfSwap) twoHours 7
      (allBut "USDT") rfl rfl rfl
    rw [tokens_hourlySwap] at hfail
    obtain ⟨-, hsame⟩ := hfail ⟨"USDT", by decide, .failed⟩
    obtain ⟨r', hr', htrades⟩ : ∃ r' : BacktestResult Float,
        (engineWithout "USDT").alone ⟨⟨1⟩, 5, .idle⟩ (pair hourly halfSwap) twoHours.synthetic =
          .ok r' ∧ r'.trades.length = 2 :=
      Except.exists_of_map (by decide +kernel)
    refine ⟨_, r', ?_, hr', rfl, htrades⟩
    rw [hsame ⟨⟨0⟩, 0, .idle⟩ ⟨⟨1⟩, 5, .idle⟩ fun _ => ⟨rfl, Iff.rfl⟩, hr']
    rfl
  · intro g
    obtain ⟨-, husable⟩ := falls_back_wholly (engineWithout "ETH") (pair hourly halfSwap) twoHours 7
      (allBut "ETH") rfl rfl rfl
    have hanswer : ∀ token ∈ ["TON", "USDT"],
        allBut "ETH" token twoHours.startDate twoHours.endDate =
          twoBars 3 token twoHours.startDate twoHours.endDate := fun token hmem =>
      if_neg fun heq => absurd (heq ▸ hmem) (by decide)
    rw [tokens_hourlySwap] at husable
    obtain ⟨ticks, hmarket, ⟨⟨token, hmem, hlength⟩, -⟩, hprices⟩ := husable (fun token hmem => by
      rw [hanswer token hmem, unusable_iff, bars?_twoBars]
      exact fun h => h _ _ rfl) g
    refine ⟨ticks, hmarket, ?_, hprices⟩
    rw [← hlength]
    dsimp only
    rw [hanswer token hmem]
    rfl

end Engine

end Tradeflow
