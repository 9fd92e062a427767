/-
  Calls of one engine that overlap, and requests of every kind one after the other. A call looks into
  the cache first and is answered if it finds an entry; else it runs, and when the run is over its
  result is kept if it may be. Between these two steps other calls take theirs, and the cache may be
  cleared. All requests but those for runs in many markets make one such call.
-/
import Tradeflow.Backtest.Engine

namespace Tradeflow

/-- A call of an engine for one backtest. -/
structure Call where
  occasion : Occasion
  useCache : Bool
  strategy : Strategy
  run : SimulationConfig

namespace Call

def key (c : Call) : CacheKey := .of c.strategy c.run

/-- Does the call use the cache of such an engine? -/
def caches (sim : Simulator) (c : Call) : Bool := sim.config.enableCache && c.useCache

end Call

/-- How a call ended, or that the cache was cleared. -/
inductive Event (R : Type) where
  /-- The call got an entry of the cache. -/
  | answered (c : Call) (r : BacktestResult R)
  /-- The call got the result of its own run. -/
  | finished (c : Call) (r : BacktestResult R)
  | failed (c : Call) (f : Fault)
  | cleared

/-- One step: the first one of a call, the last one of a pending call, or clearing the cache. -/
inductive Move where
  | lookup (c : Call)
  | finish (index : Nat)
  | clear

/-- An engine, the calls whose runs are going on, and what happened, the latest first. -/
structure Traffic (R : Type) where
  engine : Engine R
  pending : List Call
  log : List (Event R)

namespace Traffic

variable {R : Type} [Scalar R]

def start (sim : Simulator) : Traffic R := ⟨.start sim, [], []⟩

/-- Finishing a call that is not there does nothing. -/
def step (t : Traffic R) : Move → Traffic R
  | .lookup c =>
    match t.engine.lookup c.useCache c.strategy c.run with
    | some r => { t with log := .answered c r :: t.log }
    | none => { t with pending := t.pending ++ [c] }
  | .finish i =>
    match t.pending[i]? with
    | none => t
    | some c =>
      match Engine.compute t.engine.sim t.engine.issued c.occasion c.strategy c.run with
      | .error f => { t with pending := t.pending.eraseIdx i, log := .failed c f :: t.log }
      | .ok r =>
        { engine := { t.engine with issued := t.engine.issued + 1 }.store c.useCache c.strategy c.run r
          pending := t.pending.eraseIdx i
          log := .finished c r :: t.log }
  | .clear => { t with engine := { t.engine with cache := .empty }, log := .cleared :: t.log }

/-- Steps one after the other. -/
def run (t : Traffic R) (moves : List Move) : Traffic R := moves.foldl step t

/-- The call that a step belongs to, if it is there. -/
def callOf (t : Traffic R) : Move → Option Call
  | .lookup c => some c
  | .finish i => t.pending[i]?
  | .clear => none

/-- What a new engine has come to after some steps. -/
def reached (sim : Simulator) (moves : List Move) : Traffic R := (start sim).run moves

/-- No call begins before the one before it has ended. -/
def Serial (t : Traffic R) : List Move → Prop
  | [] => True
  | move :: moves => (∀ c, move = .lookup c → t.pending = []) ∧ (t.step move).Serial moves

end Traffic

/-! ## One request after the other -/

namespace Engine

/-- What an engine may be asked for. -/
inductive Request where
  | backtest (c : Call)
  | sandbox (o : Occasion) (strategy : Strategy) (hours : Int) (seed : Option Int)
  | estimate (o : Occasion) (strategy : Strategy) (horizon : String) (seed : Option Int)
  | monteCarlo (o : Occasion) (strategy : Strategy) (run : SimulationConfig) (runs seed : Option Int)

variable {R : Type} [Scalar R]

/-- The engine that something leaves, or the one that was there if it fails. -/
def orKeep {α : Type} (e : Engine R) : Except Fault (α × Engine R) → Engine R
  | .error _ => e
  | .ok (_, e) => e

/-- The engine after a request. -/
def after (e : Engine R) : Request → Engine R
  | .backtest c => e.orKeep (e.backtest c.occasion c.useCache c.strategy c.run)
  | .sandbox o strategy hours seed => e.orKeep (e.sandbox o strategy hours seed)
  | .estimate o strategy horizon seed => e.afterEstimate o strategy horizon seed
  | .monteCarlo o strategy run runs seed => e.orKeep (e.monteCarlo o strategy run runs seed)

/-- The engine after requests one after the other. -/
def afterAll (e : Engine R) (history : List Request) : Engine R := history.foldl after e

end Engine

end Tradeflow
