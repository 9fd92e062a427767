/-
  What requests carry: the documents that the simulation routes are given.
-/
import Tradeflow.Backtest.Config
import Tradeflow.Strategy.Wire

namespace Tradeflow.Service

structure BacktestRequest where
  strategy : Strategy
  config : SimulationConfig

def BacktestRequest.codec : Codec BacktestRequest :=
  .record (.plain "BacktestRequest") <| Fields.start BacktestRequest BacktestRequest.mk
    |>.req "strategy" Strategy.codec (·.strategy)
    |>.req "config" SimulationConfig.codec (·.config)

structure MonteCarloRequest where
  strategy : Strategy
  config : SimulationConfig
  runs : Option Int
  seed : Option Int

/-- The most runs that one request may ask for. -/
def mostRuns : Int := 1000

def MonteCarloRequest.codec : Codec MonteCarloRequest :=
  .record (.plain "MonteCarloRequest") <| Fields.start MonteCarloRequest MonteCarloRequest.mk
    |>.req "strategy" Strategy.codec (·.strategy)
    |>.req "config" SimulationConfig.codec (·.config)
    |>.opt "runs" (.optional (.intAbove 0 (some mostRuns))) none (·.runs)
    |>.opt "seed" (.optional .int) none (·.seed)

structure SandboxRequest where
  strategy : Strategy
  durationHours : Int
  seed : Option Int

/-- The most hours that a quick check may look back over: thirty days. -/
def mostHours : Int := 24 * 30

def SandboxRequest.codec : Codec SandboxRequest :=
  .record (.plain "SandboxRequest") <| Fields.start SandboxRequest SandboxRequest.mk
    |>.req "strategy" Strategy.codec (·.strategy)
    |>.opt ⟨"duration_hours", "durationHours"⟩ (.intAbove 0 (some mostHours)) 24 (·.durationHours)
    |>.opt "seed" (.optional .int) none (·.seed)

structure EstimateRequest where
  strategy : Strategy
  horizon : String
  seed : Option Int

def EstimateRequest.codec : Codec EstimateRequest :=
  .record (.plain "EstimateRequest") <| Fields.start EstimateRequest EstimateRequest.mk
    |>.req "strategy" Strategy.codec (·.strategy)
    |>.opt "horizon" (.oneOf .notALiteral ["short", "medium", "long"] id) "medium" (·.horizon)
    |>.opt "seed" (.optional .int) none (·.seed)

end Tradeflow.Service
