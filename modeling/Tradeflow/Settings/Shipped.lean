/-
  The settings that come with the program.
-/
import Tradeflow.Settings.Directory

namespace Tradeflow.Settings

def validationText : String :=
  "# Strategy validator settings\n" ++
  "validation:\n" ++
  "  strict_mode: false\n" ++
  "  max_risk_score: 80\n" ++
  "  max_gas_budget: 5.0\n" ++
  "  enable_security_checks: true\n" ++
  "  allowed_tokens: [TON, USDT, USDC, ETH, BTC, stTON, tsTON]\n" ++
  "  allowed_protocols: [dedust, stonfi, tonstakers, bemo, whales, evaa]\n"

def simulationText : String :=
  "# Simulation engine defaults\n" ++
  "simulation:\n" ++
  "  data_source: synthetic\n" ++
  "  enable_cache: true\n" ++
  "  max_duration_seconds: 300\n" ++
  "  default_monte_carlo_runs: 100\n" ++
  "  max_workers: 4\n" ++
  "  quote_token: USDT\n" ++
  "  base_price: 5.0\n" ++
  "  price_floor: 0.01\n" ++
  "  volatility_levels:\n" ++
  "    low: 0.005\n" ++
  "    medium: 0.015\n" ++
  "    high: 0.03\n" ++
  "  trend_drifts:\n" ++
  "    bull: 0.0005\n" ++
  "    bear: -0.0005\n" ++
  "    sideways: 0.0\n" ++
  "  default_prices:\n" ++
  "    TON: 5.0\n" ++
  "    USDT: 1.0\n" ++
  "    USDC: 1.0\n" ++
  "    ETH: 2500.0\n"

/-- The directory of the settings that come with the program. -/
def shipped (path : String) : Directory where
  path := path
  files := some [("simulation.yaml", simulationText), ("validation.yaml", validationText)]

end Tradeflow.Settings
