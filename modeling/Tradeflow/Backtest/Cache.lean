/-
  Results kept for reuse, by strategy, version and period. Storing under a known key replaces the entry;
  nothing else removes one but clearing all of them.
-/
import Tradeflow.Backtest.Result

namespace Tradeflow

structure CacheKey where
  strategyId : String
  version : String
  start : Instant
  stop : Instant
  deriving DecidableEq, Repr

/-- The key of a run of a strategy. -/
def CacheKey.of (s : Strategy) (c : SimulationConfig) : CacheKey :=
  ⟨s.id, s.version, c.startDate, c.endDate⟩

structure Cache (R : Type) where
  entries : List (CacheKey × BacktestResult R)

namespace Cache

variable {R : Type}

def empty : Cache R := ⟨[]⟩

def get? (c : Cache R) (key : CacheKey) : Option (BacktestResult R) :=
  (c.entries.find? (·.1 == key)).map (·.2)

def put (c : Cache R) (key : CacheKey) (result : BacktestResult R) : Cache R :=
  ⟨(key, result) :: c.entries.filter (·.1 != key)⟩

def size (c : Cache R) : Nat := c.entries.length

theorem get?_put (c : Cache R) (k key : CacheKey) (r : BacktestResult R) :
    (c.put k r).get? key = if k = key then some r else c.get? key := by
  by_cases h : k = key
  · subst h; simp [get?, put]
  · have kept : (c.entries.filter (·.1 != k)).find? (·.1 == key) = c.entries.find? (·.1 == key) := by
      rw [List.find?_filter]
      congr 1
      funext a
      by_cases ha : a.1 = key
      · simp [ha, Ne.symm h]
      · simp [ha]
    simp [get?, put, h, kept]

theorem get?_empty (key : CacheKey) : (empty : Cache R).get? key = none := rfl

end Cache

end Tradeflow
