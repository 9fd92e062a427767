/-
  The synthetic series in closed form (`synthetic_eq`). The numbers that a generator gives are numbered
  from its state on (`unitAt`), and a series uses three runs of them, each as long as the series: all
  shocks, then all volumes, then all gas prices. The prices are the base price moved by one shock after
  the other (`Regime.after`), and a tick is an hour after the one before it.
-/
import Mathlib.Logic.Function.Iterate
import Mathlib.Tactic.Ring
import Tradeflow.Market.Series

namespace Tradeflow

/-- Some hours later. -/
def Instant.plusHours (first : Instant) (i : Nat) : Instant :=
  first.plus ((i * microsPerHour : Nat) : Int)

theorem Instant.plusHours_zero (first : Instant) : first.plusHours 0 = first := by
  simp [plusHours, plus]

theorem Instant.plus_plusHours (first : Instant) (i : Nat) :
    (first.plus microsPerHour).plusHours i = first.plusHours (i + 1) := by
  simp only [plusHours, plus, mk.injEq]
  push_cast
  ring

/-! ## Random draws by their position -/

namespace Random.Generator

/-- The generator once some numbers are drawn. -/
def skip (g : Generator) (count : Nat) : Generator := (fun g => g.nextUnit.2)^[count] g

/-- The number that is drawn after some others. -/
def unitAt (g : Generator) (i : Nat) : Nat := (g.skip i).nextUnit.1

theorem skip_skip (g : Generator) (m n : Nat) : (g.skip m).skip n = g.skip (m + n) := by
  rw [skip, skip, skip, ← Function.iterate_add_apply, Nat.add_comm]

theorem unitAt_skip (g : Generator) (m i : Nat) : (g.skip m).unitAt i = g.unitAt (m + i) := by
  rw [unitAt, skip_skip, unitAt]

theorem units_eq (count : Nat) (g : Generator) :
    g.units count = ((List.range count).map g.unitAt, g.skip count) := by
  induction count generalizing g with
  | zero => rfl
  | succ count ih =>
    have hlater : g.nextUnit.2.unitAt = g.unitAt ∘ Nat.succ := by
      funext i
      rw [Function.comp_apply, Nat.succ_eq_one_add, ← unitAt_skip]
      rfl
    have hskip : g.nextUnit.2.skip count = g.skip (count + 1) := by
      rw [Nat.add_comm, ← skip_skip]
      rfl
    simp only [units, ih, hlater, hskip, List.range_succ_eq_map, List.map_cons, List.map_map]
    rfl

end Random.Generator

/-- The draw of a tick, out of so many. -/
def Draw.nth (count : Nat) (g : Random.Generator) (i : Nat) : Draw :=
  ⟨g.unitAt i, g.unitAt (count + i), g.unitAt (count + count + i)⟩

theorem Draw.series_eq (count : Nat) (g : Random.Generator) :
    Draw.series count g = ((List.range count).map (Draw.nth count g), g.skip (count + count + count)) := by
  simp [series, nth, Random.Generator.units_eq, Random.Generator.skip_skip, List.zip_map',
    Random.Generator.unitAt_skip]

/-! ## Prices and ticks by their position -/

namespace PriceSeries

variable {R : Type} [Scalar R]

/-- The price that some shocks leave of a price. -/
def Regime.after (r : Regime R) (base : R) (shocks : Nat → Nat) : Nat → R
  | 0 => base
  | i + 1 => r.move (r.after base shocks i) (shocks i)

/-- The first shock may be taken apart. -/
theorem Regime.after_move (r : Regime R) (base : R) (shocks : Nat → Nat) (i : Nat) :
    r.after (r.move base (shocks 0)) (fun k => shocks (k + 1)) i = r.after base shocks (i + 1) := by
  induction i with
  | zero => rfl
  | succ i ih =>
    rw [after, ih]
    rfl

theorem walk_eq (r : Regime R) (draw : Nat → Draw) (count : Nat) (time : Instant) (base : R) :
    walk r time base ((List.range count).map draw) = (List.range count).map fun i =>
      syntheticTick (time.plusHours i) (r.after base (fun k => (draw k).shock) (i + 1)) (draw i) := by
  induction count generalizing draw time base with
  | zero => rfl
  | succ count ih =>
    rw [List.range_succ_eq_map, List.map_cons, List.map_map, walk, ih (draw ∘ Nat.succ), List.map_cons,
      List.map_map, Instant.plusHours_zero]
    refine congrArg _ (List.map_congr_left fun i _ => ?_)
    rw [Instant.plus_plusHours]
    exact congrArg (syntheticTick _ · _) (r.after_move base (fun k => (draw k).shock) (i + 1))

variable {config : EngineConfig} {run : SimulationConfig} {g : Random.Generator}

/-- The regime of a run. -/
def regimeOf (config : EngineConfig) (run : SimulationConfig) : Regime R :=
  .of config (run.marketConditions.getD .standard)

/-- The price of TON after some ticks of a run's series. -/
def tonAfter (config : EngineConfig) (run : SimulationConfig) (g : Random.Generator) : Nat → R :=
  (regimeOf config run).after (Scalar.ofFloat config.basePrice) g.unitAt

/-- A tick is an hour after the one before, and the draw of its price is no other tick's. -/
theorem synthetic_eq : (synthetic (R := R) config run g).1 =
    (List.range (hours run.startDate run.endDate)).map fun i =>
      syntheticTick (run.startDate.plusHours i) (tonAfter config run g (i + 1))
        (Draw.nth (hours run.startDate run.endDate) g i) := by
  rw [synthetic, Draw.series_eq]
  exact walk_eq ..

theorem length_synthetic :
    (synthetic (R := R) config run g).1.length = hours run.startDate run.endDate := by
  rw [synthetic_eq, List.length_map, List.length_range]

theorem synthetic_tick {i : Nat} {t : PriceTick R}
    (h : (synthetic (R := R) config run g).1[i]? = some t) :
    i < hours run.startDate run.endDate ∧
      t = syntheticTick (run.startDate.plusHours i) (tonAfter config run g (i + 1))
        (Draw.nth (hours run.startDate run.endDate) g i) := by
  rw [synthetic_eq, List.getElem?_map, Option.map_eq_some_iff] at h
  obtain ⟨k, hk, rfl⟩ := h
  obtain ⟨hlt, rfl⟩ := List.getElem?_eq_some_iff.1 hk
  rw [List.length_range] at hlt
  rw [List.getElem_range]
  exact ⟨hlt, rfl⟩

theorem exists_of_mem_synthetic {t : PriceTick R} (h : t ∈ (synthetic (R := R) config run g).1) :
    ∃ time price d, t = syntheticTick time price d := by
  obtain ⟨i, hi⟩ := List.getElem?_of_mem h
  exact ⟨_, _, _, (synthetic_tick hi).2⟩

end PriceSeries

end Tradeflow
