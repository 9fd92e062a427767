/-
  Schedules over hourly ticks. An interval is as good as the whole number of hours that is not below it
  (`atMost_hours`), and a clock that is set every `k` hours is set at the multiples of `k`
  (`dvd_iff_of_lastHour`): intervals that are no multiple of an hour do not drift.

  A setting that is no number, and zero, stands for a day. A number that is infinite or NaN is neither:
  no time is long enough for it, and such a schedule fires once. Its period is 0 here (`Trigger.period`),
  which divides nothing but 0.

  `schedules_keep_their_clocks`: when schedules fire over the ticks of any run, and at which ticks of a
  synthetic run, and so how many firings are counted.
-/
import Mathlib.Algebra.Order.Floor.Semiring
import Mathlib.Data.Rat.Floor
import Tradeflow.Proofs.Backtest.PriceTriggers
import Tradeflow.Proofs.Backtest.Schedules
import Tradeflow.Proofs.Market.Walk
import Tradeflow.Proofs.Number.Whole

namespace Tradeflow

/-! ## Intervals in hours -/

namespace Trigger

open Double

/-- The hours between firings of a schedule whose interval is set like that, over hourly ticks; 0 if it
fires once only. -/
def period : Option Json → Nat
  | some (.int n) => if n = 0 then 24 else ⌈(n / 3600 : Rat)⌉₊
  | some (.num x) =>
    if Scalar.isZero x then 24 else if isFinite x then ⌈exact x / 3600⌉₊ else 0
  | _ => 24

/-- The setting is no negative number. -/
def NotBelowZero : Option Json → Prop
  | some (.int n) => 0 ≤ n
  | some (.num x) => Scalar.negative x = false
  | _ => True

instance : (setting : Option Json) → Decidable (NotBelowZero setting)
  | some (.int n) => inferInstanceAs (Decidable (0 ≤ n))
  | some (.num x) => inferInstanceAs (Decidable (Scalar.negative x = false))
  | none | some .null | some (.bool _) | some (.str _) | some (.arr _) | some (.obj _) => .isTrue trivial

/-- A span of whole hours in seconds. -/
theorem extent_hours {k : Nat} (hpos : 0 < k) (hsmall : k * 3600 < 2 ^ 53) :
    Upward (Performance.seconds ((k * microsPerHour : Nat) : Int)) ∧
      extent (Performance.seconds ((k * microsPerHour : Nat) : Int)) = ((k * 3600 : Nat) : Rat) := by
  have hmicros : k * microsPerHour = k * 3600 * 10 ^ 6 := by
    rw [microsPerHour, microsPerSecond]
    ring
  unfold Performance.seconds
  rw [if_neg (by omega), Int.natAbs_natCast, hmicros]
  exact extent_millions (by omega) hsmall

theorem atMost_hours {k : Nat} {x : Float} (hx : Upward x) (hpos : 0 < k) (hsmall : k * 3600 < 2 ^ 53) :
    Scalar.atMost x (Performance.seconds ((k * microsPerHour : Nat) : Int)) = true ↔
      extent x ≤ ((k * 3600 : Nat) : Rat) := by
  obtain ⟨hupward, hextent⟩ := extent_hours hpos hsmall
  rw [hx.atMost_iff hupward, hextent]

/-- Hours enough for a number of seconds. -/
theorem ceil_hours_le_iff {q : Rat} {k : Nat} : ⌈q / 3600⌉₊ ≤ k ↔ q ≤ ((k * 3600 : Nat) : Rat) := by
  rw [Nat.ceil_le, div_le_iff₀ (by norm_num)]
  push_cast
  rfl

theorem atMost_usualInterval {k : Nat} (hpos : 0 < k) (hsmall : k * 3600 < 2 ^ 53) :
    Scalar.atMost (usualInterval : Float) (Performance.seconds ((k * microsPerHour : Nat) : Int)) = true ↔
      24 ≤ k := by
  have husual : isFinite (usualInterval : Float) = true ∧
      Scalar.positive (usualInterval : Float) = true ∧ exact (usualInterval : Float) = 86400 := by
    decide +kernel
  rw [atMost_hours (upward_of_positive husual.2.1) hpos hsmall, extent_of_isFinite husual.1, husual.2.2,
    WithTop.coe_le_coe]
  constructor <;> intro h
  · have hcast : 86400 ≤ k * 3600 := by exact_mod_cast h
    omega
  · have hcast : 86400 ≤ k * 3600 := by omega
    exact_mod_cast hcast

/-- A whole number of seconds, as the number that it is read as. -/
theorem atMost_ofInt {n : Nat} {k : Nat} (hn : 0 < n) (hpos : 0 < k) (hsmall : k * 3600 < 2 ^ 53) :
    Scalar.isZero (ofInt n) = false ∧
      (Scalar.atMost (ofInt n) (Performance.seconds ((k * microsPerHour : Nat) : Int)) = true ↔
        n ≤ k * 3600) := by
  have hzero : ∀ {x : Float}, Upward x → 0 < extent x → Scalar.isZero x = false := by
    intro x hx hpos
    refine Bool.eq_false_iff.2 fun h => ?_
    obtain ⟨s, hs⟩ := (isZero_iff x).1 h
    rw [extent_of_isFinite ((isFinite_iff x).2 (.inl ⟨s, hs⟩)), exact_of_zero hs] at hpos
    exact absurd hpos (lt_irrefl _)
  rcases Nat.lt_or_ge n (2 ^ 53) with hexact | hlarge
  · obtain ⟨m, e, hm, hu, hvalue⟩ := exact_toFloat hn hexact
    have hfinite := (isFinite_iff _).2 (.inr ⟨_, m, e, hm, hu⟩)
    have hupward : Upward n.toUInt64.toFloat := .inr (.inr ⟨m, e, hm, hu⟩)
    have hextent : extent n.toUInt64.toFloat = (n : Rat) := by rw [extent_of_isFinite hfinite, hvalue]
    rw [ofInt_eq_toFloat hn hexact]
    refine ⟨hzero hupward ?_, ?_⟩
    · rw [hextent]
      exact_mod_cast hn
    · rw [atMost_hours hupward hpos hsmall, hextent, WithTop.coe_le_coe, Nat.cast_le]
  · obtain ⟨hupward, hle⟩ := le_extent_ofInt hlarge
    refine ⟨hzero hupward (lt_of_lt_of_le ?_ hle), ?_⟩
    · exact_mod_cast (by positivity : (0 : Rat) < 2 ^ 53)
    · rw [atMost_hours hupward hpos hsmall]
      refine iff_of_false (fun h => ?_) (by omega)
      have hcast := WithTop.coe_le_coe.1 (hle.trans h)
      have : 2 ^ 53 ≤ k * 3600 := by exact_mod_cast hcast
      omega

/-- What is not finite is never gone by, unless it is below zero. -/
theorem not_atMost_of_infinite {k : Nat} {x : Float} (hfinite : isFinite x = false)
    (hnot : Scalar.negative x = false) (hpos : 0 < k) (hsmall : k * 3600 < 2 ^ 53) :
    ¬ Scalar.atMost x (Performance.seconds ((k * microsPerHour : Nat) : Int)) = true := by
  intro h
  rcases (isFinite_eq_false_iff x).1 hfinite with hnan | ⟨s, hinfinite⟩
  · rw [atMost_iff_compare, hnan] at h
    cases h
  · cases s with
    | negative =>
      rw [(negative_iff x).2 (.inl hinfinite)] at hnot
      cases hnot
    | positive =>
      rw [atMost_hours (.inr (.inl hinfinite)) hpos hsmall, extent_of_infinite hinfinite] at h
      exact absurd h (not_le.2 (WithTop.coe_lt_top _))

/-- A number that is neither zero nor below it is above. -/
theorem positive_of_finite {x : Float} (hfinite : isFinite x = true) (hzero : Scalar.isZero x = false)
    (hnot : Scalar.negative x = false) : Upward x ∧ 0 < exact x := by
  rcases (isFinite_iff x).1 hfinite with ⟨s, hs⟩ | ⟨s, m, e, hm, hu⟩
  · rw [(isZero_iff x).2 ⟨s, hs⟩] at hzero
    cases hzero
  · cases s with
    | negative =>
      rw [(negative_iff x).2 (.inr ⟨m, e, hm, hu⟩)] at hnot
      cases hnot
    | positive =>
      refine ⟨.inr (.inr ⟨m, e, hm, hu⟩), ?_⟩
      rw [exact_of_positive hu]
      positivity

/-- An interval is a day, or a whole number above zero as the number nearest to it, or the number that
was set. -/
theorem every_cases {setting : Option Json} {interval : Float}
    (h : Setting.numberOr usualInterval setting = .ok interval) (hnot : NotBelowZero setting) :
    (interval = usualInterval ∧ period setting = 24) ∨
      (∃ n : Nat, 0 < n ∧ setting = some (.int n) ∧ interval = ofInt n) ∨
      (setting = some (.num interval) ∧ Scalar.isZero interval = false) := by
  unfold Setting.numberOr at h
  split at h
  · cases h
  case h_2 x hx =>
    have hinterval := Except.ok.inj h
    unfold Setting.number at hx
    split at hx
    case h_1 n =>
      have hn : 0 ≤ n := hnot
      lift n to Nat using hn
      have hread : x = ofInt n := by
        simp only [Scalar.ofInt?, Double.ofInt?] at hx
        split at hx <;> simp_all
      rcases Nat.eq_zero_or_pos n with rfl | hpos
      · refine .inl ⟨?_, rfl⟩
        rw [← hinterval, hread]
        rfl
      · refine .inr (.inl ⟨n, hpos, rfl, ?_⟩)
        have hzero : Scalar.isZero x = false := by
          rw [hread]
          exact (atMost_ofInt hpos Nat.one_pos (by decide)).1
        rw [← hinterval, hzero, hread]
        rfl
    case h_2 x' =>
      obtain rfl : x' = x := Option.some.inj (Except.ok.inj hx)
      cases hzero : Scalar.isZero x' with
      | true =>
        rw [hzero] at hinterval
        exact .inl ⟨hinterval.symm, if_pos hzero⟩
      | false =>
        rw [hzero] at hinterval
        obtain rfl : x' = interval := hinterval
        exact .inr (.inr ⟨rfl, hzero⟩)
    case h_3 => cases hx
  case h_3 hx =>
    refine .inl ⟨(Except.ok.inj h).symm, ?_⟩
    unfold Setting.number at hx
    split at hx
    · split at hx <;> cases hx
    · cases hx
    case h_3 hint hnum =>
      unfold period
      split
      · exact absurd rfl (hint _)
      · exact absurd rfl (hnum _)
      · rfl

/-- An interval has gone by after some hours iff its period has. -/
theorem gone_by_iff {b : Block} {interval : Float} {k : Nat} (h : Every b interval)
    (hnot : NotBelowZero (b.setting? "interval")) (hpos : 0 < k) (hsmall : k * 3600 < 2 ^ 53) :
    Scalar.atMost interval (Performance.seconds ((k * microsPerHour : Nat) : Int)) = true ↔
      period (b.setting? "interval") ≠ 0 ∧ period (b.setting? "interval") ≤ k := by
  rcases every_cases h hnot with ⟨rfl, hperiod⟩ | ⟨n, hn, hsetting, rfl⟩ | ⟨hsetting, hzero⟩
  · rw [hperiod, atMost_usualInterval hpos hsmall]
    omega
  · have hperiod : period (b.setting? "interval") = ⌈(n / 3600 : Rat)⌉₊ := by
      rw [hsetting, period, if_neg (by omega), Int.cast_natCast]
    have hne : ⌈(n / 3600 : Rat)⌉₊ ≠ 0 := by
      rw [← Nat.pos_iff_ne_zero, Nat.ceil_pos]
      positivity
    rw [hperiod, (atMost_ofInt hn hpos hsmall).2, ceil_hours_le_iff, Nat.cast_le]
    simp [hne]
  · rw [hsetting] at hnot
    have hperiod : period (b.setting? "interval") =
        if isFinite interval then ⌈exact interval / 3600⌉₊ else 0 := by
      rw [hsetting, period, hzero]
      rfl
    rw [hperiod]
    cases hfinite : isFinite interval with
    | false =>
      exact iff_of_false (not_atMost_of_infinite hfinite hnot hpos hsmall) (fun h => h.1 rfl)
    | true =>
      obtain ⟨hupward, hexact⟩ := positive_of_finite hfinite hzero hnot
      have hne : ⌈exact interval / 3600⌉₊ ≠ 0 := by
        rw [← Nat.pos_iff_ne_zero, Nat.ceil_pos]
        positivity
      rw [if_pos rfl, ceil_hours_le_iff, atMost_hours hupward hpos hsmall,
        extent_of_isFinite hfinite, WithTop.coe_le_coe]
      simp [hne]

end Trigger

/-! ## Hourly ticks -/

namespace PriceSeries

/-- In the years that there are, spans of hours are exact in seconds. -/
theorem hours_lt {start stop : Instant} (hstart : Instant.inRange start.micros = true)
    (hstop : Instant.inRange stop.micros = true) : hours start stop * 3600 < 2 ^ 53 := by
  unfold Instant.inRange Instant.last microsPerDay microsPerHour microsPerSecond at hstart hstop
  unfold hours microsPerHour microsPerSecond
  simp only [Bool.and_eq_true, decide_eq_true_eq] at hstart hstop
  rw [Int.fdiv_eq_ediv_of_nonneg _ (by omega)]
  omega

end PriceSeries

namespace Trigger

/-! ## The clock of a schedule -/

/-- The clock of a schedule with some period before a tick: it stands at the last multiple of the
period, and at the first tick if there is no period. -/
def lastFiring (first : Instant) (p : Nat) : Nat → Option Instant
  | 0 => none
  | i + 1 => some (first.plusHours (i / p * p))

/-- As many hours as the period have gone by since the last multiple of it at its multiples. -/
theorem dvd_iff_of_lastHour (p i : Nat) : p ≠ 0 ∧ p ≤ i + 1 - i / p * p ↔ p ∣ i + 1 := by
  rcases Nat.eq_zero_or_pos p with rfl | hpos
  · simp
  · have hlt : i % p < p := Nat.mod_lt i hpos
    have hsplit : i + 1 = i / p * p + (i % p + 1) := by
      rw [Nat.mul_comm, ← Nat.add_assoc, Nat.div_add_mod]
    have hpart : p ∣ i + 1 ↔ p ∣ i % p + 1 := by
      rw [hsplit]
      exact Nat.dvd_add_right (Nat.dvd_mul_left p (i / p))
    rw [hpart]
    constructor
    · rintro ⟨-, hle⟩
      have heq : i % p + 1 = p := by omega
      rw [heq]
    · intro h
      have hle := Nat.le_of_dvd (Nat.succ_pos _) h
      omega

/-- A schedule that finds its clock there is due at the multiples of its period. -/
theorem due_hourly {b : Block} {interval : Float} {first : Instant} {i : Nat} (h : Every b interval)
    (hnot : NotBelowZero (b.setting? "interval")) (hsmall : i * 3600 < 2 ^ 53) :
    due interval (lastFiring first (period (b.setting? "interval")) i) (first.plusHours i) = true ↔
      period (b.setting? "interval") ∣ i := by
  cases i with
  | zero => exact iff_of_true rfl (Nat.dvd_zero _)
  | succ i =>
    generalize hperiod : period (b.setting? "interval") = p
    have hle : i / p * p ≤ i := Nat.div_mul_le_self i p
    have hspan : (first.plusHours (i + 1)).micros - (first.plusHours (i / p * p)).micros =
        (((i + 1 - i / p * p) * microsPerHour : Nat) : Int) := by
      have hmost : i / p * p * microsPerHour ≤ (i + 1) * microsPerHour :=
        Nat.mul_le_mul_right microsPerHour (Nat.le_succ_of_le hle)
      rw [Nat.sub_mul, Int.ofNat_sub hmost]
      simp [Instant.plusHours, Instant.plus]
    have hpos : 0 < i + 1 - i / p * p := by omega
    have hfew : (i + 1 - i / p * p) * 3600 < 2 ^ 53 :=
      Nat.lt_of_le_of_lt (Nat.mul_le_mul_right 3600 (Nat.sub_le _ _)) hsmall
    show Scalar.atMost interval (Performance.seconds _) = true ↔ _
    rw [hspan, gone_by_iff h hnot hpos hfew, hperiod, dvd_iff_of_lastHour]

/-- A schedule that fires at the multiples of its period keeps its clock there. -/
theorem lastFiring_succ (first : Instant) (p i : Nat) :
    lastFiring first p (i + 1) = if p ∣ i then some (first.plusHours i) else lastFiring first p i := by
  cases i with
  | zero => simp [lastFiring]
  | succ i =>
    show some (first.plusHours ((i + 1) / p * p)) = if p ∣ i + 1 then _ else
      some (first.plusHours (i / p * p))
    split
    case isTrue hdvd => rw [Nat.div_mul_cancel hdvd]
    case isFalse hdvd => rw [Nat.succ_div, if_neg hdvd, Nat.add_zero]

end Trigger

namespace Backtest

open Trigger

section Hourly

variable {config : EngineConfig} {plan : Plan} {start s last : State Float}
  {days : List (Moment Float)} {first : Instant} {b : Block} {i : Nat}

/-- Ticks an hour apart, and not too many for spans of time to be exact. -/
structure Hourly (first : Instant) (days : List (Moment Float)) : Prop where
  timestamp : ∀ (i : Nat) (hi : i < days.length), days[i].tick.timestamp = first.plusHours i
  short : days.length * 3600 < 2 ^ 53

theorem Hourly.few (h : Hourly first days) (hi : i < days.length) : i * 3600 < 2 ^ 53 :=
  Nat.lt_trans (Nat.mul_lt_mul_of_pos_right hi (by decide)) h.short

/-- Before every tick, the clock of a schedule stands where its period puts it. -/
theorem Course.clock_hourly (h : Course config plan start days last) (hs : Scheduled plan.triggers)
    (hhours : Hourly first days) (hclocks : start.clocks = []) (hmem : (b, .schedule) ∈ plan.triggers)
    (hnot : NotBelowZero (b.setting? "interval")) (hi : i ≤ days.length)
    (hcourse : Course config plan start (days.take i) s) :
    Assoc.get? s.clocks b.id = lastFiring first (period (b.setting? "interval")) i := by
  induction i generalizing s with
  | zero =>
    obtain rfl := hcourse.state_unique (.nil start)
    rw [hclocks]
    rfl
  | succ i ih =>
    have hlt : i < days.length := hi
    obtain ⟨s₁, s', interval, hevery, hbefore, hafter, -, -, hclock⟩ := h.ring_step hs hmem hlt
    rw [hcourse.state_unique hafter, hclock, ih (Nat.le_of_lt hlt) hbefore, hhours.timestamp i hlt,
      lastFiring_succ]
    simp only [due_hourly hevery hnot (hhours.few hlt)]

/-- Over hourly ticks, a schedule fires at the multiples of its period. -/
theorem Course.rings_hourly (h : Course config plan start days last) (hs : Scheduled plan.triggers)
    (hhours : Hourly first days) (hclocks : start.clocks = []) (hmem : (b, .schedule) ∈ plan.triggers)
    (hnot : NotBelowZero (b.setting? "interval")) (hi : i < days.length) :
    RingsAt config plan start days i b ↔ period (b.setting? "interval") ∣ i := by
  obtain ⟨s, -, interval, hevery, hbefore, -, hdue, -, -⟩ := h.ring_step hs hmem hi
  rw [hdue, h.clock_hourly hs hhours hclocks hmem hnot (Nat.le_of_lt hi) hbefore,
    hhours.timestamp i hi, due_hourly hevery hnot (hhours.few hi)]

/-! ## Synthetic runs -/

/-- The ticks that a run works through in a synthetic market. -/
theorem hourly_of_synthetic {cfg : SimulationConfig} {seeded g : Random.Generator}
    {ticks : List (PriceTick Float)} (hmarket : PriceSeries.synthetic config cfg seeded = (ticks, g))
    (hworked : days.map (·.tick) = ticks.take days.length)
    (hstart : Instant.inRange cfg.startDate.micros = true)
    (hstop : Instant.inRange cfg.endDate.micros = true) :
    ticks.length = PriceSeries.hours cfg.startDate cfg.endDate ∧ Hourly cfg.startDate days := by
  have hticks : (PriceSeries.synthetic config cfg seeded).1 = ticks := congrArg Prod.fst hmarket
  have hlength : ticks.length = PriceSeries.hours cfg.startDate cfg.endDate := by
    rw [← hticks, PriceSeries.length_synthetic]
  refine ⟨hlength, ?_, ?_⟩
  · intro i hi
    have htick : (days.map (·.tick))[i]? = some days[i].tick := by simp [hi]
    rw [hworked, List.getElem?_take_of_lt hi, ← hticks] at htick
    exact congrArg PriceTick.timestamp (PriceSeries.synthetic_tick htick).2
  · have hmost := congrArg List.length hworked
    rw [List.length_map, List.length_take, hlength] at hmost
    have hle : days.length ≤ PriceSeries.hours cfg.startDate cfg.endDate := by
      rw [hmost]
      exact Nat.min_le_right _ _
    exact Nat.lt_of_le_of_lt (Nat.mul_le_mul_right 3600 hle) (PriceSeries.hours_lt hstart hstop)

/-- What holds of some moments by their places is counted there. -/
theorem countP_eq_countP_range {fires : Nat → Bool}
    (h : ∀ (i : Nat) (hi : i < days.length), days[i].fired = fires i) :
    days.countP (·.fired) = (List.range days.length).countP fires := by
  have hsame : days.map (·.fired) = (List.range days.length).map fires := by
    apply List.ext_getElem
    · simp
    · intro i hi _
      simp [h]
  have hcount := congrArg (List.countP id) hsame
  rw [List.countP_map, List.countP_map] at hcount
  exact hcount

end Hourly

/-- A run of a strategy whose triggers are schedules, each under an id of its own and with an interval
that is not below zero. Whatever its ticks, a schedule fires at the first one, and after that when its
interval has gone by since it last did. In a synthetic market a tick is one at which a trigger fires iff
the period of some schedule divides its number, and as many firings are counted as there are such ticks
among those that the run worked through. -/
theorem schedules_keep_their_clocks (sim : Simulator) (watch : Watch) (entropy : Nat)
    (strategy : Strategy) (cfg : SimulationConfig) (o : Outcome Float)
    (hscheduled : Scheduled (planOf sim strategy).triggers)
    (hnot : ∀ x ∈ (planOf sim strategy).triggers, NotBelowZero (x.1.setting? "interval"))
    (hrun : run Float sim watch entropy strategy cfg = .ok o) :
    ∃ seeded ticks g days last, generatorOf cfg entropy = .ok seeded ∧
      marketOf sim strategy cfg seeded = (ticks, g) ∧
      Course sim.config (planOf sim strategy) (State.start cfg.initialCapital g) days last ∧
      days.map (·.tick) = ticks.take days.length ∧
      watch.Leaves sim.config.maxDurationSeconds 0 ticks.length days.length o.status ∧
      o.equityCurve = days.map (·.step.equity) ∧
      (days ≠ [] → ∀ b, (b, .schedule) ∈ (planOf sim strategy).triggers →
        ∃ interval : Float, KeepsClock sim.config (planOf sim strategy)
          (State.start cfg.initialCapital g) days b interval) ∧
      (PriceSeries.synthetic sim.config cfg seeded = (ticks, g) →
        Instant.inRange cfg.startDate.micros = true → Instant.inRange cfg.endDate.micros = true →
        ticks.length = PriceSeries.hours cfg.startDate cfg.endDate ∧
        (∀ (i : Nat) (hi : i < days.length), days[i].fired = true ↔
          ∃ x ∈ (planOf sim strategy).triggers, period (x.1.setting? "interval") ∣ i) ∧
        o.metrics.triggerFirings = ((List.range days.length).countP fun i =>
          (planOf sim strategy).triggers.any fun x => period (x.1.setting? "interval") ∣ i : Nat)) := by
  obtain ⟨seeded, ticks, g, p, hseeded, hmarket, hreplay, rfl⟩ := run_cases hrun
  obtain ⟨days, hcourse, hsteps, hworked, hleaves⟩ := course_of_replay hreplay
  refine ⟨seeded, ticks, g, days, p.state, hseeded, hmarket, hcourse, hworked, hleaves, ?_,
    fun hne b hmem => hcourse.keepsClock hscheduled rfl hmem hne, ?_⟩
  · show p.steps.map (·.equity) = _
    rw [← hsteps, List.map_map]
    rfl
  · intro hsynthetic hstart hstop
    obtain ⟨hlength, hhours⟩ := hourly_of_synthetic hsynthetic hworked hstart hstop
    have hfired : ∀ (i : Nat) (hi : i < days.length), days[i].fired = true ↔
        ∃ x ∈ (planOf sim strategy).triggers, period (x.1.setting? "interval") ∣ i := by
      intro i hi
      rw [hcourse.fired_iff hscheduled hi]
      refine exists_congr fun x => and_congr_right fun hmem => ?_
      obtain ⟨b, kind⟩ := x
      obtain rfl := hscheduled.kind _ hmem
      exact hcourse.rings_hourly hscheduled hhours rfl hmem (hnot _ hmem) hi
    refine ⟨hlength, hfired, ?_⟩
    have hfirings : p.state.firings = days.countP (·.fired) := by
      rw [hcourse.firings, State.start, Nat.zero_add]
    refine triggerFirings_metrics.trans ?_
    rw [hfirings]
    refine congrArg _ (countP_eq_countP_range fun i hi => ?_)
    rw [Bool.eq_iff_iff, hfired i hi]
    simp

/-- A strategy with schedules at some intervals, and nothing that they do. -/
def scheduling (intervals : List (String × Json)) : Strategy :=
  { buyHourly with blocks := intervals.map fun x =>
      { watcher .schedule [("interval", x.2)] with id := x.1 } }

/-- Some hours of a synthetic market. -/
def someHours (n : Nat) : SimulationConfig :=
  { syntheticHours with endDate := syntheticHours.startDate.plusHours n }

/-- Every hour and a half and every three hours: over hourly ticks that is every second and every third
one, five of the first seven. -/
theorem second_and_third_hours_fire :
    ∃ o : Outcome Float,
      run Float ⟨.standard, .empty, none⟩ .idle 0
        (scheduling [("a", .int 5400), ("b", .num 10800)]) (someHours 7) = .ok o ∧
      o.equityCurve.length = 7 ∧ o.metrics.triggerFirings = 5 := by
  obtain ⟨o, hrun, -⟩ : ∃ o, run Float ⟨.standard, .empty, none⟩ .idle 0
      (scheduling [("a", .int 5400), ("b", .num 10800)]) (someHours 7) = .ok o ∧
      o.status = .completed :=
    Except.exists_of_map (by decide +kernel)
  have hscheduled : Scheduled (planOf ⟨.standard, .empty, none⟩
      (scheduling [("a", .int 5400), ("b", .num 10800)])).triggers :=
    ⟨by decide +kernel, by decide +kernel⟩
  obtain ⟨seeded, ticks, g, days, last, -, hmarket, -, -, hleaves, hcurve, -, hsynthetic⟩ :=
    schedules_keep_their_clocks ⟨.standard, .empty, none⟩ .idle 0 _ (someHours 7) o hscheduled
      (by decide +kernel) hrun
  obtain ⟨hticks, -, hfirings⟩ := hsynthetic hmarket (by decide) (by decide)
  have hdays : days.length = 7 := by
    rw [hleaves.all_of_open (fun _ => ⟨rfl, show ¬ (300 : Float) < 0 by decide⟩), hticks]
    decide
  rw [hdays] at hfirings
  refine ⟨o, hrun, ?_, ?_⟩
  · rw [hcurve, List.length_map, hdays]
  · rw [hfirings]
    decide +kernel

/-- NaN is no interval of a day: the schedule fires at the first tick of a day and an hour, and not at
the last one. -/
theorem notANumber_fires_once :
    ∃ o : Outcome Float,
      run Float ⟨.standard, .empty, none⟩ .idle 0 (scheduling [("a", .num Json.notANumber)])
        (someHours 25) = .ok o ∧
      o.equityCurve.length = 25 ∧ o.metrics.triggerFirings = 1 ∧
      ((List.range 25).countP fun i => 24 ∣ i) = 2 := by
  obtain ⟨o, hrun, hfigures⟩ : ∃ o, run Float ⟨.standard, .empty, none⟩ .idle 0
      (scheduling [("a", .num Json.notANumber)]) (someHours 25) = .ok o ∧
      (o.equityCurve.length, o.metrics.triggerFirings) = (25, 1) :=
    Except.exists_of_map (by decide +kernel)
  obtain ⟨hlength, hfirings⟩ := Prod.mk.inj hfigures
  exact ⟨o, hrun, hlength, hfirings, by decide⟩

end Backtest

end Tradeflow
