/-
  When schedules fire, over the ticks of any run. The clocks of all schedules stand in one map, by block
  id, and each trigger is asked in its turn (`Trigger.Rings`), also after one that fired. Where ids are
  distinct, each schedule finds the clock that it set itself (`anyFires_scheduled`).

  `Course.keepsClock`: so a schedule fires at the first tick, and after that when its interval has gone by
  since it last did. `Course.fired_iff`: with schedules only, a tick is one at which a trigger fired iff
  one of them did.
-/
import Mathlib.Data.Nat.Init
import Tradeflow.Proofs.Backtest.Stopping

namespace Tradeflow

/-! ## One tick -/

namespace Trigger

variable {R : Type} [Scalar R]

/-- The seconds between firings of a schedule, as its settings give them. -/
def Every (b : Block) (interval : R) : Prop :=
  Setting.numberOr usualInterval (b.setting? "interval") = .ok interval

/-- Schedules only, each under an id of its own. -/
structure Scheduled (triggers : List (Block × TriggerKind)) : Prop where
  kind : ∀ x ∈ triggers, x.2 = .schedule
  ids : (triggers.map (·.1.id)).Nodup

/-- A schedule is asked in its turn and fires. -/
def Rings (v : View R) (clocks : Clocks) (triggers : List (Block × TriggerKind)) (b : Block) : Prop :=
  ∃ earlier later fired clocks₁ clocks₂, triggers = earlier ++ (b, .schedule) :: later ∧
    anyFires v clocks earlier = .ok (fired, clocks₁) ∧
    fires v clocks₁ b .schedule = .ok (true, clocks₂)

variable {v : View R} {clocks clocks' : Clocks} {triggers earlier later : List (Block × TriggerKind)}
  {b : Block} {fired answer : Bool}

theorem fires_schedule (h : fires v clocks b .schedule = .ok (answer, clocks')) :
    ∃ interval : R, Every b interval ∧
      answer = due interval (Assoc.get? clocks b.id) v.tick.timestamp ∧
      clocks' = if answer then Assoc.set clocks b.id v.tick.timestamp else clocks := by
  unfold fires at h
  dsimp only at h
  split at h
  · cases h
  case h_2 interval hinterval =>
    refine ⟨interval, hinterval, ?_⟩
    split at h
    case isTrue hdue =>
      cases h
      exact ⟨hdue.symm, rfl⟩
    case isFalse hdue =>
      cases h
      exact ⟨(Bool.eq_false_iff.2 hdue).symm, rfl⟩

/-- The clock of another block is left alone. -/
theorem get?_fires {kind : TriggerKind} {id : String} (hne : b.id ≠ id)
    (h : fires v clocks b kind = .ok (answer, clocks')) :
    Assoc.get? clocks' id = Assoc.get? clocks id := by
  by_cases hkind : kind = .schedule
  · subst hkind
    obtain ⟨interval, -, -, rfl⟩ := fires_schedule h
    split
    · rw [Assoc.get?_set, if_neg hne]
    · rfl
  · rw [fires_of_ne_schedule hkind] at h
    cases hanswer : holds v b kind with
    | error f =>
      rw [hanswer] at h
      cases h
    | ok answer =>
      rw [hanswer] at h
      cases h
      rfl

theorem get?_anyFires {id : String} (hother : ∀ x ∈ triggers, x.1.id ≠ id)
    (h : anyFires v clocks triggers = .ok (fired, clocks')) :
    Assoc.get? clocks' id = Assoc.get? clocks id := by
  induction triggers generalizing clocks fired with
  | nil =>
    cases h
    rfl
  | cons x triggers ih =>
    obtain ⟨hfirst, hrest⟩ := List.forall_mem_cons.1 hother
    obtain ⟨first, clocks₁, more, hfires, hmore, -⟩ := anyFires_cons.1 h
    rw [ih hrest hmore, get?_fires hfirst hfires]

/-- Triggers before others are asked before them. -/
theorem anyFires_append (h : anyFires v clocks (earlier ++ later) = .ok (fired, clocks')) :
    ∃ first clocks₁ more, anyFires v clocks earlier = .ok (first, clocks₁) ∧
      anyFires v clocks₁ later = .ok (more, clocks') ∧ fired = (first || more) := by
  induction earlier generalizing clocks fired with
  | nil => exact ⟨false, clocks, fired, rfl, h, (Bool.false_or fired).symm⟩
  | cons x earlier ih =>
    obtain ⟨answer, clocks₁, rest, hfires, hrest, rfl⟩ := anyFires_cons.1 h
    obtain ⟨first, clocks₂, more, hfirst, hmore, rfl⟩ := ih hrest
    exact ⟨answer || first, clocks₂, more, anyFires_cons.2 ⟨_, _, _, hfires, hfirst, rfl⟩, hmore,
      (Bool.or_assoc ..).symm⟩

/-- If one of some schedules fires, it is asked in its turn. -/
theorem exists_rings (hkind : ∀ x ∈ triggers, x.2 = .schedule)
    (h : anyFires v clocks triggers = .ok (true, clocks')) :
    ∃ b, (b, .schedule) ∈ triggers ∧ Rings v clocks triggers b := by
  induction triggers generalizing clocks with
  | nil => cases h
  | cons x triggers ih =>
    obtain ⟨b, kind⟩ := x
    obtain ⟨rfl, hrest⟩ := List.forall_mem_cons.1 hkind
    obtain ⟨answer, clocks₁, more, hfires, hmore, hany⟩ := anyFires_cons.1 h
    rcases Bool.or_eq_true_iff.1 hany.symm with rfl | rfl
    · exact ⟨b, List.mem_cons_self, [], triggers, false, clocks, clocks₁, rfl, rfl, hfires⟩
    · obtain ⟨b', hmem, earlier, later, fired, clocks₃, clocks₄, rfl, hearlier, hrings⟩ :=
        ih hrest hmore
      exact ⟨b', List.mem_cons_of_mem _ hmem, (b, .schedule) :: earlier, later, answer || fired,
        clocks₃, clocks₄, rfl, anyFires_cons.2 ⟨_, _, _, hfires, hearlier, rfl⟩, hrings⟩

/-- In its turn, a schedule finds the clock that it had before the tick. -/
theorem get?_turn {clocks₁ : Clocks} (hids : (triggers.map (·.1.id)).Nodup)
    (htriggers : triggers = earlier ++ (b, .schedule) :: later)
    (h : anyFires v clocks earlier = .ok (fired, clocks₁)) :
    Assoc.get? clocks₁ b.id = Assoc.get? clocks b.id := by
  refine get?_anyFires (fun x hx heq => ?_) h
  rw [htriggers, List.map_append, List.nodup_append] at hids
  exact hids.2.2 _ (List.mem_map_of_mem hx) _ (List.mem_map_of_mem List.mem_cons_self) heq

/-- What a tick does with a schedule: it fires when it is due by its own clock, and then sets it. -/
theorem anyFires_scheduled (hs : Scheduled triggers)
    (h : anyFires v clocks triggers = .ok (fired, clocks')) (hmem : (b, .schedule) ∈ triggers) :
    ∃ interval : R, Every b interval ∧
      (Rings v clocks triggers b ↔
        due interval (Assoc.get? clocks b.id) v.tick.timestamp = true) ∧
      (Rings v clocks triggers b → fired = true) ∧
      Assoc.get? clocks' b.id =
        if due interval (Assoc.get? clocks b.id) v.tick.timestamp then some v.tick.timestamp
        else Assoc.get? clocks b.id := by
  obtain ⟨earlier, later, htriggers⟩ := List.append_of_mem hmem
  have hall := h
  rw [htriggers] at hall
  obtain ⟨first, clocks₁, more, hearlier, hlater, hfired⟩ := anyFires_append hall
  obtain ⟨answer, clocks₂, rest, hfires, hrest, rfl⟩ := anyFires_cons.1 hlater
  have hown := get?_turn hs.ids htriggers hearlier
  obtain ⟨interval, hevery, hanswer, hclocks⟩ := fires_schedule hfires
  rw [hown] at hanswer
  have hrings : Rings v clocks triggers b ↔ answer = true := by
    constructor
    · rintro ⟨earlier', later', fired', clocks₁', clocks₂', htriggers', hearlier', hfires'⟩
      obtain ⟨interval', hevery', hdue, -⟩ := fires_schedule hfires'
      obtain rfl := Except.ok.inj (hevery.symm.trans hevery')
      rw [hanswer, ← get?_turn hs.ids htriggers' hearlier', ← hdue]
    · rintro rfl
      exact ⟨earlier, later, first, clocks₁, clocks₂, htriggers, hearlier, hfires⟩
  refine ⟨interval, hevery, hanswer ▸ hrings, fun hring => ?_, ?_⟩
  · rw [hfired, hrings.1 hring, Bool.true_or, Bool.or_true]
  · have hleft : Assoc.get? clocks' b.id = Assoc.get? clocks₂ b.id := by
      refine get?_anyFires (fun x hx heq => ?_) hrest
      have hids := hs.ids
      rw [htriggers, List.map_append, List.nodup_append, List.map_cons, List.nodup_cons] at hids
      exact hids.2.1.1 (heq ▸ List.mem_map_of_mem hx)
    rw [hleft, hclocks, ← hanswer]
    split
    · rw [Assoc.get?_set, if_pos rfl]
    · exact hown

end Trigger

/-! ## Ticks one after the other -/

namespace Backtest

open Trigger

section Course

variable {R : Type} [Scalar R] {config : EngineConfig} {plan : Plan} {start s s' last : State R}
  {days : List (Moment R)} {b : Block} {i l : Nat}

/-- Moments settle the state that they lead to. -/
theorem Course.state_unique (h : Course config plan start days s)
    (h' : Course config plan start days s') : s = s' := by
  induction h with
  | nil =>
    cases h'
    rfl
  | cons first _ _ ih =>
    cases h' with
    | cons first' _ rest' =>
      obtain ⟨rfl, -⟩ := Prod.mk.inj (Except.ok.inj (first.symm.trans first'))
      exact ih rest'

/-- A moment of a course, between the states before and after it. -/
theorem Course.moment (h : Course config plan start days last) (hi : i < days.length) :
    ∃ s s', Course config plan start (days.take i) s ∧
      Ticked config plan s days[i].tick days[i].fired s' days[i].step ∧
      Course config plan start (days.take (i + 1)) s' := by
  induction h generalizing i with
  | nil => exact absurd hi (Nat.not_lt_zero i)
  | @cons start s₁ last d days first ticked rest ih =>
    cases i with
    | zero => exact ⟨start, s₁, .nil start, ticked, .cons first ticked (.nil s₁)⟩
    | succ i =>
      obtain ⟨s, s', hbefore, hticked, hafter⟩ := ih (Nat.lt_of_succ_lt_succ hi)
      exact ⟨s, s', .cons first ticked hbefore, hticked, .cons first ticked hafter⟩

/-- A schedule fires at a moment that a run comes to. -/
def RingsAt (config : EngineConfig) (plan : Plan) (start : State R) (days : List (Moment R)) (i : Nat)
    (b : Block) : Prop :=
  ∃ s d, Course config plan start (days.take i) s ∧ days[i]? = some d ∧
    Rings ⟨config.defaultPrices, d.tick, s.previous, s.action.ledger⟩ s.clocks plan.triggers b

/-- One moment: a schedule fires when it is due, which makes it a moment at which a trigger fired, and
then its clock is set. -/
theorem Course.ring_step (h : Course config plan start days last) (hs : Scheduled plan.triggers)
    (hmem : (b, .schedule) ∈ plan.triggers) (hi : i < days.length) :
    ∃ s s', ∃ interval : R, Every b interval ∧ Course config plan start (days.take i) s ∧
      Course config plan start (days.take (i + 1)) s' ∧
      (RingsAt config plan start days i b ↔
        due interval (Assoc.get? s.clocks b.id) days[i].tick.timestamp = true) ∧
      (RingsAt config plan start days i b → days[i].fired = true) ∧
      Assoc.get? s'.clocks b.id =
        if due interval (Assoc.get? s.clocks b.id) days[i].tick.timestamp then
          some days[i].tick.timestamp
        else Assoc.get? s.clocks b.id := by
  obtain ⟨s, s', hbefore, hticked, hafter⟩ := h.moment hi
  obtain ⟨interval, hevery, hdue, hfired, hclock⟩ := anyFires_scheduled hs hticked.triggers hmem
  have hrings : RingsAt config plan start days i b ↔
      Rings ⟨config.defaultPrices, days[i].tick, s.previous, s.action.ledger⟩ s.clocks plan.triggers
        b := by
    constructor
    · rintro ⟨s₁, d, hcourse, hd, hring⟩
      obtain rfl := hcourse.state_unique hbefore
      obtain rfl := Option.some.inj ((List.getElem?_eq_getElem hi).symm.trans hd)
      exact hring
    · exact fun hring => ⟨s, days[i], hbefore, List.getElem?_eq_getElem hi, hring⟩
  exact ⟨s, s', interval, hevery, hbefore, hafter, hrings.trans hdue,
    fun hring => hfired (hrings.1 hring), hclock⟩

/-- A moment at which a trigger fired is one at which a schedule did, if there are only schedules. -/
theorem Course.fired_iff (h : Course config plan start days last) (hs : Scheduled plan.triggers)
    (hi : i < days.length) :
    days[i].fired = true ↔
      ∃ x ∈ plan.triggers, RingsAt config plan start days i x.1 := by
  constructor
  · intro hfired
    obtain ⟨s, s', hbefore, hticked, -⟩ := h.moment hi
    have hany := hticked.triggers
    rw [hfired] at hany
    obtain ⟨b, hmem, hrings⟩ := exists_rings hs.kind hany
    exact ⟨_, hmem, s, days[i], hbefore, List.getElem?_eq_getElem hi, hrings⟩
  · rintro ⟨⟨b, kind⟩, hmem, hrings⟩
    obtain rfl := hs.kind _ hmem
    obtain ⟨-, -, -, -, -, -, -, hfired, -⟩ := h.ring_step hs hmem hi
    exact hfired hrings

/-- The clock of a schedule stands at the moment at which it last fired. -/
theorem Course.clock_eq (h : Course config plan start days last) (hs : Scheduled plan.triggers)
    (hmem : (b, .schedule) ∈ plan.triggers) (hl : l < days.length)
    (hring : RingsAt config plan start days l b) (hi : l < i) (hmost : i ≤ days.length)
    (hquiet : ∀ m, l < m → m < i → ¬ RingsAt config plan start days m b)
    (hcourse : Course config plan start (days.take i) s) :
    Assoc.get? s.clocks b.id = some days[l].tick.timestamp := by
  induction i, Nat.succ_le_of_lt hi using Nat.le_induction generalizing s with
  | base =>
    obtain ⟨_, s', _, -, -, hafter, hdue, -, hclock⟩ := h.ring_step hs hmem hl
    rw [hcourse.state_unique hafter, hclock, if_pos (hdue.1 hring)]
  | succ i hle ih =>
    obtain ⟨s₁, s', _, -, hbefore, hafter, hdue, -, hclock⟩ := h.ring_step hs hmem (i := i) (by omega)
    have hnot := mt hdue.2 (hquiet i hle (Nat.lt_succ_self i))
    rw [hcourse.state_unique hafter, hclock, if_neg hnot]
    exact ih hle (by omega) (fun m hm hmi => hquiet m hm (by omega)) hbefore

/-- A schedule over moments: it fires at the first one, and at a later one iff the time since it last
fired is at least its interval. -/
structure KeepsClock (config : EngineConfig) (plan : Plan) (start : State R) (days : List (Moment R))
    (b : Block) (interval : R) : Prop where
  every : Every b interval
  first : RingsAt config plan start days 0 b
  again : ∀ (l i : Nat) (hl : l < i) (hi : i < days.length), RingsAt config plan start days l b →
    (∀ m, l < m → m < i → ¬ RingsAt config plan start days m b) →
    (RingsAt config plan start days i b ↔
      Scalar.atMost interval (Performance.seconds
        (days[i].tick.timestamp.micros - days[l].tick.timestamp.micros)) = true)

theorem Course.keepsClock (h : Course config plan start days last) (hs : Scheduled plan.triggers)
    (hclocks : start.clocks = []) (hmem : (b, .schedule) ∈ plan.triggers) (hne : days ≠ []) :
    ∃ interval, KeepsClock config plan start days b interval := by
  have hpos : 0 < days.length := List.length_pos_iff.2 hne
  obtain ⟨s, -, interval, hevery, hbefore, -, hdue, -, -⟩ := h.ring_step hs hmem hpos
  refine ⟨interval, hevery, hdue.2 ?_, ?_⟩
  · obtain rfl := hbefore.state_unique (.nil start)
    rw [hclocks]
    rfl
  · intro l i hl hi hring hquiet
    obtain ⟨s, -, interval', hevery', hbefore, -, hdue, -, -⟩ := h.ring_step hs hmem hi
    obtain rfl := Except.ok.inj (hevery.symm.trans hevery')
    rw [hdue, h.clock_eq hs hmem (Nat.lt_trans hl hi) hring hl (Nat.le_of_lt hi) hquiet hbefore]
    rfl

end Course

end Backtest

end Tradeflow
