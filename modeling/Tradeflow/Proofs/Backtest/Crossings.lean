/-
  Crossings of a threshold, in doubles. A cross trigger multiplies the distances of two prices in turn
  from its threshold, and fires if the product is negative: if they lie strictly on different sides and
  the product is not rounded to zero (`firesAt_cross_iff`), which takes a distance below `2 ^ (-537)`.
  A price that gets from one side to the other goes through the threshold in one step, or comes to lie
  on it in between (`exists_crossing`).
  `crossing_fires_or_touches`: so a crossing is seen, unless a price on the way is the threshold itself,
  the product is rounded to zero, or the price before was not the token's own.
-/
import Tradeflow.Proofs.Backtest.PriceTriggers
import Tradeflow.Proofs.Number.Order

namespace Tradeflow

/-! ## Sides of a level -/

/-- On the way from below a level to above it, one step goes through it or one before the last ends at
it. -/
theorem exists_crossing {α : Type} [LinearOrder α] {f : Nat → α} {level : α} {i j : Nat}
    (hij : i < j) (hi : f i < level) (hj : level < f j) :
    ∃ k, i ≤ k ∧ k < j ∧
      (f k < level ∧ level < f (k + 1) ∨ k + 1 < j ∧ f (k + 1) = level) := by
  induction j, hij using Nat.le_induction with
  | base => exact ⟨i, Nat.le_refl i, Nat.lt_succ_self i, .inl ⟨hi, hj⟩⟩
  | succ j hij ih =>
    rcases lt_trichotomy (f j) level with hlt | heq | hgt
    · exact ⟨j, by omega, Nat.lt_succ_self j, .inl ⟨hlt, hj⟩⟩
    · obtain ⟨k, rfl⟩ := Nat.exists_eq_add_of_lt (Nat.lt_of_lt_of_le (Nat.succ_pos i) hij)
      exact ⟨0 + k, by omega, by omega, .inr ⟨by omega, heq⟩⟩
    · obtain ⟨k, hik, hkj, hstep⟩ := ih hgt
      exact ⟨k, hik, by omega, hstep.imp_right fun ⟨hlast, heq⟩ => ⟨by omega, heq⟩⟩

namespace Double

/-- Two doubles lie on different sides of a level. -/
def Opposite (level x y : Float) : Prop :=
  Scalar.less x level = true ∧ Scalar.less level y = true ∨
    Scalar.less level x = true ∧ Scalar.less y level = true

/-- The product of the distances of two doubles from a level is rounded to zero. -/
def Lost (level x y : Float) : Prop := Scalar.isZero ((x - level) * (y - level)) = true

variable {level x y : Float}

theorem negative_distances_iff (hx : isFinite x = true) (hlevel : isFinite level = true)
    (hy : isFinite y = true) :
    Scalar.negative ((x - level) * (y - level)) = true ↔
      Opposite level x y ∧ ¬ Lost level x y := by
  rw [negative_mul_iff, negative_sub_iff hx hlevel, negative_sub_iff hy hlevel,
    positive_sub_iff hx hlevel, positive_sub_iff hy hlevel, ← Bool.not_eq_true]
  rfl

/-- For the product of distances to different sides to be lost, one must be next to nothing. -/
theorem Opposite.small (h : Opposite level x y) (hx : isFinite x = true)
    (hlevel : isFinite level = true) (hy : isFinite y = true) (hzero : Lost level x y) :
    |exact (x - level)| < 2 ^ (-537 : Int) ∨ |exact (y - level)| < 2 ^ (-537 : Int) := by
  rcases h with ⟨hless, hmore⟩ | ⟨hmore, hless⟩
  · exact small_of_isZero_mul ((negative_iff _).1 ((negative_sub_iff hx hlevel).2 hless))
      ((positive_iff _).1 ((positive_sub_iff hy hlevel).2 hmore)) hzero
  · exact small_of_isZero_mul ((positive_iff _).1 ((positive_sub_iff hx hlevel).2 hmore))
      ((negative_iff _).1 ((negative_sub_iff hy hlevel).2 hless)) hzero

/-- A level between finite doubles is finite. -/
theorem Opposite.isFinite (h : Opposite level x y) (hx : isFinite x = true)
    (hy : isFinite y = true) : isFinite level = true := by
  rcases h with ⟨hless, hmore⟩ | ⟨hmore, hless⟩
  · exact isFinite_between hx hy hless hmore
  · exact isFinite_between hy hx hless hmore

/-- Doubles that get from one side of a level to the other go through it in one step, or one of them
on the way is the level. -/
theorem exists_opposite {p : Nat → Float} {i j : Nat} (hij : i < j)
    (hp : ∀ k ≤ j, isFinite (p k) = true) (h : Opposite level (p i) (p j)) :
    ∃ k, i ≤ k ∧ k < j ∧ (Opposite level (p k) (p (k + 1)) ∨
      k + 1 < j ∧ Scalar.equal (p (k + 1)) level = true) := by
  have hlevel : isFinite level = true := h.isFinite (hp i hij.le) (hp j le_rfl)
  have hless : ∀ k ≤ j, (Scalar.less (p k) level = true ↔ exact (p k) < exact level) :=
    fun k hk => less_iff_exact (hp k hk) hlevel
  have hmore : ∀ k ≤ j, (Scalar.less level (p k) = true ↔ exact level < exact (p k)) :=
    fun k hk => less_iff_exact hlevel (hp k hk)
  rcases h with ⟨hi, hj⟩ | ⟨hi, hj⟩
  · obtain ⟨k, hik, hkj, hstep⟩ := exists_crossing (f := fun k => exact (p k)) hij
      ((hless i hij.le).1 hi) ((hmore j le_rfl).1 hj)
    refine ⟨k, hik, hkj, hstep.imp (fun ⟨hk, hk'⟩ => .inl ⟨?_, ?_⟩) fun ⟨hlast, heq⟩ => ⟨hlast, ?_⟩⟩
    · exact (hless k hkj.le).2 hk
    · exact (hmore (k + 1) hkj).2 hk'
    · exact (equal_iff_exact (hp (k + 1) hkj) hlevel).2 heq
  · obtain ⟨k, hik, hkj, hstep⟩ := exists_crossing (α := Ratᵒᵈ) (f := fun k => exact (p k)) hij
      ((hmore i hij.le).1 hi) ((hless j le_rfl).1 hj)
    refine ⟨k, hik, hkj, hstep.imp (fun ⟨hk, hk'⟩ => .inr ⟨?_, ?_⟩) fun ⟨hlast, heq⟩ => ⟨hlast, ?_⟩⟩
    · exact (hmore k hkj.le).2 hk
    · exact (hless (k + 1) hkj).2 hk'
    · exact (equal_iff_exact (hp (k + 1) hkj) hlevel).2 heq

end Double

/-! ## Cross triggers -/

namespace Backtest

variable {config : EngineConfig} {plan : Plan} {start s : State Float} {t t₀ : PriceTick Float}
  {ticks : List (PriceTick Float)} {steps : List (Step Float)} {i : Nat} {b : Block} {level : Float}

/-- A cross trigger fires where the price of a tick and that of the tick before lie on different sides
and the product of their distances is not lost. -/
theorem firesAt_cross_iff (htrace : Trace config plan start (ticks.take (i + 1)) steps s)
    (hbefore : ticks[i]? = some t₀) (hnow : ticks[i + 1]? = some t)
    (hcompares : Trigger.Compares b .priceThreshold level) (hown : OwnPrice b t₀)
    (hprevious : Double.isFinite (watchedPrice config b t₀) = true)
    (hprice : Double.isFinite (watchedPrice config b t) = true)
    (hlevel : Double.isFinite level = true) :
    FiresAt config plan start ticks (i + 1) b .priceThreshold ↔
      Double.Opposite level (watchedPrice config b t₀) (watchedPrice config b t) ∧
      ¬ Double.Lost level (watchedPrice config b t₀) (watchedPrice config b t) := by
  rw [firesAt_iff_judge htrace hbefore hnow hcompares, hown.get?_eq config]
  cases hcompares with
  | crossing hdirection _ =>
    rw [← Double.negative_distances_iff hprevious hlevel hprice]
    show Trigger.thresholdHolds _ level _ (some _) = true ↔ _
    rw [Trigger.thresholdHolds_cross hdirection]

/-- Two ticks in turn whose prices lie on different sides of the level, and yet a cross trigger may not
fire: the first has no price of its own that can be used, or the product of the distances is lost,
for which one of them is next to nothing. -/
structure Unseen (config : EngineConfig) (b : Block) (level : Float) (t₀ t : PriceTick Float) :
    Prop where
  opposite : Double.Opposite level (watchedPrice config b t₀) (watchedPrice config b t)
  cause : ¬ OwnPrice b t₀ ∨
    Double.Lost level (watchedPrice config b t₀) (watchedPrice config b t) ∧
    (|Double.exact (watchedPrice config b t₀ - level)| < 2 ^ (-537 : Int) ∨
      |Double.exact (watchedPrice config b t - level)| < 2 ^ (-537 : Int))

/-- A cross trigger, at the ticks that a run comes to while the price that it watches is finite. Where
the tick before has a price of its own that can be used, it fires if the two prices lie on different
sides of its threshold and the product of their distances is not lost. When the price gets from
one side to the other, it fires on the way, unless a price in between is the threshold itself or the
step through it is unseen. -/
theorem crossing_fires_or_touches (config : EngineConfig) (plan : Plan) (start s : State Float)
    (ticks : List (PriceTick Float)) (n : Nat) (steps : List (Step Float)) (b : Block)
    (level : Float) (htrace : Trace config plan start (ticks.take n) steps s)
    (hcompares : Trigger.Compares b .priceThreshold level)
    (hfinite : ∀ t ∈ ticks, Double.isFinite (watchedPrice config b t) = true) :
    (∀ k t₀ t, k < n → ticks[k]? = some t₀ → ticks[k + 1]? = some t → OwnPrice b t₀ →
      Double.isFinite level = true →
      (FiresAt config plan start ticks (k + 1) b .priceThreshold ↔
        Double.Opposite level (watchedPrice config b t₀) (watchedPrice config b t) ∧
        ¬ Double.Lost level (watchedPrice config b t₀) (watchedPrice config b t))) ∧
    ∀ i j tᵢ tⱼ, i < j → j ≤ n → ticks[i]? = some tᵢ → ticks[j]? = some tⱼ →
      Double.Opposite level (watchedPrice config b tᵢ) (watchedPrice config b tⱼ) →
      ∃ k t₀ t, i ≤ k ∧ k < j ∧ ticks[k]? = some t₀ ∧ ticks[k + 1]? = some t ∧
        (FiresAt config plan start ticks (k + 1) b .priceThreshold ∨
          k + 1 < j ∧ Scalar.equal (watchedPrice config b t) level = true ∨
          Unseen config b level t₀ t) := by
  have hiff : ∀ k t₀ t, k < n → ticks[k]? = some t₀ → ticks[k + 1]? = some t → OwnPrice b t₀ →
      Double.isFinite level = true →
      (FiresAt config plan start ticks (k + 1) b .priceThreshold ↔
        Double.Opposite level (watchedPrice config b t₀) (watchedPrice config b t) ∧
        ¬ Double.Lost level (watchedPrice config b t₀) (watchedPrice config b t)) := by
    intro k t₀ t hk hbefore hnow hown hlevel
    obtain ⟨s₁, hfirst⟩ := htrace.take (k + 1)
    rw [List.take_take, Nat.min_eq_left hk] at hfirst
    exact firesAt_cross_iff hfirst hbefore hnow hcompares hown
      (hfinite t₀ (List.mem_of_getElem? hbefore)) (hfinite t (List.mem_of_getElem? hnow)) hlevel
  refine ⟨hiff, fun i j tᵢ tⱼ hij hjn hi hj hsides => ?_⟩
  have hlevel : Double.isFinite level = true := hsides.isFinite
    (hfinite tᵢ (List.mem_of_getElem? hi)) (hfinite tⱼ (List.mem_of_getElem? hj))
  have hlength : j < ticks.length := (List.getElem?_eq_some_iff.1 hj).1
  have hget : ∀ k ≤ j, ticks[k]? = some (ticks.getD k tⱼ) := by
    intro k hk
    rw [List.getD_eq_getElem?_getD, List.getElem?_eq_getElem (hk.trans_lt hlength)]
    rfl
  have hfirst : ticks.getD i tⱼ = tᵢ := Option.some.inj ((hget i hij.le).symm.trans hi)
  have hlast : ticks.getD j tⱼ = tⱼ := Option.some.inj ((hget j le_rfl).symm.trans hj)
  have hends : Double.Opposite level (watchedPrice config b (ticks.getD i tⱼ))
      (watchedPrice config b (ticks.getD j tⱼ)) := by
    rwa [hfirst, hlast]
  have hprice : ∀ k ≤ j, Double.isFinite (watchedPrice config b (ticks.getD k tⱼ)) = true :=
    fun k hk => hfinite _ (List.mem_of_getElem? (hget k hk))
  obtain ⟨k, hik, hkj, hstep⟩ := Double.exists_opposite
    (p := fun k => watchedPrice config b (ticks.getD k tⱼ)) hij hprice hends
  refine ⟨k, _, _, hik, hkj, hget k hkj.le, hget (k + 1) hkj, ?_⟩
  rcases hstep with hopposite | htouch
  · by_cases hown : OwnPrice b (ticks.getD k tⱼ)
    · by_cases hlost : Double.Lost level (watchedPrice config b (ticks.getD k tⱼ))
          (watchedPrice config b (ticks.getD (k + 1) tⱼ))
      · exact .inr (.inr ⟨hopposite, .inr ⟨hlost,
          hopposite.small (hprice k hkj.le) hlevel (hprice (k + 1) hkj) hlost⟩⟩)
      · exact .inl ((hiff k _ _ (hkj.trans_le hjn) (hget k hkj.le) (hget (k + 1) hkj) hown
          hlevel).2 ⟨hopposite, hlost⟩)
    · exact .inr (.inr ⟨hopposite, .inl hown⟩)
  · exact .inr (.inl htouch)

/-- Watches a price for a crossing. -/
def crossWatcher (level : Float) : Block :=
  watcher .priceThreshold [("threshold", .num level), ("direction", .str "cross")]

theorem compares_crossWatcher (level : Float) :
    Trigger.Compares (crossWatcher level) .priceThreshold level := .crossing rfl rfl

/-- A price that goes from two to three crosses two and a half, and the trigger fires. -/
theorem crossing_seen :
    ∃ o : Outcome Float,
      run Float ⟨.standard, .empty, some (threeBars 2 3 3)⟩ .idle 0 (watching (crossWatcher 2.5))
        twoHours = .ok o ∧
      o.metrics.triggerFirings = 1 ∧
      FiresAt .standard ((watching (crossWatcher 2.5)).plan .empty "USDT")
        (State.start 1000 (.ofSeed ⟨7, []⟩)) (threeTicks 2 3 3) 1 (crossWatcher 2.5)
        .priceThreshold := by
  obtain ⟨o, hrun, hfirings⟩ : ∃ o, run Float ⟨.standard, .empty, some (threeBars 2 3 3)⟩ .idle 0
      (watching (crossWatcher 2.5)) twoHours = .ok o ∧ o.metrics.triggerFirings = 1 :=
    Except.exists_of_map (by decide +kernel)
  obtain ⟨steps, s, htrace⟩ := trace_threeBars rfl hrun 1
  obtain ⟨-, hway⟩ := crossing_fires_or_touches .standard _ _ s (threeTicks 2 3 3) 1 steps
    (crossWatcher 2.5) 2.5 htrace (compares_crossWatcher 2.5) (by decide +kernel)
  obtain ⟨k, t₀, t, -, hk, hbefore, hnow, hfires | ⟨hlast, -⟩ | hunseen⟩ :=
    hway 0 1 (hourTick 0 2) (hourTick 1 3) Nat.one_pos le_rfl rfl rfl
      (.inl (by decide +kernel))
  · cases Nat.lt_one_iff.1 hk
    exact ⟨o, hrun, hfirings, hfires⟩
  · exact absurd hlast (by omega)
  · cases Nat.lt_one_iff.1 hk
    cases hbefore
    cases hnow
    rcases hunseen.cause with hown | ⟨hlost, -⟩
    · exact absurd (show usable? _ ≠ none by decide +kernel) hown
    · exact absurd hlost (show ¬ Scalar.isZero _ = true by decide +kernel)

/-- Three prices of which the last is on the other side of a level than the first, and a run over
them in which a cross trigger never fires. -/
def Missed (level first second third : Float) : Prop :=
  Double.Opposite level first third ∧
  (∀ k, ¬ FiresAt .standard ((watching (crossWatcher level)).plan .empty "USDT")
    (State.start 1000 (.ofSeed ⟨7, []⟩)) (threeTicks first second third) (k + 1)
    (crossWatcher level) .priceThreshold) ∧
  ∃ o : Outcome Float,
    run Float ⟨.standard, .empty, some (threeBars first second third)⟩ .idle 0
      (watching (crossWatcher level)) twoHours = .ok o ∧
    o.metrics.triggerFirings = 0

/-- What the trigger has to say to each pair of prices in turn, for the crossing to be missed. -/
theorem missed_of {level first second third : Float}
    (hsides : Double.Opposite level first third)
    (hfirst : Trigger.judge (crossWatcher level) .priceThreshold level
      (watchedPrice .standard (crossWatcher level) (hourTick 1 second)) (some first) = false)
    (hsecond : Trigger.judge (crossWatcher level) .priceThreshold level
      (watchedPrice .standard (crossWatcher level) (hourTick 2 third)) (some second) = false)
    (hrun : ((run Float ⟨.standard, .empty, some (threeBars first second third)⟩ .idle 0
      (watching (crossWatcher level)) twoHours).map (·.metrics.triggerFirings)).toOption = some 0) :
    Missed level first second third := by
  obtain ⟨o, ho, hfirings⟩ := Except.exists_of_map hrun
  have hcompares := compares_crossWatcher level
  refine ⟨hsides, fun k hfires => ?_, o, ho, hfirings⟩
  obtain ⟨steps, s, htrace⟩ := trace_threeBars rfl ho (k + 1)
  match k with
  | 0 =>
    have hjudge := (firesAt_iff_judge htrace rfl rfl hcompares).1 hfires
    cases hfirst.symm.trans hjudge
  | 1 =>
    have hjudge := (firesAt_iff_judge htrace rfl rfl hcompares).1 hfires
    cases hsecond.symm.trans hjudge
  | k + 2 =>
    obtain ⟨_, _, _, _, hnow, _⟩ := hfires
    cases hnow

/-- A crossing is missed when a price in between is the level itself, and when the prices are so close
to the level that the product of their distances is lost. -/
theorem touched_or_close_crossing_missed :
    Missed 5 4 5 6 ∧ Missed 2e-170 1e-170 3e-170 3e-170 :=
  ⟨missed_of (.inl (by decide +kernel)) (by decide +kernel) (by decide +kernel) (by decide +kernel),
    missed_of (.inl (by decide +kernel)) (by decide +kernel) (by decide +kernel)
      (by decide +kernel)⟩

end Backtest

end Tradeflow
