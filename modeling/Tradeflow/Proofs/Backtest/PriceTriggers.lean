/-
  What price triggers compare. A trigger on a crossing or on a change sets the price of its token
  beside that of the tick before (`Trigger.judge`). The price now is looked up as every price is: the
  token's own if it can be used, else that of what it is staked of, else the default. The price before
  is what the tick before had under the token's own name, as it was (`Trace.previous`).
  `fires_on_raw_previous`: so such a trigger compares like with like where the token had a price of its
  own that can be used, and where it had none at all it never fires.
-/
import Tradeflow.Proofs.Backtest.Stopping

namespace Tradeflow

variable {R : Type} [Scalar R]

/-- A setting is one word at most. -/
theorem Setting.isWord_unique {usual word other : String} {setting : Option Json}
    (h : isWord usual word setting = true) (hne : word ≠ other) :
    isWord usual other setting = false := by
  refine Bool.eq_false_iff.2 fun hother => hne ?_
  unfold isWord at h hother
  cases setting with
  | none => exact (beq_iff_eq.1 h).symm.trans (beq_iff_eq.1 hother)
  | some doc =>
    dsimp only at h hother
    split at h
    case isTrue htruthy =>
      rw [if_pos htruthy] at hother
      exact Option.some.inj ((beq_iff_eq.1 h).symm.trans (beq_iff_eq.1 hother))
    case isFalse hfalsy =>
      rw [if_neg hfalsy] at hother
      exact (beq_iff_eq.1 h).symm.trans (beq_iff_eq.1 hother)

/-! ## One trigger -/

namespace Trigger

/-- The token whose price a trigger watches. -/
def watched (b : Block) : String := Setting.textOr "TON" (b.setting? "token")

/-- A trigger that looks at two prices, and the number it judges them by: a threshold that they lie
on different sides of, or a change from one to the other in percent. -/
inductive Compares (b : Block) : TriggerKind → R → Prop
  | crossing {level : R}
      (direction : Setting.isWord "above" "cross" (b.setting? "direction") = true)
      (number : Setting.number (b.setting? "threshold") = .ok (some level)) :
      Compares b .priceThreshold level
  | change {level : R} (number : Setting.number (b.setting? "percentage") = .ok (some level)) :
      Compares b .priceChange level

/-- What such a trigger says of a price and the price before, if there is one. -/
def judge (b : Block) (kind : TriggerKind) (level price : R) (previous : Option R) : Bool :=
  match kind with
  | .priceThreshold => thresholdHolds (b.setting? "direction") level price previous
  | .priceChange => changeHolds (b.setting? "direction") level price previous
  | _ => false

variable {b : Block} {kind : TriggerKind} {level : R}

theorem Compares.holds_eq (h : Compares b kind level) (v : View R) :
    holds v b kind = .ok (judge b kind level (v.tick.priceOf v.defaults (watched b))
      (Assoc.get? v.previous (watched b))) := by
  unfold holds
  cases h with
  | crossing _ hnumber =>
    dsimp only
    rw [hnumber]
    rfl
  | change hnumber =>
    dsimp only
    rw [hnumber]
    rfl

/-- A crossing is a pair of prices on different sides. -/
theorem thresholdHolds_cross {direction : Option Json}
    (h : Setting.isWord "above" "cross" direction = true) (level price : R) (previous : Option R) :
    thresholdHolds direction level price previous =
      match previous with
      | some p => Scalar.negative ((p - level) * (price - level))
      | none => false := by
  have habove : ¬ Setting.isWord "above" "above" direction = true := by
    rw [Setting.isWord_unique h (by decide)]
    exact nofun
  have hbelow : ¬ Setting.isWord "above" "below" direction = true := by
    rw [Setting.isWord_unique h (by decide)]
    exact nofun
  refine (if_neg habove).trans ((if_neg hbelow).trans ((if_pos h).trans ?_))
  cases previous with
  | none => rfl
  | some p => rfl

theorem Compares.kind_ne (h : Compares b kind level) : kind ≠ .schedule := by
  cases h <;> exact nofun

/-- With no price before, it does not fire. -/
theorem Compares.judge_none (h : Compares b kind level) (price : R) :
    judge b kind level price none = false := by
  cases h with
  | crossing hdirection _ => exact thresholdHolds_cross hdirection level price none
  | change _ => rfl

/-- If a trigger that keeps no clock fires, the tick is one at which a trigger fires. -/
theorem anyFires_of_holds {v : View R} {clocks clocks' : Clocks}
    {triggers : List (Block × TriggerKind)} {fired : Bool}
    (h : anyFires v clocks triggers = .ok (fired, clocks')) (hmem : (b, kind) ∈ triggers)
    (hkind : kind ≠ .schedule) (hholds : holds v b kind = .ok true) : fired = true := by
  obtain ⟨answers, rfl, hanswers⟩ := anyFires_cases h
  obtain ⟨⟨n, hn⟩, hget⟩ := List.mem_iff_get.1 hmem
  have hlength : n < answers.length := hanswers.length_eq ▸ hn
  obtain ⟨before, after, hfires⟩ := hanswers.get hn hlength
  rw [hget] at hfires
  have htrue : fires v before b kind = .ok (true, before) := by
    rw [fires_of_ne_schedule hkind, hholds]
    rfl
  have hanswer : answers.get ⟨n, hlength⟩ = true :=
    (Prod.mk.inj (Except.ok.inj (hfires.symm.trans htrue))).1
  exact List.any_eq_true.2 ⟨_, List.get_mem answers ⟨n, hlength⟩, hanswer⟩

end Trigger

/-! ## Traces -/

namespace Backtest

variable {config : EngineConfig} {plan : Plan} {start s s' : State R} {t t₀ : PriceTick R}
  {ticks : List (PriceTick R)} {steps : List (Step R)} {i : Nat} {b : Block} {kind : TriggerKind}
  {level : R}

/-- The prices of the last tick are kept for the next one. -/
theorem Trace.previous (h : Trace config plan s ticks steps s') (hlast : ticks.getLast? = some t) :
    s'.previous = t.prices := by
  induction h with
  | nil => cases hlast
  | @cons s s₁ s' t₁ step ticks steps first rest ih =>
    cases ticks with
    | nil =>
      cases rest
      obtain ⟨fired, hticked⟩ := tick_cases first
      cases hlast
      exact hticked.previous
    | cons t₂ ticks => exact ih (by rwa [List.getLast?_cons_cons] at hlast)

/-- A trigger that keeps no clock fires at a tick that a run comes to. -/
def FiresAt (config : EngineConfig) (plan : Plan) (start : State R) (ticks : List (PriceTick R))
    (i : Nat) (b : Block) (kind : TriggerKind) : Prop :=
  ∃ steps s t, Trace config plan start (ticks.take i) steps s ∧ ticks[i]? = some t ∧
    Trigger.holds ⟨config.defaultPrices, t, s.previous, s.action.ledger⟩ b kind = .ok true

/-- What a run has come to settles whether a trigger fires at the next tick. -/
theorem firesAt_iff_holds (htrace : Trace config plan start (ticks.take i) steps s)
    (hnow : ticks[i]? = some t) :
    FiresAt config plan start ticks i b kind ↔
      Trigger.holds ⟨config.defaultPrices, t, s.previous, s.action.ledger⟩ b kind = .ok true := by
  constructor
  · rintro ⟨steps', s', t', htrace', hnow', hholds⟩
    obtain ⟨rfl, rfl⟩ := htrace.unique htrace'
    cases hnow.symm.trans hnow'
    exact hholds
  · exact fun hholds => ⟨steps, s, t, htrace, hnow, hholds⟩

/-- The price that a trigger watches. -/
def watchedPrice (config : EngineConfig) (b : Block) (t : PriceTick R) : R :=
  t.priceOf config.defaultPrices (Trigger.watched b)

/-- The token that a trigger watches has a price of its own that can be used. -/
def OwnPrice (b : Block) (t : PriceTick R) : Prop :=
  usable? (Assoc.get? t.prices (Trigger.watched b)) ≠ none

theorem OwnPrice.get?_eq (h : OwnPrice b t) (config : EngineConfig) :
    Assoc.get? t.prices (Trigger.watched b) = some (watchedPrice config b t) := by
  obtain ⟨p, hp⟩ := Option.ne_none_iff_exists'.1 h
  rw [watchedPrice, PriceTick.priceOf, hp]
  exact (Option.filter_eq_some_iff.1 hp).1

/-- From the second tick on, it fires by the price now and by what the tick before had under the
token's own name. -/
theorem firesAt_iff_judge (htrace : Trace config plan start (ticks.take (i + 1)) steps s)
    (hbefore : ticks[i]? = some t₀) (hnow : ticks[i + 1]? = some t)
    (hcompares : Trigger.Compares b kind level) :
    FiresAt config plan start ticks (i + 1) b kind ↔
      Trigger.judge b kind level (watchedPrice config b t)
        (Assoc.get? t₀.prices (Trigger.watched b)) = true := by
  have hprevious : s.previous = t₀.prices := by
    refine htrace.previous ?_
    rw [List.getLast?_take, if_neg (Nat.succ_ne_zero i), Nat.add_sub_cancel, hbefore]
    rfl
  rw [firesAt_iff_holds htrace hnow, hcompares.holds_eq, hprevious, Except.ok.injEq]
  rfl

/-- A trigger on a crossing or on a change, at a tick after the first that a run comes to. It judges the
price now by what the tick before had under the token's own name: by the price before, if that can be
used, and without anything there it does not fire. If it is a trigger of the plan and fires, then a
trigger fires at that tick. -/
theorem fires_on_raw_previous (config : EngineConfig) (plan : Plan) (start s : State R)
    (ticks : List (PriceTick R)) (i : Nat) (steps : List (Step R)) (t₀ t : PriceTick R) (b : Block)
    (kind : TriggerKind) (level : R)
    (htrace : Trace config plan start (ticks.take (i + 1)) steps s)
    (hbefore : ticks[i]? = some t₀) (hnow : ticks[i + 1]? = some t)
    (hcompares : Trigger.Compares b kind level) :
    (FiresAt config plan start ticks (i + 1) b kind ↔
      Trigger.judge b kind level (watchedPrice config b t)
        (Assoc.get? t₀.prices (Trigger.watched b)) = true) ∧
    (OwnPrice b t₀ →
      (FiresAt config plan start ticks (i + 1) b kind ↔
        Trigger.judge b kind level (watchedPrice config b t) (some (watchedPrice config b t₀)) =
          true)) ∧
    (Assoc.get? t₀.prices (Trigger.watched b) = none →
      ¬ FiresAt config plan start ticks (i + 1) b kind) ∧
    ((b, kind) ∈ plan.triggers → FiresAt config plan start ticks (i + 1) b kind →
      ∀ fired s' step, Ticked config plan s t fired s' step → fired = true) := by
  have hiff := firesAt_iff_judge htrace hbefore hnow hcompares
  refine ⟨hiff, fun hown => ?_, fun hnone => ?_, fun hmem hfires fired s' step hticked => ?_⟩
  · rw [hiff, hown.get?_eq config]
  · rw [hiff, hnone, hcompares.judge_none]
    exact nofun
  · exact Trigger.anyFires_of_holds hticked.triggers hmem hcompares.kind_ne
      ((firesAt_iff_holds htrace hnow).1 hfires)

/-! ## Watched prices -/

/-- A trigger of a kind with some settings. -/
def watcher (kind : TriggerKind) (settings : List (String × Json)) : Block :=
  { id := "b", category := .trigger, name := "", type := none, description := "",
    version := "1.0.0", config := ("type", .str kind.word) :: settings, position := .origin,
    inputs := [], outputs := [], enabled := true, actionKind := none, metadata := [] }

/-- Watches a price and does nothing. -/
def watching (b : Block) : Strategy := { buyHourly with blocks := [b] }

/-- A run that nothing stops works through the ticks of its market. -/
theorem trace_idle {feed : Option PriceFeed} {strategy : Strategy} {cfg : SimulationConfig}
    {o : Outcome Float} {seeded : Random.Generator}
    (h : run Float ⟨.standard, .empty, feed⟩ .idle 0 strategy cfg = .ok o)
    (hseeded : generatorOf cfg 0 = .ok seeded) :
    ∃ ticks g, marketOf ⟨.standard, .empty, feed⟩ strategy cfg seeded = (ticks, g) ∧
      ∀ n, ∃ steps s, Trace .standard (strategy.plan .empty "USDT")
        (State.start cfg.initialCapital g) (ticks.take n) steps s := by
  have hopen : Watch.idle.Open EngineConfig.standard.maxDurationSeconds :=
    fun _ => ⟨rfl, show ¬ (300 : Float) < 0 by decide⟩
  obtain ⟨ticks, steps, hreplayed⟩ := exists_replayed h hopen
  obtain ⟨seeded', g, s, hseeded', hmarket, htrace⟩ := hreplayed.trace
  obtain rfl := Except.ok.inj (hseeded.symm.trans hseeded')
  refine ⟨ticks, g, hmarket, fun n => ?_⟩
  obtain ⟨s₁, hfirst⟩ := htrace.take n
  exact ⟨_, s₁, hfirst⟩

/-- A feed of three bars, an hour after one another. -/
def threeBars (first second third : Float) : PriceFeed := fun _ _ _ =>
  let bar (time : String) (price : Float) : Json :=
    .obj [("timestamp", .str time), ("open", .num price), ("high", .num price),
      ("low", .num price), ("close", .num price)]
  some (.arr [bar "2024-03-01T00:00:00Z" first, bar "2024-03-01T01:00:00Z" second,
    bar "2024-03-01T02:00:00Z" third])

/-- The tick of an hour. -/
def hourTick (hour : Int) (price : Float) : PriceTick Float :=
  ⟨⟨63844848000000000 + hour * microsPerHour⟩, [("TON", price), ("USDT", price)], 0,
    Scalar.decimal 5 2⟩

/-- The ticks of three bars. -/
def threeTicks (first second third : Float) : List (PriceTick Float) :=
  [hourTick 0 first, hourTick 1 second, hourTick 2 third]

section ThreeBars

variable {first second third : Float}

set_option maxRecDepth 8000 in
theorem bars?_threeBars (token : String) (start stop : Instant) :
    (threeBars first second third token start stop).bind PriceSeries.bars? =
      some [⟨⟨63844848000000000⟩, first, first, first, first, 0⟩,
        ⟨⟨63844851600000000⟩, second, second, second, second, 0⟩,
        ⟨⟨63844855200000000⟩, third, third, third, third, 0⟩] := rfl

theorem historical_threeBars :
    PriceSeries.historical (threeBars first second third) ["TON", "USDT"] twoHours =
      threeTicks first second third := by
  simp only [PriceSeries.historical, PriceSeries.fetch, bars?_threeBars]
  simp only [Assoc.set, if_neg (show ¬ "TON" = "USDT" by decide), PriceSeries.join,
    PriceSeries.heads?, List.length, Option.map_some, PriceSeries.historicalTick, List.map_cons,
    List.map_nil, Scalar.ofFloat]
  rfl

/-- A run over three bars that gives a result works through their ticks. -/
theorem trace_threeBars {b : Block} {o : Outcome Float}
    (htokens : ((watching b).plan .empty "USDT").tokens = ["TON", "USDT"])
    (h : run Float ⟨.standard, .empty, some (threeBars first second third)⟩ .idle 0 (watching b)
      twoHours = .ok o) (n : Nat) :
    ∃ steps s, Trace .standard ((watching b).plan .empty "USDT")
      (State.start 1000 (.ofSeed ⟨7, []⟩)) ((threeTicks first second third).take n) steps s := by
  obtain ⟨ticks, g, hmarket, htraces⟩ := trace_idle h rfl
  have hbuild : PriceSeries.build .standard (some (threeBars first second third)) ["TON", "USDT"]
      twoHours (.ofSeed ⟨7, []⟩) = (threeTicks first second third, .ofSeed ⟨7, []⟩) := by
    rw [build_historical rfl (by rw [historical_threeBars]; exact List.cons_ne_nil _ _),
      historical_threeBars]
  rw [← htokens] at hbuild
  cases hmarket.symm.trans hbuild
  exact htraces n

end ThreeBars

/-- Watches a token for a change of a hundredth of a percent. -/
def changeWatcher (token : String) : Block :=
  watcher .priceChange [("token", .str token), ("percentage", .num 0.01)]

theorem compares_changeWatcher (token : String) :
    Trigger.Compares (changeWatcher token) .priceChange (0.01 : Float) := .change rfl

/-- A price that goes from two to three changes by more than that, and the trigger fires. -/
theorem risen_price_seen :
    ∃ o : Outcome Float,
      run Float ⟨.standard, .empty, some (threeBars 2 3 3)⟩ .idle 0 (watching (changeWatcher "TON"))
        twoHours = .ok o ∧
      o.metrics.triggerFirings = 1 ∧
      FiresAt .standard ((watching (changeWatcher "TON")).plan .empty "USDT")
        (State.start 1000 (.ofSeed ⟨7, []⟩)) (threeTicks 2 3 3) 1 (changeWatcher "TON")
        .priceChange := by
  obtain ⟨o, hrun, hfirings⟩ : ∃ o, run Float ⟨.standard, .empty, some (threeBars 2 3 3)⟩ .idle 0
      (watching (changeWatcher "TON")) twoHours = .ok o ∧ o.metrics.triggerFirings = 1 :=
    Except.exists_of_map (by decide +kernel)
  obtain ⟨steps, s, htrace⟩ := trace_threeBars (by decide +kernel) hrun 1
  obtain ⟨-, hlike, -, -⟩ := fires_on_raw_previous .standard _ _ s (threeTicks 2 3 3) 0 steps
    (hourTick 0 2) (hourTick 1 3) (changeWatcher "TON") .priceChange 0.01 htrace rfl rfl
    (compares_changeWatcher "TON")
  exact ⟨o, hrun, hfirings, (hlike (show usable? _ ≠ none by decide +kernel)).2 (by decide +kernel)⟩

/-- Does the price of a token change by a hundredth of a percent over two hours, the first of which has
no price under its name? -/
def changesFromUnlisted (token : String) : List (PriceTick Float) → Bool
  | [t₀, t₁] =>
    (Assoc.get? t₀.prices token).isNone &&
      Trigger.judge (changeWatcher token) .priceChange 0.01
        (t₁.priceOf EngineConfig.standard.defaultPrices token)
        (some (t₀.priceOf EngineConfig.standard.defaultPrices token))
  | _ => false

theorem changesFromUnlisted_cases {token : String} {ticks : List (PriceTick Float)}
    (h : changesFromUnlisted token ticks = true) :
    ∃ t₀ t₁, ticks = [t₀, t₁] ∧ Assoc.get? t₀.prices token = none ∧
      Trigger.judge (changeWatcher token) .priceChange 0.01
        (t₁.priceOf EngineConfig.standard.defaultPrices token)
        (some (t₀.priceOf EngineConfig.standard.defaultPrices token)) = true := by
  unfold changesFromUnlisted at h
  split at h
  case h_1 t₀ t₁ =>
    obtain ⟨hmissing, hchange⟩ := Bool.and_eq_true_iff.1 h
    exact ⟨t₀, t₁, rfl, Option.isNone_iff_eq_none.1 hmissing, hchange⟩
  case h_2 => cases h

/-- In two synthetic hours the price of a staked holding changes by what is watched for. The trigger
does not fire: the first hour has a price of what is staked, and none under the name of the holding. -/
theorem staked_change_not_seen :
    ∃ (t₀ t₁ : PriceTick Float) (g : Random.Generator) (o : Outcome Float),
      marketOf ⟨.standard, .empty, none⟩ (watching (changeWatcher "staked_TON")) syntheticHours
        (.ofSeed ⟨7, []⟩) = ([t₀, t₁], g) ∧
      Trigger.judge (changeWatcher "staked_TON") .priceChange 0.01
        (t₁.priceOf EngineConfig.standard.defaultPrices "staked_TON")
        (some (t₀.priceOf EngineConfig.standard.defaultPrices "staked_TON")) = true ∧
      ¬ FiresAt .standard ((watching (changeWatcher "staked_TON")).plan .empty "USDT")
        (State.start 1000 g) [t₀, t₁] 1 (changeWatcher "staked_TON") .priceChange ∧
      run Float ⟨.standard, .empty, none⟩ .idle 0 (watching (changeWatcher "staked_TON"))
        syntheticHours = .ok o ∧
      o.metrics.triggerFirings = 0 := by
  obtain ⟨o, hrun, hfirings⟩ : ∃ o, run Float ⟨.standard, .empty, none⟩ .idle 0
      (watching (changeWatcher "staked_TON")) syntheticHours = .ok o ∧
      o.metrics.triggerFirings = 0 :=
    Except.exists_of_map (by decide +kernel)
  have hseeded : generatorOf syntheticHours 0 = .ok (.ofSeed ⟨7, []⟩) := rfl
  obtain ⟨ticks, g, hmarket, htraces⟩ := trace_idle hrun hseeded
  have hunlisted : changesFromUnlisted "staked_TON" (marketOf ⟨.standard, .empty, none⟩
      (watching (changeWatcher "staked_TON")) syntheticHours (.ofSeed ⟨7, []⟩)).1 = true := by
    decide +kernel
  rw [hmarket] at hunlisted
  obtain ⟨t₀, t₁, rfl, hmissing, hchange⟩ := changesFromUnlisted_cases hunlisted
  obtain ⟨steps, s, hfirst⟩ := htraces 1
  have hcompares := compares_changeWatcher "staked_TON"
  refine ⟨t₀, t₁, g, o, hmarket, hchange, fun hfires => ?_, hrun, hfirings⟩
  have hjudge : Trigger.judge (changeWatcher "staked_TON") .priceChange 0.01
      (t₁.priceOf EngineConfig.standard.defaultPrices "staked_TON")
      (Assoc.get? t₀.prices "staked_TON") = true :=
    (firesAt_iff_judge hfirst rfl rfl hcompares).1 hfires
  rw [hmissing, hcompares.judge_none] at hjudge
  cases hjudge

end Backtest

end Tradeflow
