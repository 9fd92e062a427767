/-
  What can end a run before its time. Settings, prices and feeds of every shape are taken as they come,
  but for two things: a whole number too large for a double is not read as a number, and a swap whose
  amount is worth nothing once it is rounded has no gain in percent. `Cause` says so of a plan and
  its ticks; `execute_error`, `anyFires_error` find it in one action and one trigger, `replay_error` in
  a run, and `backtest_returns_or_faults` sums up: without such a cause a backtest gives a result.
-/
import Tradeflow.Proofs.Backtest.Foresight
import Tradeflow.Proofs.Interchange.Behaviour
import Tradeflow.Proofs.Number.Magnitude

namespace Tradeflow

/-- Stands for a whole number that is too large for a double. -/
def Setting.TooLarge (setting : Option Json) : Prop :=
  ∃ n, setting = some (.int n) ∧ Double.ofInt? n = none

/-- The settings of triggers and actions that are read as numbers. -/
def numberKeys : List String :=
  ["interval", "threshold", "percentage", "value", "amount", "amountPerOrder", "maxSlippage"]

/-- A number among the settings of the block is too large. -/
def Block.TooLarge (b : Block) : Prop := ∃ key ∈ numberKeys, Setting.TooLarge (b.setting? key)

namespace Setting

theorem number_error {setting : Option Json} {f : Fault}
    (h : (number setting : Except Fault (Option Float)) = .error f) :
    f = .intTooLarge ∧ TooLarge setting := by
  unfold number at h
  split at h
  case h_1 n =>
    split at h
    · cases h
    case h_2 hnone =>
      cases h
      exact ⟨rfl, n, rfl, hnone⟩
  all_goals cases h

theorem numberOr_error {usual : Float} {setting : Option Json} {f : Fault}
    (h : numberOr usual setting = .error f) : f = .intTooLarge ∧ TooLarge setting := by
  unfold numberOr at h
  split at h
  case h_1 hnumber =>
    cases h
    exact number_error hnumber
  all_goals cases h

end Setting

theorem Block.tooLarge_of {b : Block} {f : Fault} (key : String)
    (h : f = .intTooLarge ∧ Setting.TooLarge (b.setting? key)) (hkey : key ∈ numberKeys) :
    f = .intTooLarge ∧ b.TooLarge :=
  h.imp_right fun hlarge => ⟨key, hkey, hlarge⟩

/-! ## Triggers -/

namespace Trigger

variable {v : View Float} {clocks : Clocks} {b : Block} {kind : TriggerKind} {f : Fault}

theorem holds_error (h : holds v b kind = .error f) : f = .intTooLarge ∧ b.TooLarge := by
  unfold holds at h
  dsimp only at h
  cases kind with
  | priceThreshold =>
    dsimp only at h
    split at h
    case h_1 hthreshold =>
      cases h
      exact Block.tooLarge_of _ (Setting.number_error hthreshold) (by decide)
    all_goals cases h
  | priceChange =>
    dsimp only at h
    split at h
    case h_1 hpercentage =>
      cases h
      exact Block.tooLarge_of _ (Setting.number_error hpercentage) (by decide)
    all_goals cases h
  | portfolio =>
    dsimp only at h
    split at h
    · split at h
      case h_1 hvalue =>
        cases h
        exact Block.tooLarge_of _ (Setting.number_error hvalue) (by decide)
      all_goals cases h
    · cases h
  | _ => cases h

theorem fires_error (h : fires v clocks b kind = .error f) : f = .intTooLarge ∧ b.TooLarge := by
  unfold fires at h
  split at h
  · split at h
    case h_1 hinterval =>
      cases h
      exact Block.tooLarge_of _ (Setting.numberOr_error hinterval) (by decide)
    · split at h <;> cases h
  · cases hholds : holds v b kind with
    | error e =>
      rw [hholds] at h
      cases h
      exact holds_error hholds
    | ok fired =>
      rw [hholds] at h
      cases h

theorem anyFires_error {triggers : List (Block × TriggerKind)}
    (h : anyFires v clocks triggers = .error f) :
    f = .intTooLarge ∧ ∃ b kind, (b, kind) ∈ triggers ∧ b.TooLarge := by
  induction triggers generalizing clocks with
  | nil => cases h
  | cons p rest ih =>
    obtain ⟨b, kind⟩ := p
    rw [anyFires] at h
    split at h
    case h_1 hfires =>
      cases h
      exact (fires_error hfires).imp_right fun hlarge => ⟨b, kind, List.mem_cons_self, hlarge⟩
    · split at h
      case h_1 hrest =>
        cases h
        obtain ⟨hfault, b, kind, hmem, hlarge⟩ := ih hrest
        exact ⟨hfault, b, kind, List.mem_cons_of_mem _ hmem, hlarge⟩
      · cases h

end Trigger

/-! ## Prices -/

/-- Positive and finite. -/
def Double.IsPrice (x : Float) : Prop :=
  ∃ m e h, x.toModel.unpack = .finite .positive m e h

theorem Double.isPrice_of_usable {x : Float} (hfinite : Scalar.isFinite x = true)
    (hpos : Scalar.positive x = true) : Double.IsPrice x := by
  rcases (Double.positive_iff x).1 hpos with hinf | hx
  · have := (Double.isFinite_eq_false_iff x).2 (.inr ⟨_, hinf⟩)
    rw [show Double.isFinite x = true from hfinite] at this
    cases this
  · exact hx

theorem isPrice_usable {p : Option Float} {x : Float} (h : usable? p = some x) :
    Double.IsPrice x := by
  unfold usable? at h
  obtain ⟨-, hx⟩ := Option.filter_eq_some_iff.1 h
  rw [Bool.and_eq_true] at hx
  exact Double.isPrice_of_usable hx.1 hx.2

/-- Whatever a feed gives, tokens have prices as long as the default ones are. -/
theorem isPrice_priceOf {defaults : Assoc Float}
    (hdefaults : ∀ token x, Assoc.get? defaults token = some x → Double.IsPrice x)
    (tick : PriceTick Float) (token : String) : Double.IsPrice (tick.priceOf defaults token) := by
  unfold PriceTick.priceOf
  split
  case h_1 hown => exact isPrice_usable hown
  · split
    case h_1 hunderlying => exact isPrice_usable hunderlying
    · split
      case h_1 p hdefault => exact hdefaults _ _ hdefault
      · exact ⟨2 ^ 52, -52, by decide, rfl⟩

theorem isPrice_standard (token : String) (x : Float)
    (h : Assoc.get? EngineConfig.standard.defaultPrices token = some x) : Double.IsPrice x := by
  have hall : ∀ p ∈ EngineConfig.standard.defaultPrices,
      Scalar.isFinite p.2 = true ∧ Scalar.positive p.2 = true := by decide +kernel
  obtain ⟨hfinite, hpos⟩ := hall _ (Assoc.mem_of_get? h)
  exact Double.isPrice_of_usable hfinite hpos

/-! ## Actions -/

/-- The token that an action takes at a price. -/
def Block.sold? (quote : String) (b : Block) : ActionKind → Option String
  | .swap => some (Setting.textOr quote (Action.SwapTerms.ofSwap b).source)
  | .dca => some (Setting.textOr quote (Action.SwapTerms.ofRecurring b).source)
  | _ => none

/-- A price below one, so low that an amount of the token is worth nothing once it is rounded. -/
structure Double.Vanishing (price : Float) : Prop where
  low : Scalar.less price (Scalar.nat 1) = true
  amount : ∃ x, Scalar.positive x = true ∧ Scalar.isZero (x * price) = true

namespace Action

variable {e : Setup Float} {s : State Float} {b : Block} {f : Fault}

theorem divide_error {x y : Float} (h : Scalar.divide x y = .error f) :
    f = .zeroDivision ∧ Scalar.isZero y = true := by
  unfold Scalar.divide at h
  split at h
  case isTrue hzero =>
    cases h
    exact ⟨rfl, hzero⟩
  · cases h

theorem part_error {balance usual : Float} {sizing : Sizing}
    (h : part balance usual sizing = .error f) :
    f = .intTooLarge ∧ Setting.TooLarge sizing.amount := by
  unfold part at h
  split at h
  · cases h
  · split at h
    case h_1 hamount =>
      cases h
      unfold Sizing.amountOf at hamount
      split at hamount
      case h_1 hnumber =>
        cases hamount
        exact Setting.numberOr_error hnumber
      · cases hamount
    · cases h

theorem gain_error {amount fromPrice received toPrice : Float}
    (h : gain amount fromPrice received toPrice = .error f) :
    f = .zeroDivision ∧ Scalar.isZero (amount * fromPrice) = true := by
  unfold gain at h
  cases hdivide : Scalar.divide (received * toPrice - amount * fromPrice)
      (amount * fromPrice) with
  | error g =>
    rw [hdivide] at h
    cases h
    exact divide_error hdivide
  | ok q =>
    rw [hdivide] at h
    cases h

theorem isZero_of_isPrice {x : Float} (h : Double.IsPrice x) : Scalar.isZero x ≠ true := by
  obtain ⟨m, e, hm, hx⟩ := h
  intro hzero
  obtain ⟨s, hs⟩ := (Double.isZero_iff x).1 hzero
  cases hx.symm.trans hs

/-- A swap fails for a number that is too large, or for an amount worth nothing. -/
theorem swap_error {kind : ActionKind} {terms : SwapTerms}
    (h : swap e s kind terms = .error f)
    (hprice : ∀ token, Double.IsPrice (e.tick.priceOf e.defaults token)) :
    (f = .intTooLarge ∧ (Setting.TooLarge terms.sizing.amount ∨ Setting.TooLarge terms.maxSlippage)) ∨
      (f = .zeroDivision ∧
        Double.Vanishing (e.tick.priceOf e.defaults (Setting.textOr e.quote terms.source))) := by
  unfold swap at h
  dsimp only at h
  split at h
  case h_1 hpart =>
    cases h
    exact .inl ((part_error hpart).imp_right .inl)
  · cases h
  case h_3 amount hpart =>
    split at h
    case h_1 hslippage =>
      cases h
      exact .inl ((Setting.numberOr_error hslippage).imp_right .inr)
    · split at h
      case h_1 hrate =>
        exact absurd (divide_error hrate).2 (isZero_of_isPrice (hprice _))
      · split at h
        case h_1 hgain =>
          cases h
          obtain ⟨hfault, hzero⟩ := gain_error hgain
          obtain ⟨m, i, hm, hfrom⟩ := hprice (Setting.textOr e.quote terms.source)
          obtain ⟨hpos, hlow⟩ :=
            Double.less_one_of_isZero_mul (part_cases hpart).2.2 hfrom hzero
          exact .inr ⟨hfault, hlow, amount, hpos, hzero⟩
        · cases h

theorem stake_error {back : Bool} (h : stake e s back b = .error f) :
    f = .intTooLarge ∧ b.TooLarge := by
  unfold stake at h
  dsimp only at h
  split at h
  case h_1 hpart =>
    cases h
    exact Block.tooLarge_of _ (part_error hpart) (by decide)
  all_goals cases h

/-- What an action fails for, if prices are prices. -/
theorem execute_error {kind : ActionKind}
    (h : execute e s b kind = .error f)
    (hprice : ∀ token, Double.IsPrice (e.tick.priceOf e.defaults token)) :
    (f = .intTooLarge ∧ b.TooLarge) ∨ (f = .zeroDivision ∧ ∃ token, b.sold? e.quote kind = some token ∧
      Double.Vanishing (e.tick.priceOf e.defaults token)) := by
  unfold execute at h
  split at h
  · refine (swap_error h hprice).imp (fun hlarge => ?_) fun hzero => hzero.imp_right (⟨_, rfl, ·⟩)
    rcases hlarge.2 with hamount | hslippage
    · exact Block.tooLarge_of "amount" ⟨hlarge.1, hamount⟩ (by decide)
    · exact Block.tooLarge_of "maxSlippage" ⟨hlarge.1, hslippage⟩ (by decide)
  · refine (swap_error h hprice).imp (fun hlarge => ?_) fun hzero => hzero.imp_right (⟨_, rfl, ·⟩)
    rcases hlarge.2 with hamount | hslippage
    · exact Block.tooLarge_of "amountPerOrder" ⟨hlarge.1, hamount⟩ (by decide)
    · exact Block.tooLarge_of "maxSlippage" ⟨hlarge.1, hslippage⟩ (by decide)
  · exact .inl (stake_error h)
  · exact .inl (stake_error h)
  · cases h

end Action

/-! ## Runs -/

/-- Reasons for a fault in the settings of a plan and the ticks that it runs over. -/
inductive Cause (config : EngineConfig) (plan : Plan) (ticks : List (PriceTick Float)) : Fault → Prop
  | trigger {b : Block} {kind : TriggerKind} (mem : (b, kind) ∈ plan.triggers)
      (large : b.TooLarge) : Cause config plan ticks .intTooLarge
  | action {b : Block} {kind : ActionKind} (mem : (b, kind) ∈ plan.actions)
      (large : b.TooLarge) : Cause config plan ticks .intTooLarge
  | swap {b : Block} {kind : ActionKind} {token : String} {t : PriceTick Float}
      (mem : (b, kind) ∈ plan.actions) (sold : b.sold? config.quoteToken kind = some token)
      (tick : t ∈ ticks) (vanishing : Double.Vanishing (t.priceOf config.defaultPrices token)) :
      Cause config plan ticks .zeroDivision

theorem Cause.mono {config : EngineConfig} {plan : Plan} {f : Fault}
    {ticks ticks' : List (PriceTick Float)} (h : Cause config plan ticks f)
    (hsub : ∀ t ∈ ticks, t ∈ ticks') : Cause config plan ticks' f := by
  cases h with
  | trigger mem large => exact .trigger mem large
  | action mem large => exact .action mem large
  | swap mem sold tick vanishing => exact .swap mem sold (hsub _ tick) vanishing

namespace Backtest

variable {config : EngineConfig} {plan : Plan} {f : Fault}

theorem executeAll_error {t : PriceTick Float} {s : Action.State Float}
    {actions : List (Block × ActionKind)}
    (hprice : ∀ token, Double.IsPrice (t.priceOf config.defaultPrices token))
    (h : Action.executeAll ⟨config.quoteToken, config.defaultPrices, t⟩ s actions = .error f)
    (hactions : ∀ p ∈ actions, p ∈ plan.actions) : Cause config plan [t] f := by
  induction actions generalizing s with
  | nil => cases h
  | cons p rest ih =>
    obtain ⟨b, kind⟩ := p
    have hmem := hactions (b, kind) List.mem_cons_self
    rw [Action.executeAll] at h
    split at h
    case h_1 hexecute =>
      cases h
      rcases Action.execute_error hexecute hprice with ⟨rfl, hlarge⟩ | ⟨rfl, token, hsold, hlow⟩
      · exact .action hmem hlarge
      · exact .swap hmem hsold List.mem_cons_self hlow
    · split at h
      case h_1 hrest =>
        cases h
        exact ih hrest fun p hp => hactions p (List.mem_cons_of_mem _ hp)
      · cases h

theorem tick_error {t : PriceTick Float} {s : State Float}
    (hprice : ∀ token, Double.IsPrice (t.priceOf config.defaultPrices token))
    (h : tick config plan s t = .error f) : Cause config plan [t] f := by
  unfold tick at h
  dsimp only at h
  split at h
  case h_1 htriggers =>
    cases h
    obtain ⟨rfl, b, kind, hmem, hlarge⟩ := Trigger.anyFires_error htriggers
    exact .trigger hmem hlarge
  case h_2 fired clocks htriggers =>
    cases fired with
    | false => cases h
    | true =>
      rw [if_pos rfl] at h
      split at h
      case h_1 hexecute =>
        cases h
        exact executeAll_error hprice hexecute fun _ hp => hp
      · cases h

/-- A replay fails at some tick. -/
theorem replay_error {watch : Watch} {index : Nat} {s : State Float}
    {ticks : List (PriceTick Float)}
    (hprice : ∀ t ∈ ticks, ∀ token, Double.IsPrice (t.priceOf config.defaultPrices token))
    (h : replay config plan watch index s ticks = .error f) : Cause config plan ticks f := by
  induction ticks generalizing index s with
  | nil => cases h
  | cons t ticks ih =>
    rw [replay] at h
    split at h
    · cases h
    · split at h
      · cases h
      · split at h
        case h_1 htick =>
          cases h
          refine (tick_error (hprice t List.mem_cons_self) htick).mono fun t' ht' => ?_
          rw [List.mem_singleton.1 ht']
          exact List.mem_cons_self
        · split at h
          case h_1 hrest =>
            cases h
            exact (ih (fun t ht => hprice t (List.mem_cons_of_mem _ ht)) hrest).mono
              fun t ht => List.mem_cons_of_mem _ ht
          · cases h

theorem exists_generatorOf {cfg : SimulationConfig} (hseed : ∀ n, cfg.seed = some n → 0 ≤ n)
    (entropy : Nat) : ∃ g, generatorOf cfg entropy = .ok g := by
  unfold generatorOf
  split
  · exact ⟨_, rfl⟩
  case h_2 n hn => exact ⟨_, if_neg (Int.not_lt.2 (hseed n hn))⟩

theorem run_error {sim : Simulator} {watch : Watch} {entropy : Nat} {strategy : Strategy}
    {cfg : SimulationConfig} {seeded : Random.Generator}
    (hdefaults : ∀ token x, Assoc.get? sim.config.defaultPrices token = some x → Double.IsPrice x)
    (hseeded : generatorOf cfg entropy = .ok seeded)
    (h : run Float sim watch entropy strategy cfg = .error f) :
    Cause sim.config (strategy.plan sim.catalog sim.config.quoteToken)
      (marketOf sim strategy cfg seeded).1 f := by
  unfold run at h
  rw [hseeded] at h
  dsimp only at h
  split at h
  case h_1 hreplay =>
    cases h
    exact replay_error (fun t _ => isPrice_priceOf hdefaults t) hreplay
  · cases h

end Backtest

namespace Engine

/-- A backtest with the usual engine gives a result, whatever the strategy, the feed and the run: unless
an enabled trigger or action has a number that is too large among its settings, or an enabled swap
or recurring order takes a token that at some tick costs so little that an amount of it is worth
nothing. -/
theorem backtest_returns_or_faults (e : Engine Float) (o : Occasion) (useCache : Bool) (s : Strategy)
    (cfg : SimulationConfig) (hconfig : e.sim.config = .standard)
    (hseed : ∀ n, cfg.seed = some n → 0 ≤ n) :
    (∃ r e', e.backtest o useCache s cfg = .ok (r, e')) ∨
      ∃ f seeded, e.backtest o useCache s cfg = .error f ∧
        Backtest.generatorOf cfg o.entropy = .ok seeded ∧
        Cause .standard (s.plan e.sim.catalog EngineConfig.standard.quoteToken)
          (Backtest.marketOf e.sim s cfg seeded).1 f := by
  obtain ⟨seeded, hseeded⟩ := Backtest.exists_generatorOf hseed o.entropy
  unfold backtest
  split
  · exact .inl ⟨_, _, rfl⟩
  · split
    case h_1 f hcompute =>
      refine .inr ⟨f, seeded, rfl, hseeded, ?_⟩
      unfold compute at hcompute
      cases hrun : Backtest.run Float e.sim o.watch o.entropy s cfg with
      | error g =>
        rw [hrun] at hcompute
        cases hcompute
        rw [← hconfig]
        refine Backtest.run_error (fun token x hx => ?_) hseeded hrun
        rw [hconfig] at hx
        exact isPrice_standard token x hx
      | ok outcome =>
        rw [hrun] at hcompute
        cases hcompute
    · exact .inl ⟨_, _, rfl⟩

/-- The usual engine over a feed. -/
def usual (feed : Option PriceFeed) : Engine Float := Engine.start ⟨.standard, .core, feed⟩

/-- A schedule whose interval is a whole number of four hundred digits. -/
def hugeInterval : Strategy :=
  pair { hourly with config := [("interval", .int (10 ^ 400))] } halfSwap

/-- Sells the least positive amount there is. -/
def leastSwap : Strategy :=
  pair hourly { halfSwap with config := [("amountType", .str "fixed"), ("amount", .num 5e-324)] }

/-- With such an interval the run fails, and for a reason that is among the causes. -/
theorem hugeInterval_faults :
    ∃ f seeded, (usual none).backtest ⟨⟨0⟩, 0, .idle⟩ true hugeInterval oneHour = .error f ∧
      Backtest.generatorOf oneHour 0 = .ok seeded ∧
      Cause .standard (hugeInterval.plan .core EngineConfig.standard.quoteToken)
        (Backtest.marketOf (usual none).sim hugeInterval oneHour seeded).1 f := by
  refine (backtest_returns_or_faults (usual none) ⟨⟨0⟩, 0, .idle⟩ true hugeInterval oneHour rfl
    (fun n hn => by cases hn; decide)).resolve_left ?_
  rintro ⟨r, e', hresult⟩
  have hfault : ((usual none).backtest ⟨⟨0⟩, 0, .idle⟩ true hugeInterval oneHour).isOk = false := by
    decide +kernel
  rw [hresult] at hfault
  cases hfault

/-- Neither gives a result: the interval is no double, and the amount is worth nothing at the price of
the second bar. -/
theorem hugeInterval_leastSwap_fault :
    ((usual none).backtest ⟨⟨0⟩, 0, .idle⟩ true hugeInterval oneHour).isOk = false ∧
      ((usual (some (Backtest.twoBars 0.1))).backtest ⟨⟨0⟩, 0, .idle⟩ true leastSwap
        Backtest.twoHours).isOk = false := by
  decide +kernel

end Engine

end Tradeflow
