/-
  When a strategy is valid. The verdict is made of findings that five passes collect; `NoErrors`
  says that a list of findings holds none of severity error, and each pass has a lemma that says of
  which condition on the strategy this is the exact expression. `Admissible` is the conjunction of
  those conditions, stated without the passes; warnings and information never enter it.
  `valid_iff_admissible`: without further rules the verdict is valid exactly if the strategy is
  admissible, and in strict mode exactly if moreover no finding is a warning.
-/
import Tradeflow.Proofs.Validation.CycleSearch
import Tradeflow.Validation.Verdict

namespace Tradeflow

/-! ## What an admissible strategy is -/

/-- A port of one type may feed one of the same type or of type `any`, and a trigger may feed a
boolean. -/
def PortType.Fits (source target : PortType) : Prop :=
  source = target ∨ target = .any ∨ (source = .trigger ∧ target = .boolean)

theorem PortType.feeds_iff (source target : PortType) :
    source.feeds target = true ↔ source.Fits target := by
  cases source <;> cases target <;> simp [feeds, typesCompatible, Fits, word]

namespace Strategy

/-- A connection leads from an output to an input that it may feed. An id stands for the first block
with it, and on that block for the first port with it. -/
def Joins (s : Strategy) (c : Connection) : Prop :=
  ∃ source target output input,
    s.block? c.sourceBlock = some source ∧ s.block? c.targetBlock = some target ∧
    source.output? c.sourceOutput = some output ∧ target.input? c.targetInput = some input ∧
    output.dataType.Fits input.dataType

/-- A block that is found is there, and has the id. -/
theorem of_block?_eq_some {s : Strategy} {id : String} {b : Block} (h : s.block? id = some b) :
    b ∈ s.blocks ∧ b.id = id := by
  have hid := List.find?_some h
  exact ⟨List.mem_of_find?_eq_some h, beq_iff_eq.1 hid⟩

/-- With different ids, each block is found by its own. -/
theorem block?_of_mem {s : Strategy} (hnodup : (s.blocks.map (·.id)).Nodup) {b : Block}
    (hb : b ∈ s.blocks) : s.block? b.id = some b := by
  cases hfound : s.block? b.id with
  | none => exact absurd (beq_self_eq_true b.id) (List.find?_eq_none.1 hfound b hb)
  | some b' =>
    obtain ⟨hb', hid⟩ := of_block?_eq_some hfound
    rw [List.inj_on_of_nodup_map hnodup hb' hb hid]

end Strategy

/-- The operators that a condition block may have: those of a logic gate, or comparisons. -/
def Block.operatorWords (b : Block) : List String :=
  if b.type = some "condition_logic" ∨ b.name = "Logic Gate" then ["and", "or", "not", "xor"]
  else ["eq", "neq", "gt", "gte", "lt", "lte", "in", "nin"]

/-- The conditions under which a strategy may run. -/
structure Strategy.Admissible (R : Type) [Scalar R] (s : Strategy) : Prop where
  trigger : ∃ b ∈ s.blocks, b.category = .trigger
  noCycle : ¬ s.ReachesCycle
  connections : ∀ c ∈ s.connections, s.Joins c
  inputs : ∀ b ∈ s.blocks, b.category ≠ .trigger → ∀ p ∈ b.inputs, p.required = true →
    ∃ c ∈ s.connections, c.targetBlock = b.id ∧ c.targetInput = p.id
  intervals : ∀ b ∈ s.blocks, b.category = .trigger →
    b.setting? "scheduleType" = some (.str "interval") →
    ∃ v, b.setting? "interval" = some v ∧ v.truthy = true
  limits : ∀ b ∈ s.blocks, b.category = .risk →
    ∀ key ∈ ["value", "maxValue", "seconds", "maxTrades", "maxLoss"],
      (∀ k : Int, b.setting? key = some (.int k) → ¬ k ≤ 0) ∧
      (∀ x : Float, b.setting? key = some (.num x) → ¬ x ≤ 0)
  operators : ∀ b ∈ s.blocks, b.category = .condition →
    ∀ v, b.setting? "operator" = some v → v.truthy = true → ∃ word ∈ b.operatorWords, v = .str word
  positionSize :
    Scalar.less (Scalar.nat 100 : R) (Scalar.ofFloat s.riskParams.maxPositionSize) = false

/-! ## Findings of one kind -/

namespace Issue

variable {α : Type} {q : Issue → Prop}

theorem forall_ite {P : Prop} [Decidable P] {i : Issue} (h : q i) :
    ∀ j ∈ (if P then [i] else []), q j := by
  by_cases hP : P <;> simp [hP, h]

theorem forall_else {P : Prop} [Decidable P] {i : Issue} (h : q i) :
    ∀ j ∈ (if P then [] else [i]), q j := by
  by_cases hP : P <;> simp [hP, h]

theorem forall_filterMap {xs : List α} {f : α → Option Issue}
    (h : ∀ x i, f x = some i → q i) : ∀ i ∈ xs.filterMap f, q i := by
  intro i hi
  obtain ⟨x, -, hx⟩ := List.mem_filterMap.1 hi
  exact h x i hx

/-- Findings about settings with a name that is not allowed. -/
theorem forall_nameIssues (b : Block) (keys : List String) {allowed : String → Bool}
    {issue : String → String → Issue} (h : ∀ key name, q (issue key name)) :
    ∀ i ∈ (keys.filterMap fun key => (b.name? key).bind fun name =>
      if allowed name then none else some (issue key name)), q i := by
  refine forall_filterMap fun key i hi => ?_
  obtain ⟨name, -, hname⟩ := Option.bind_eq_some_iff.1 hi
  split at hname
  · cases hname
  · cases hname
    exact h key name

end Issue

/-! ## Findings without errors -/

/-- None of the findings is an error. -/
def NoErrors (issues : List Issue) : Prop := ∀ i ∈ issues, i.severity ≠ .error

namespace NoErrors

theorem nil : NoErrors [] := by simp [NoErrors]

theorem append_iff {xs ys : List Issue} : NoErrors (xs ++ ys) ↔ NoErrors xs ∧ NoErrors ys :=
  List.forall_mem_append

theorem flatMap_iff {α : Type} {xs : List α} {f : α → List Issue} :
    NoErrors (xs.flatMap f) ↔ ∀ x ∈ xs, NoErrors (f x) := by
  simp only [NoErrors, List.mem_flatMap]
  exact ⟨fun h x hx i hi => h i ⟨x, hx, hi⟩, fun h i ⟨x, hx, hi⟩ => h x hx i hi⟩

/-- Findings that all are errors: there are no errors if there are no findings. -/
theorem iff_eq_nil {issues : List Issue} (h : ∀ i ∈ issues, i.severity = .error) :
    NoErrors issues ↔ issues = [] := by
  constructor
  · intro hno
    refine List.eq_nil_iff_forall_not_mem.2 fun i hi => hno i hi (h i hi)
  · rintro rfl
    exact nil

/-- An error reported under a condition. -/
theorem ite_error_iff {P : Prop} [Decidable P] {i : Issue} (h : i.severity = .error) :
    NoErrors (if P then [i] else []) ↔ ¬ P := by
  by_cases hP : P <;> simp [NoErrors, hP, h]

/-- An error reported unless a condition holds. -/
theorem else_error_iff {P : Prop} [Decidable P] {i : Issue} (h : i.severity = .error) :
    NoErrors (if P then [] else [i]) ↔ P := by
  by_cases hP : P <;> simp [NoErrors, hP, h]

/-- A lesser finding reported under a condition. -/
theorem ite_of_ne {P : Prop} [Decidable P] {i : Issue} (h : i.severity ≠ .error) :
    NoErrors (if P then [i] else []) :=
  Issue.forall_ite h

theorem map_of_ne {α : Type} {xs : List α} {f : α → Issue} (h : ∀ x, (f x).severity ≠ .error) :
    NoErrors (xs.map f) :=
  List.forall_mem_map.2 fun x _ => h x

theorem filterMap_of_ne {α : Type} {xs : List α} {f : α → Option Issue}
    (h : ∀ x i, f x = some i → i.severity ≠ .error) : NoErrors (xs.filterMap f) :=
  Issue.forall_filterMap h

end NoErrors

/-! ## The passes -/

namespace Strategy

theorem noErrors_structureIssues (s : Strategy) :
    NoErrors s.structureIssues ↔ (∃ b ∈ s.blocks, b.category = .trigger) ∧ ¬ s.ReachesCycle := by
  have htrigger : ¬ (s.blocksOf .trigger).isEmpty = true ↔
      ∃ b ∈ s.blocks, b.category = .trigger := by
    simp [blocksOf, List.isEmpty_iff]
  have hcycle : s.findCycle.isEmpty = true ↔ ¬ s.ReachesCycle := by
    rw [List.isEmpty_iff, findCycle_eq_nil_iff]
  have haction : Severity.warning ≠ Severity.error := by decide
  rw [structureIssues, NoErrors.append_iff, NoErrors.append_iff, NoErrors.append_iff,
    NoErrors.ite_error_iff rfl, NoErrors.else_error_iff rfl, htrigger, hcycle]
  constructor
  · rintro ⟨⟨⟨hsome, -⟩, hnone⟩, -⟩
    exact ⟨hsome, hnone⟩
  · rintro ⟨hsome, hnone⟩
    refine ⟨⟨⟨hsome, NoErrors.ite_of_ne haction⟩, hnone⟩,
      NoErrors.filterMap_of_ne fun id i hi => ?_⟩
    -- A block that cannot be reached is at most warned about.
    split at hi
    · split at hi
      · cases hi
      · cases hi
        exact haction
    · cases hi

/-- A connection is faultless exactly if it joins what it names. -/
theorem connectionIssue?_eq_none_iff (s : Strategy) (c : Connection) :
    s.connectionIssue? c = none ↔ s.Joins c := by
  simp only [connectionIssue?, Joins, ← PortType.feeds_iff]
  cases hsource : s.block? c.sourceBlock with
  | none => simp
  | some source =>
    cases htarget : s.block? c.targetBlock with
    | none => simp
    | some target =>
      cases houtput : source.output? c.sourceOutput with
      | none => simp [houtput]
      | some output =>
        cases hinput : target.input? c.targetInput with
        | none => simp [houtput, hinput]
        | some input => simp [houtput, hinput]

theorem severity_connectionIssue? {s : Strategy} {c : Connection} {i : Issue}
    (h : s.connectionIssue? c = some i) : i.severity = .error := by
  unfold connectionIssue? at h
  repeat' split at h
  all_goals cases h
  all_goals rfl

theorem wired_iff (s : Strategy) (block input : String) :
    s.wired block input = true ↔
      ∃ c ∈ s.connections, c.targetBlock = block ∧ c.targetInput = input := by
  simp [wired]

theorem noErrors_openInputIssues (s : Strategy) (b : Block) :
    NoErrors (s.openInputIssues b) ↔ (b.category ≠ .trigger → ∀ p ∈ b.inputs, p.required = true →
      ∃ c ∈ s.connections, c.targetBlock = b.id ∧ c.targetInput = p.id) := by
  rw [openInputIssues]
  by_cases hcat : b.category = .trigger
  · simp [hcat, NoErrors.nil]
  · have herror : ∀ i ∈ ((b.inputs.filter fun p => p.required && !s.wired b.id p.id).map fun p =>
        Issue.ofBlock b .error .missingRequiredInput
          ("Required input \"" ++ (if p.label = "" then p.id else p.label)
            ++ "\" is not connected on \"" ++ b.name ++ "\"") p.id), i.severity = .error := by
      intro i hi
      obtain ⟨p, -, rfl⟩ := List.mem_map.1 hi
      rfl
    rw [if_neg (by simpa using hcat), NoErrors.iff_eq_nil herror]
    simp [hcat, wired_iff]

theorem noErrors_connectionIssues (s : Strategy) :
    NoErrors s.connectionIssues ↔ (∀ c ∈ s.connections, s.Joins c) ∧
      ∀ b ∈ s.blocks, b.category ≠ .trigger → ∀ p ∈ b.inputs, p.required = true →
        ∃ c ∈ s.connections, c.targetBlock = b.id ∧ c.targetInput = p.id := by
  have herror : ∀ i ∈ s.connections.filterMap s.connectionIssue?, i.severity = .error := by
    intro i hi
    obtain ⟨c, -, hc⟩ := List.mem_filterMap.1 hi
    exact severity_connectionIssue? hc
  rw [connectionIssues, NoErrors.append_iff, NoErrors.iff_eq_nil herror, NoErrors.flatMap_iff]
  simp only [List.filterMap_eq_nil_iff, connectionIssue?_eq_none_iff, noErrors_openInputIssues]

end Strategy

namespace Block

theorem noErrors_typeIssues (catalog : Catalog) (b : Block) : NoErrors (b.typeIssues catalog) :=
  NoErrors.ite_of_ne (by decide : Severity.info ≠ .error)

theorem noErrors_whitelistIssues (config : ValidationConfig) (b : Block) :
    NoErrors (b.whitelistIssues config) := by
  have hwarning : Severity.warning ≠ Severity.error := by decide
  have htokens : NoErrors (b.tokenIssues config) :=
    Issue.forall_nameIssues b tokenKeys fun _ _ => hwarning
  have hprotocols : NoErrors (b.protocolIssues config) :=
    Issue.forall_nameIssues b protocolKeys fun _ _ => hwarning
  have hboth := NoErrors.append_iff.2 ⟨htokens, hprotocols⟩
  rw [whitelistIssues]
  cases b.category with
  | trigger | condition | action => exact hboth
  | risk | capital | data | utility => exact NoErrors.nil

theorem noErrors_scheduleIssues (b : Block) :
    NoErrors b.scheduleIssues ↔ (b.category = .trigger →
      b.setting? "scheduleType" = some (.str "interval") →
      ∃ v, b.setting? "interval" = some v ∧ v.truthy = true) := by
  have hwants : b.wantsInterval = true ↔ b.setting? "scheduleType" = some (.str "interval") := by
    rw [wantsInterval]
    cases b.setting? "scheduleType" with
    | none => simp
    | some v => cases v <;> simp [Json.text?]
  have hhas : b.hasInterval = true ↔ ∃ v, b.setting? "interval" = some v ∧ v.truthy = true := by
    rw [hasInterval]
    cases b.setting? "interval" <;> simp
  rw [scheduleIssues, NoErrors.ite_error_iff rfl]
  simp only [Bool.and_eq_true, Bool.not_eq_true', beq_iff_eq, hwants, ← hhas]
  grind

theorem noErrors_slippageIssues (b : Block) : NoErrors b.slippageIssues :=
  NoErrors.ite_of_ne (by decide : Severity.warning ≠ .error)

theorem numberNotPositive_iff (v : Json) :
    v.numberNotPositive = false ↔
      (∀ k : Int, v = .int k → ¬ k ≤ 0) ∧ (∀ x : Float, v = .num x → ¬ x ≤ 0) := by
  cases v <;> simp [Json.numberNotPositive]

theorem noErrors_limitIssues (b : Block) :
    NoErrors b.limitIssues ↔ ∀ key ∈ ["value", "maxValue", "seconds", "maxTrades", "maxLoss"],
      (∀ k : Int, b.setting? key = some (.int k) → ¬ k ≤ 0) ∧
      (∀ x : Float, b.setting? key = some (.num x) → ¬ x ≤ 0) := by
  have herror : ∀ i ∈ b.limitIssues, i.severity = .error := by
    intro i hi
    obtain ⟨key, -, rfl⟩ := List.mem_map.1 hi
    rfl
  have hkey : ∀ key, (b.setting? key).any Json.numberNotPositive = false ↔
      (∀ k : Int, b.setting? key = some (.int k) → ¬ k ≤ 0) ∧
      (∀ x : Float, b.setting? key = some (.num x) → ¬ x ≤ 0) := by
    intro key
    cases b.setting? key with
    | none => simp
    | some v => simpa using numberNotPositive_iff v
  rw [NoErrors.iff_eq_nil herror, limitIssues, List.map_eq_nil_iff, List.filter_eq_nil_iff]
  simp only [positiveRiskKeys, Bool.not_eq_true, hkey]

theorem isLogicGate_iff (b : Block) :
    b.isLogicGate = true ↔ b.type = some "condition_logic" ∨ b.name = "Logic Gate" := by
  simp [isLogicGate]

theorem allowedOperators_eq (b : Block) : b.allowedOperators = b.operatorWords := by
  simp only [allowedOperators, operatorWords, isLogicGate_iff]
  rfl

theorem isWordOf_iff (words : List String) (v : Json) :
    isWordOf words v = true ↔ ∃ word ∈ words, v = .str word := by
  cases v <;> simp [isWordOf]

theorem noErrors_operatorIssues (b : Block) :
    NoErrors b.operatorIssues ↔ ∀ v, b.setting? "operator" = some v → v.truthy = true →
      ∃ word ∈ b.operatorWords, v = .str word := by
  rw [operatorIssues]
  cases b.setting? "operator" with
  | none => simp [NoErrors.nil]
  | some v =>
    rw [NoErrors.ite_error_iff rfl]
    simp [allowedOperators_eq, ← isWordOf_iff]

/-- The part of each category in the findings about a block. -/
theorem noErrors_categoryIssues (b : Block) :
    NoErrors b.categoryIssues ↔
      (b.category = .risk → NoErrors b.limitIssues) ∧
      (b.category = .condition → NoErrors b.operatorIssues) := by
  rw [categoryIssues]
  cases b.category <;> simp [NoErrors.nil, noErrors_slippageIssues]

theorem noErrors_issues (config : ValidationConfig) (catalog : Catalog) (b : Block) :
    NoErrors (b.issues config catalog) ↔ NoErrors b.scheduleIssues ∧
      (b.category = .risk → NoErrors b.limitIssues) ∧
      (b.category = .condition → NoErrors b.operatorIssues) := by
  rw [issues, settingIssues, NoErrors.append_iff, NoErrors.append_iff, NoErrors.append_iff,
    noErrors_categoryIssues]
  simp only [noErrors_typeIssues, noErrors_whitelistIssues, true_and, and_true]

end Block

namespace Strategy

variable {R : Type} [Scalar R]

theorem noErrors_riskIssue {exceeded : Bool} {severity : Severity} {message : String}
    {field : Option String} (h : severity ≠ .error) :
    NoErrors (riskIssue exceeded severity message field) :=
  NoErrors.ite_of_ne h

theorem noErrors_riskIssues (s : Strategy) :
    NoErrors (s.riskIssues R) ↔
      Scalar.less (Scalar.nat 100 : R) (Scalar.ofFloat s.riskParams.maxPositionSize) = false := by
  have hwarning : Severity.warning ≠ Severity.error := by decide
  have hinfo : Severity.info ≠ Severity.error := by decide
  have hposition : NoErrors (riskIssue (exceeds R s.riskParams.maxPositionSize 100) .error
      "Maximum position size cannot exceed 100%" (some "maxPositionSize")) ↔
      exceeds R s.riskParams.maxPositionSize 100 = false := by
    rw [riskIssue, NoErrors.ite_error_iff rfl, Bool.not_eq_true]
  simp only [riskIssues, NoErrors.append_iff, hposition, noErrors_riskIssue hwarning,
    noErrors_riskIssue hinfo, and_true]
  rfl

theorem noErrors_complianceIssues (config : ValidationConfig) (catalog : Catalog) (s : Strategy) :
    NoErrors (s.complianceIssues R config catalog) := by
  have hwarning : Severity.warning ≠ Severity.error := by decide
  rw [complianceIssues, NoErrors.append_iff, NoErrors.append_iff]
  exact ⟨⟨NoErrors.ite_of_ne hwarning, NoErrors.map_of_ne fun _ => hwarning⟩,
    NoErrors.map_of_ne fun _ => hwarning⟩

end Strategy

namespace Validator

variable {R : Type} [Scalar R]

theorem noErrors_findings (v : Validator) (s : Strategy) (hrules : v.rules = []) :
    NoErrors (v.findings R s) ↔ s.Admissible R := by
  have hblocks : NoErrors (s.blocks.flatMap (Block.issues v.config v.catalog)) ↔
      ∀ b ∈ s.blocks, NoErrors b.scheduleIssues ∧
        (b.category = .risk → NoErrors b.limitIssues) ∧
        (b.category = .condition → NoErrors b.operatorIssues) := by
    rw [NoErrors.flatMap_iff]
    simp only [Block.noErrors_issues]
  rw [findings, hrules, List.filterMap_nil, List.append_nil, NoErrors.append_iff,
    NoErrors.append_iff, NoErrors.append_iff, NoErrors.append_iff, hblocks,
    Strategy.noErrors_structureIssues, Strategy.noErrors_connectionIssues,
    Strategy.noErrors_riskIssues]
  simp only [Block.noErrors_scheduleIssues, Block.noErrors_limitIssues,
    Block.noErrors_operatorIssues]
  constructor
  · rintro ⟨⟨⟨⟨⟨htrigger, hcycle⟩, hjoins, hinputs⟩, hblock⟩, hposition⟩, -⟩
    exact
      { trigger := htrigger
        noCycle := hcycle
        connections := hjoins
        inputs := hinputs
        intervals := fun b hb => (hblock b hb).1
        limits := fun b hb => (hblock b hb).2.1
        operators := fun b hb => (hblock b hb).2.2
        positionSize := hposition }
  · intro h
    exact ⟨⟨⟨⟨⟨h.trigger, h.noCycle⟩, h.connections, h.inputs⟩,
      fun b hb => ⟨h.intervals b hb, h.limits b hb, h.operators b hb⟩⟩, h.positionSize⟩,
      Strategy.noErrors_complianceIssues v.config v.catalog s⟩

/-- A verdict sorts the findings by severity, and is valid as they say. -/
theorem of_validate {v : Validator} {s : Strategy} {r : Verdict R} (hr : v.validate R s = .ok r) :
    r.errors = (v.findings R s).filter (·.severity == .error) ∧
      r.warnings = (v.findings R s).filter (·.severity != .error) ∧
      r.valid = decide v.config r.errors r.warnings := by
  simp only [validate] at hr
  cases hscore : s.riskScore R (v.findings R s) with
  | error e =>
    rw [hscore] at hr
    cases hr
  | ok score =>
    rw [hscore] at hr
    cases hr
    exact ⟨rfl, rfl, rfl⟩

/-- What a verdict says of validity, in terms of the findings it is made of. -/
theorem valid_iff_noErrors {v : Validator} {s : Strategy} {r : Verdict R}
    (hr : v.validate R s = .ok r) :
    r.valid = true ↔ NoErrors (v.findings R s) ∧
      (v.config.strictMode = true → ∀ i ∈ v.findings R s, i.severity ≠ .warning) := by
  have herrors : ((v.findings R s).filter (·.severity == .error)).isEmpty = true ↔
      NoErrors (v.findings R s) := by
    simp [NoErrors, List.isEmpty_iff, List.filter_eq_nil_iff]
  have hwarnings :
      ((v.findings R s).filter (·.severity != .error)).any (·.severity == .warning) = false ↔
        ∀ i ∈ v.findings R s, i.severity ≠ .warning := by
    rw [List.any_eq_false]
    constructor
    · intro h i hi hw
      exact h i (List.mem_filter.2 ⟨hi, by simp [hw]⟩) (by simp [hw])
    · intro h i hi hw
      exact h i (List.mem_filter.1 hi).1 (by simpa using hw)
  obtain ⟨hfirst, hsecond, hvalid⟩ := of_validate hr
  rw [hvalid, hfirst, hsecond, decide, Bool.and_eq_true, herrors, ← hwarnings]
  cases v.config.strictMode <;> simp

/-- Without further rules the verdict is valid exactly if the strategy is admissible; in strict
mode, if moreover no finding is a warning. -/
theorem valid_iff_admissible (v : Validator) (s : Strategy) (r : Verdict R) (hrules : v.rules = [])
    (hr : v.validate R s = .ok r) :
    (v.config.strictMode = false → (r.valid = true ↔ s.Admissible R)) ∧
    (v.config.strictMode = true →
      (r.valid = true ↔ s.Admissible R ∧ ∀ i ∈ v.findings R s, i.severity ≠ .warning)) := by
  have hvalid := valid_iff_noErrors hr
  rw [noErrors_findings v s hrules] at hvalid
  constructor
  · intro hmode
    simpa [hmode] using hvalid
  · intro hmode
    simpa [hmode] using hvalid

/-- A trigger that starts a swap every hour. -/
def hourlySwap : Strategy :=
  { id := "hourly", name := "Hourly swap", description := "", category := .custom,
    version := "1.0.0", status := .draft,
    blocks :=
      [{ id := "t", category := .trigger, name := "Schedule", type := some "trigger_schedule",
         description := "", version := "1.0.0",
         config := [("scheduleType", .str "interval"), ("interval", .int 3600)], position := ⟨0, 0⟩,
         inputs := [], outputs := [⟨"out", .output, .trigger, "Trigger", true, false⟩],
         enabled := true, actionKind := none, metadata := [] },
       { id := "a", category := .action, name := "Swap", type := some "action_swap",
         description := "", version := "1.0.0", config := [("fromToken", .str "USDT")],
         position := ⟨0, 0⟩, inputs := [⟨"in", .input, .trigger, "Trigger", true, false⟩],
         outputs := [], enabled := true, actionKind := none, metadata := [] }],
    connections := [⟨"c", "t", "out", "a", "in", none⟩], settings := .standard,
    riskParams := .standard, tags := [], metadata := [] }

set_option maxRecDepth 4000 in
theorem hourlySwap_accepted :
    ((standard.validate Float hourlySwap).map (·.valid)).toOption = some true := by
  -- The two searches are run apart: they end by a measure, which the evaluator cannot see through.
  have hcycle : hourlySwap.findCycle = [] := by cbv
  have hreach : hourlySwap.findUnreachable = [] := by cbv
  rw [validate, findings, Strategy.structureIssues, hcycle, hreach]
  decide +kernel

/-- The usual validator accepts it, so it is admissible. -/
theorem hourlySwap_admissible :
    ∃ r, standard.validate Float hourlySwap = .ok r ∧ r.valid = true ∧
      hourlySwap.Admissible Float := by
  have haccepted := hourlySwap_accepted
  cases hr : standard.validate Float hourlySwap with
  | error e =>
    rw [hr] at haccepted
    cases haccepted
  | ok r =>
    have hvalid : r.valid = true := by
      rw [hr] at haccepted
      exact Option.some.inj haccepted
    exact ⟨r, rfl, hvalid, ((valid_iff_admissible standard hourlySwap r rfl hr).1 rfl).1 hvalid⟩

end Validator

end Tradeflow
