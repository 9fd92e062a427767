/-
  The order in which blocks and connections are listed does not matter to a validator. `Reordered`
  strategies list the same blocks and connections, and find the same block by an id. What a pass says
  of one of them it says of the other: of the blocks and connections one by one, so the findings are
  the same up to their order (`Reordered.findings`), and of the graph only what its edges say, so
  a cycle is found in both or in neither, though maybe not the same one.
  `validate_reordered`: with the gas summed exactly, the verdicts agree.
-/
import Mathlib.Data.List.Perm.Basic
import Tradeflow.Proofs.Number.Rational
import Tradeflow.Proofs.Validation.Acceptance
import Tradeflow.Proofs.Validation.Reachability

namespace Tradeflow

/-! ## Gas in an arithmetic of its own -/

namespace Validator

variable {R G : Type} [Scalar R] [Scalar G]

/-- All findings, the gas computed in the arithmetic `G` and the limits compared in `R`. -/
def findingsApart (R G : Type) [Scalar R] [Scalar G] (v : Validator) (s : Strategy) : List Issue :=
  s.structureIssues ++ s.connectionIssues ++ s.blocks.flatMap (Block.issues v.config v.catalog)
    ++ s.riskIssues R ++ s.complianceIssues G v.config v.catalog ++ v.rules.filterMap (· s)

/-- The verdict, the gas computed in the arithmetic `G` and all else in `R`. -/
def validateApart (R G : Type) [Scalar R] [Scalar G] (v : Validator) (s : Strategy) :
    Except Fault (Verdict G) :=
  let findings := v.findingsApart R G s
  let errors := findings.filter (·.severity == .error)
  let warnings := findings.filter (·.severity != .error)
  match s.riskScore R findings with
  | .error e => .error e
  | .ok score => .ok
    { valid := decide v.config errors warnings
      errors := errors
      warnings := warnings
      riskScore := score
      estimatedGas := s.estimateGas G v.catalog
      checks := if v.config.enableSecurityChecks then s.securityChecks R v.config else [] }

/-- With one arithmetic for both, that is the verdict. -/
theorem validateApart_self (v : Validator) (s : Strategy) :
    v.validateApart R R s = v.validate R s := rfl

end Validator

/-! ## Lists in another order -/

theorem nodup_eraseDups {α : Type} [BEq α] [LawfulBEq α] (xs : List α) : xs.eraseDups.Nodup := by
  match xs with
  | [] => exact List.nodup_nil
  | x :: xs =>
    rw [List.eraseDups_cons, List.nodup_cons]
    refine ⟨fun hx => ?_, nodup_eraseDups _⟩
    have hkept := (List.mem_filter.1 (List.mem_eraseDups.1 hx)).2
    rw [beq_self_eq_true] at hkept
    cases hkept
termination_by xs.length
decreasing_by exact Nat.lt_succ_of_le (List.length_filter_le ..)

theorem perm_eraseDups {α : Type} [BEq α] [LawfulBEq α] {xs ys : List α} (h : xs.Perm ys) :
    xs.eraseDups.Perm ys.eraseDups := by
  refine (List.perm_ext_iff_of_nodup (nodup_eraseDups xs) (nodup_eraseDups ys)).2 fun a => ?_
  rw [List.mem_eraseDups, List.mem_eraseDups, h.mem_iff]

/-- A search by a key that is different for all finds the same in any order. -/
theorem find?_perm {α β : Type} [BEq β] [LawfulBEq β] {f : α → β} {xs ys : List α} (h : xs.Perm ys)
    (hnodup : (ys.map f).Nodup) (b : β) : (xs.find? (f · == b)) = ys.find? (f · == b) := by
  cases hx : xs.find? (f · == b) with
  | none =>
    refine (List.find?_eq_none.2 fun a ha => ?_).symm
    exact List.find?_eq_none.1 hx a (h.mem_iff.2 ha)
  | some a =>
    have ha : a ∈ ys := h.mem_iff.1 (List.mem_of_find?_eq_some hx)
    have hkey : f a = b := eq_of_beq (List.find?_some (p := (f · == b)) hx)
    cases hy : ys.find? (f · == b) with
    | none =>
      have := List.find?_eq_none.1 hy a ha
      rw [hkey, beq_self_eq_true] at this
      exact absurd rfl this
    | some a' =>
      have hkey' : f a' = b := eq_of_beq (List.find?_some (p := (f · == b)) hy)
      rw [List.inj_on_of_nodup_map hnodup ha (List.mem_of_find?_eq_some hy)
        (hkey.trans hkey'.symm)]

/-! ## Reordered strategies -/

namespace Strategy

/-- The same blocks and connections in other orders, and the same blocks found by their ids. -/
structure Reordered (s' s : Strategy) : Prop where
  blocks : s'.blocks.Perm s.blocks
  connections : s'.connections.Perm s.connections
  lookup : ∀ id, s'.block? id = s.block? id
  category : s'.category = s.category
  settings : s'.settings = s.settings
  riskParams : s'.riskParams = s.riskParams

theorem reordered_connections (s : Strategy) {connections : List Connection}
    (h : connections.Perm s.connections) : Reordered { s with connections := connections } s where
  blocks := .refl _
  connections := h
  lookup := fun _ => rfl
  category := rfl
  settings := rfl
  riskParams := rfl

/-- With different ids, the order of blocks does not matter to a search by id. -/
theorem reordered_blocks (s : Strategy) {blocks : List Block} (h : blocks.Perm s.blocks)
    (hnodup : (s.blocks.map (·.id)).Nodup) : Reordered { s with blocks := blocks } s where
  blocks := h
  connections := .refl _
  lookup := find?_perm h hnodup
  category := rfl
  settings := rfl
  riskParams := rfl

namespace Reordered

variable {s s' : Strategy}

theorem blocksOf (h : Reordered s' s) (category : BlockCategory) :
    (s'.blocksOf category).Perm (s.blocksOf category) :=
  h.blocks.filter _

theorem leads (h : Reordered s' s) : s'.Leads = s.Leads := by
  funext u v
  unfold Leads
  simp only [h.connections.mem_iff]

/-- A cycle is found in both or in neither. -/
theorem findCycle_isEmpty (h : Reordered s' s) : s'.findCycle.isEmpty = s.findCycle.isEmpty := by
  have hreaches : s'.ReachesCycle ↔ s.ReachesCycle := by
    unfold ReachesCycle
    simp only [h.blocks.mem_iff, h.leads]
  rw [Bool.eq_iff_iff, List.isEmpty_iff, List.isEmpty_iff, findCycle_eq_nil_iff,
    findCycle_eq_nil_iff, hreaches]

theorem triggered (h : Reordered s' s) : s'.Triggered = s.Triggered := by
  funext id
  unfold Triggered
  simp only [h.blocks.mem_iff, h.leads]

theorem findUnreachable (h : Reordered s' s) : s'.findUnreachable.Perm s.findUnreachable := by
  rw [findUnreachable_eq, findUnreachable_eq, h.triggered]
  exact (h.blocks.filter _).map _

theorem connectionIssue? (h : Reordered s' s) : s'.connectionIssue? = s.connectionIssue? := by
  funext c
  unfold Strategy.connectionIssue?
  rw [h.lookup, h.lookup]

theorem openInputIssues (h : Reordered s' s) : s'.openInputIssues = s.openInputIssues := by
  have hwired : ∀ block input, s'.wired block input = s.wired block input :=
    fun block input => h.connections.any_eq
  funext b
  unfold Strategy.openInputIssues
  simp only [hwired]

theorem connectionIssues (h : Reordered s' s) : s'.connectionIssues.Perm s.connectionIssues := by
  unfold Strategy.connectionIssues
  rw [h.connectionIssue?, h.openInputIssues]
  exact (h.connections.filterMap _).append (h.blocks.flatMap_right _)

theorem usedTokens (h : Reordered s' s) : s'.usedTokens.Perm s.usedTokens := by
  unfold Strategy.usedTokens
  rw [h.settings]
  exact (perm_eraseDups ((h.blocks.flatMap_right _).append_right _)).filter _

theorem usedProtocols (h : Reordered s' s) : s'.usedProtocols.Perm s.usedProtocols :=
  (perm_eraseDups (h.blocks.flatMap_right _)).filter _

theorem riskIssues (R : Type) [Scalar R] (h : Reordered s' s) : s'.riskIssues R = s.riskIssues R := by
  unfold Strategy.riskIssues
  rw [h.riskParams, h.category, (h.blocksOf .risk).isEmpty_eq]

/-- An exact sum does not depend on the order. -/
theorem estimateGas (h : Reordered s' s) (catalog : Catalog) :
    s'.estimateGas Rat catalog = s.estimateGas Rat catalog := by
  have hcomm : RightCommutative fun x y : Rat => x + y := ⟨add_right_comm⟩
  exact congrArg (Scalar.round 6) ((h.blocks.filterMap _).foldl_eq _)

theorem complianceIssues (h : Reordered s' s) (config : ValidationConfig) (catalog : Catalog) :
    (s'.complianceIssues Rat config catalog).Perm (s.complianceIssues Rat config catalog) := by
  unfold Strategy.complianceIssues
  rw [h.estimateGas]
  exact ((List.Perm.refl _).append ((h.usedTokens.filter _).map _)).append
    ((h.usedProtocols.filter _).map _)

theorem securityChecks (R : Type) [Scalar R] (h : Reordered s' s) (config : ValidationConfig) :
    s'.securityChecks R config = s.securityChecks R config := by
  unfold Strategy.securityChecks hasStopLoss
  rw [h.blocks.any_eq, h.blocks.any_eq, (h.blocksOf .risk).isEmpty_eq, h.riskParams, h.settings,
    h.usedTokens.all_eq, h.usedProtocols.all_eq, h.findCycle_isEmpty]

end Reordered

end Strategy

/-! ## Findings -/

/-- The finding, but without the path if it reports a cycle. -/
def Issue.unpathed (i : Issue) : Issue :=
  if i.code = .circularDependency then { i with message := "" } else i

namespace Issue

@[simp]
theorem unpathed_severity (i : Issue) : i.unpathed.severity = i.severity := by
  unfold unpathed
  split <;> rfl

@[simp]
theorem unpathed_code (i : Issue) : i.unpathed.code = i.code := by
  unfold unpathed
  split <;> rfl

/-- Lists of findings that are the same up to order and the paths of cycles. -/
def Alike (xs ys : List Issue) : Prop := (xs.map unpathed).Perm (ys.map unpathed)

variable {xs ys : List Issue}

theorem Alike.of_perm (h : xs.Perm ys) : Alike xs ys := h.map _

theorem Alike.append {xs' ys' : List Issue} (h : Alike xs ys) (h' : Alike xs' ys') :
    Alike (xs ++ xs') (ys ++ ys') := by
  unfold Alike
  rw [List.map_append, List.map_append]
  exact List.Perm.append h h'

/-- What is selected by severity and code is alike too. -/
theorem Alike.filter (h : Alike xs ys) (p : Issue → Bool) (hp : ∀ i : Issue, p i.unpathed = p i) :
    Alike (xs.filter p) (ys.filter p) := by
  have hmap : ∀ zs : List Issue, (zs.filter p).map unpathed = (zs.map unpathed).filter p := by
    intro zs
    rw [List.filter_map, show p ∘ unpathed = p from funext hp]
  unfold Alike
  rw [hmap, hmap]
  exact List.Perm.filter p h

theorem Alike.any_eq (h : Alike xs ys) (p : Issue → Bool) (hp : ∀ i : Issue, p i.unpathed = p i) :
    xs.any p = ys.any p := by
  have hany : (xs.map unpathed).any p = (ys.map unpathed).any p := List.Perm.any_eq h
  rwa [List.any_map, List.any_map, show p ∘ unpathed = p from funext hp] at hany

theorem Alike.length_eq (h : Alike xs ys) : xs.length = ys.length := by
  simpa using List.Perm.length_eq h

/-- Findings that report no cycle are alike only if they are the same up to order. -/
theorem Alike.perm (h : Alike xs ys) :
    (xs.filter (·.code != .circularDependency)).Perm (ys.filter (·.code != .circularDependency)) := by
  have hsame : ∀ zs : List Issue, (zs.filter (·.code != .circularDependency)).map unpathed =
      zs.filter (·.code != .circularDependency) := by
    intro zs
    refine (List.map_congr_left fun i hi => ?_).trans (List.map_id _)
    exact if_neg (bne_iff_ne.1 (List.mem_filter.1 hi).2)
  have hfilter := h.filter (·.code != .circularDependency) fun i => by rw [unpathed_code]
  unfold Alike at hfilter
  rwa [hsame, hsame] at hfilter

end Issue

namespace Strategy.Reordered

open Issue

variable {R : Type} [Scalar R] {s s' : Strategy}

theorem structureIssues (h : Reordered s' s) : Alike s'.structureIssues s.structureIssues := by
  -- the only finding that tells of the order is the one about the cycle
  have hcycle : ∀ cycle cycle' : List String, cycle'.isEmpty = cycle.isEmpty →
      Alike
        (if cycle'.isEmpty then [] else [Issue.general .error .circularDependency
          ("Circular dependency detected: " ++ String.intercalate " -> " cycle')])
        (if cycle.isEmpty then [] else [Issue.general .error .circularDependency
          ("Circular dependency detected: " ++ String.intercalate " -> " cycle)]) := by
    intro cycle cycle' hempty
    rw [hempty]
    split <;> exact .refl _
  unfold Strategy.structureIssues
  simp only [(h.blocksOf .trigger).isEmpty_eq, (h.blocksOf .action).isEmpty_eq, h.lookup]
  exact ((Alike.of_perm (.refl _)).append (hcycle _ _ h.findCycle_isEmpty)).append
    (.of_perm (h.findUnreachable.filterMap _))

/-- Findings are the same up to their order and the cycle that is reported. -/
theorem findings (h : Reordered s' s) (v : Validator) (hrules : v.rules = []) :
    Alike (v.findingsApart R Rat s') (v.findingsApart R Rat s) := by
  unfold Validator.findingsApart
  rw [hrules, h.riskIssues R, List.filterMap_nil, List.filterMap_nil]
  exact ((((h.structureIssues.append (.of_perm h.connectionIssues)).append
    (.of_perm (h.blocks.flatMap_right _))).append (.of_perm (.refl _))).append
    (.of_perm (h.complianceIssues v.config v.catalog))).append (.of_perm (.refl _))

theorem riskScore (h : Reordered s' s) {xs ys : List Issue} (hfindings : Alike xs ys) :
    s'.riskScore R xs = s.riskScore R ys := by
  have hcount : (xs.filter (·.code == .riskExceeded)).length =
      (ys.filter (·.code == .riskExceeded)).length :=
    (hfindings.filter _ fun i => by rw [unpathed_code]).length_eq
  unfold Strategy.riskScore rawRisk
  rw [h.riskParams, h.category, hcount]

end Strategy.Reordered

/-! ## Verdicts -/

/-- Verdicts that differ in the order of findings and in the cycle that is reported only. -/
structure Verdict.Agree {G : Type} (r' r : Verdict G) : Prop where
  valid : r'.valid = r.valid
  riskScore : r'.riskScore = r.riskScore
  estimatedGas : r'.estimatedGas = r.estimatedGas
  checks : r'.checks = r.checks
  circular : r'.errors.any (·.code == .circularDependency) =
    r.errors.any (·.code == .circularDependency)
  errors : (r'.errors.filter (·.code != .circularDependency)).Perm
    (r.errors.filter (·.code != .circularDependency))
  warnings : (r'.warnings.filter (·.code != .circularDependency)).Perm
    (r.warnings.filter (·.code != .circularDependency))

namespace Validator

/-- The same fault, or verdicts that agree. -/
def OutcomesAgree {G : Type} : (outcome' outcome : Except Fault (Verdict G)) → Prop
  | .ok r', .ok r => r'.Agree r
  | .error f', .error f => f' = f
  | _, _ => False

variable {R : Type} [Scalar R]

theorem decide_alike (config : ValidationConfig) {errors errors' warnings warnings' : List Issue}
    (herrors : Issue.Alike errors' errors) (hwarnings : Issue.Alike warnings' warnings) :
    decide config errors' warnings' = decide config errors warnings := by
  have hempty : errors'.isEmpty = errors.isEmpty := by
    rw [Bool.eq_iff_iff, List.isEmpty_iff_length_eq_zero, List.isEmpty_iff_length_eq_zero,
      herrors.length_eq]
  have hany := hwarnings.any_eq (·.severity == .warning) fun i => by
    rw [Issue.unpathed_severity]
  rw [decide, decide, hempty, hany]

/-- Reordered strategies have verdicts that agree. -/
theorem agree_of_reordered {s s' : Strategy} (v : Validator) (hrules : v.rules = [])
    (h : s'.Reordered s) :
    OutcomesAgree (v.validateApart R Rat s') (v.validateApart R Rat s) := by
  have hfindings := h.findings (R := R) v hrules
  have herrors := hfindings.filter (·.severity == .error) fun i => by
    rw [Issue.unpathed_severity]
  have hwarnings := hfindings.filter (·.severity != .error) fun i => by
    rw [Issue.unpathed_severity]
  unfold validateApart
  dsimp only
  rw [h.riskScore hfindings]
  cases s.riskScore R (v.findingsApart R Rat s) with
  | error f => rfl
  | ok score =>
    exact
      { valid := decide_alike v.config herrors hwarnings
        riskScore := rfl
        estimatedGas := h.estimateGas v.catalog
        checks := by dsimp only; rw [h.securityChecks R]
        circular := herrors.any_eq _ fun i => by rw [Issue.unpathed_code]
        errors := herrors.perm
        warnings := hwarnings.perm }

/-- With the gas summed exactly, and all else in any arithmetic, listing connections in another order
does not change the verdict but for the order of findings and the cycle that is reported; neither does
listing blocks in another order if their ids are different. -/
theorem validate_reordered (R : Type) [Scalar R] (v : Validator) (hrules : v.rules = [])
    (s : Strategy) :
    (∀ connections, connections.Perm s.connections →
      OutcomesAgree (v.validateApart R Rat { s with connections := connections })
        (v.validateApart R Rat s)) ∧
    ((s.blocks.map (·.id)).Nodup → ∀ blocks, blocks.Perm s.blocks →
      OutcomesAgree (v.validateApart R Rat { s with blocks := blocks })
        (v.validateApart R Rat s)) :=
  ⟨fun _ hperm => agree_of_reordered v hrules (s.reordered_connections hperm),
    fun hnodup _ hperm => agree_of_reordered v hrules (s.reordered_blocks hperm hnodup)⟩

set_option maxRecDepth 4000 in
/-- The hourly swap with the action before the trigger. -/
theorem hourlySwap_reversed_valid :
    (hourlySwap.blocks.map (·.id)).Nodup ∧
    ∃ r r', standard.validateApart Float Rat hourlySwap = .ok r ∧
      standard.validateApart Float Rat
        { hourlySwap with blocks := hourlySwap.blocks.reverse } = .ok r' ∧
      r'.Agree r ∧ r'.valid = true := by
  have hnodup : (hourlySwap.blocks.map (·.id)).Nodup := by decide
  obtain ⟨r, hr, hvalid⟩ : ∃ r : Verdict Rat,
      standard.validateApart Float Rat hourlySwap = .ok r ∧ r.valid = true := by
    have hcycle : hourlySwap.findCycle = [] := by cbv
    have hreach : hourlySwap.findUnreachable = [] := by cbv
    refine Except.exists_of_map ?_
    rw [validateApart, findingsApart, Strategy.structureIssues, hcycle, hreach]
    decide +kernel
  have hagree := (validate_reordered Float standard rfl hourlySwap).2 hnodup _
    (List.reverse_perm _)
  refine ⟨hnodup, ?_⟩
  rw [hr] at hagree
  cases hr' : standard.validateApart Float Rat
      { hourlySwap with blocks := hourlySwap.blocks.reverse } with
  | error f =>
    rw [hr'] at hagree
    cases hagree
  | ok r' =>
    rw [hr'] at hagree
    have hsame : r'.Agree r := hagree
    exact ⟨r, r', hr, rfl, hsame, hsame.valid.trans hvalid⟩

end Validator

end Tradeflow
