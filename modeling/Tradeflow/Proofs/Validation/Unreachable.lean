/-
  The blocks that no trigger leads to, as they are found and as they are reported. The search finds
  their ids (`findUnreachable_eq`); for each id the first block that has it is looked up, which is the
  block itself when ids are different (`block?_of_mem`), and utility blocks are left out. No other pass
  reports such a block (`Coded`), so nothing but further rules can add to these findings.
  `unreachable_reported`: what is found, and what the verdict says of it.
-/
import Tradeflow.Proofs.Validation.Codes
import Tradeflow.Proofs.Validation.Reachability

namespace Tradeflow

/-- The warning about a block that no trigger leads to. -/
def Block.unreachableIssue (b : Block) : Issue :=
  ⟨.warning, .unreachableBlock, "Block \"" ++ b.name ++ "\" is not connected and will not execute",
    some b.id, none, none⟩

/-- The findings that a block is not reached. -/
def Issue.unreachable (issues : List Issue) : List Issue :=
  issues.filter (·.code == .unreachableBlock)

theorem Issue.unreachable_append (xs ys : List Issue) :
    unreachable (xs ++ ys) = unreachable xs ++ unreachable ys := List.filter_append _ _

theorem Issue.unreachable_of_ne {issues : List Issue} (h : ∀ i ∈ issues, i.code ≠ .unreachableBlock) :
    unreachable issues = [] :=
  List.filter_eq_nil_iff.2 fun i hi => by simpa using h i hi

namespace Strategy

open Classical in
/-- The blocks that no trigger leads to, in any number of steps, and that are no triggers themselves. -/
noncomputable def unreached (s : Strategy) : List Block :=
  s.blocks.filter fun b => ¬ s.Triggered b.id ∧ b.category ≠ .trigger

theorem findUnreachable_eq_map (s : Strategy) : s.findUnreachable = s.unreached.map (·.id) :=
  s.findUnreachable_eq

variable {s : Strategy} (hnodup : (s.blocks.map (·.id)).Nodup)

include hnodup in
/-- Of the findings about the structure, those that a block is not reached: with different ids, the
block that is looked up for an id is the one it was found for. -/
theorem unreachable_structureIssues :
    Issue.unreachable s.structureIssues =
      (s.unreached.filter (·.category != .utility)).map Block.unreachableIssue := by
  have htrigger : IssueCode.missingTrigger ≠ .unreachableBlock := by decide
  have haction : IssueCode.missingRequiredInput ≠ .unreachableBlock := by decide
  have hcycle : IssueCode.circularDependency ≠ .unreachableBlock := by decide
  unfold structureIssues
  dsimp only
  rw [Issue.unreachable_append, Issue.unreachable_append, Issue.unreachable_append,
    Issue.unreachable_of_ne (Issue.forall_ite htrigger),
    Issue.unreachable_of_ne (Issue.forall_ite haction),
    Issue.unreachable_of_ne (Issue.forall_else hcycle), List.nil_append, List.nil_append,
    List.nil_append, Issue.unreachable, List.filter_filterMap, findUnreachable_eq_map,
    List.filterMap_map, ← List.filterMap_eq_map, List.filterMap_filter]
  refine List.filterMap_congr fun b hb => ?_
  rw [Function.comp_apply, block?_of_mem hnodup (List.mem_of_mem_filter hb)]
  by_cases hutility : b.category = .utility
  · simp [hutility]
  · simp [hutility, Block.unreachableIssue]

/-- Only the pass over the structure and further rules report that a block is not reached. -/
theorem unreachable_findings (R : Type) [Scalar R] (v : Validator) (s : Strategy) :
    Issue.unreachable (v.findings R s) =
      Issue.unreachable s.structureIssues ++ Issue.unreachable (v.rules.filterMap (· s)) := by
  have hconnections : ∀ i ∈ s.connectionIssues, i.code ≠ .unreachableBlock :=
    s.coded_connectionIssues.ne (by decide)
  have hblocks : ∀ i ∈ s.blocks.flatMap (Block.issues v.config v.catalog),
      i.code ≠ .unreachableBlock :=
    (Coded.flatMap (Block.coded_issues v.config v.catalog)).ne (by decide)
  have hrisk : ∀ i ∈ s.riskIssues R, i.code ≠ .unreachableBlock :=
    (s.coded_riskIssues R).ne (by decide)
  have hcompliance : ∀ i ∈ s.complianceIssues R v.config v.catalog, i.code ≠ .unreachableBlock :=
    (s.coded_complianceIssues R v.config v.catalog).ne (by decide)
  rw [Validator.findings, Issue.unreachable_append, Issue.unreachable_append,
    Issue.unreachable_append, Issue.unreachable_append, Issue.unreachable_append,
    Issue.unreachable_of_ne hconnections, Issue.unreachable_of_ne hblocks,
    Issue.unreachable_of_ne hrisk, Issue.unreachable_of_ne hcompliance, List.append_nil,
    List.append_nil, List.append_nil, List.append_nil]

/-- The search finds, in the order of blocks, the ids of the blocks other than triggers that no trigger
leads to. With different ids, there is one finding for each of them that is no utility block, in the
same order, and whatever else is found of this kind comes from further rules. These are warnings, so
that a verdict warns of them. -/
theorem unreachable_reported (s : Strategy) :
    s.findUnreachable = s.unreached.map (·.id) ∧
    ((s.blocks.map (·.id)).Nodup → ∀ (R : Type) [Scalar R] (v : Validator),
      Issue.unreachable (v.findings R s) =
        (s.unreached.filter (·.category != .utility)).map Block.unreachableIssue ++
          Issue.unreachable (v.rules.filterMap (· s)) ∧
      ∀ r : Verdict R, v.validate R s = .ok r →
        Issue.unreachable r.warnings =
          (s.unreached.filter (·.category != .utility)).map Block.unreachableIssue ++
            Issue.unreachable ((v.rules.filterMap (· s)).filter (·.severity != .error))) := by
  refine ⟨s.findUnreachable_eq_map, fun hnodup R _ v => ?_⟩
  have hfindings : Issue.unreachable (v.findings R s) =
      (s.unreached.filter (·.category != .utility)).map Block.unreachableIssue ++
        Issue.unreachable (v.rules.filterMap (· s)) := by
    rw [unreachable_findings, unreachable_structureIssues hnodup]
  refine ⟨hfindings, fun r hr => ?_⟩
  have hwarning : ∀ i ∈ (s.unreached.filter (·.category != .utility)).map Block.unreachableIssue,
      (i.severity != .error) = true :=
    List.forall_mem_map.2 fun _ _ => rfl
  obtain ⟨-, hwarnings, -⟩ := Validator.of_validate hr
  rw [hwarnings, Issue.unreachable, List.filter_comm, ← Issue.unreachable, hfindings,
    List.filter_append, List.filter_eq_self.2 hwarning, Issue.unreachable, List.filter_comm]
  rfl

/-- An action that leads to the swap of every hour, and nothing leads to it. -/
def strandedAction : Block :=
  { id := "b", category := .action, name := "Stake", type := some "action_stake", description := "",
    version := "1.0.0", config := [], position := ⟨0, 0⟩, inputs := [], outputs := [],
    enabled := true, actionKind := none, metadata := [] }

/-- The swap of every hour, an action that only leads on, to the swap and to a block that is missing,
and a comment. -/
def strandedSwap : Strategy :=
  { Validator.hourlySwap with
    blocks := strandedAction :: { strandedAction with id := "n", category := .utility } ::
      Validator.hourlySwap.blocks
    connections := ⟨"d", "b", "out", "a", "in", none⟩ :: ⟨"e", "b", "out", "gone", "in", none⟩ ::
      Validator.hourlySwap.connections }

set_option maxRecDepth 4000 in
/-- The action is reported, and the comment is not. -/
theorem strandedSwap_reported :
    strandedSwap.findUnreachable = ["b", "n"] ∧ (strandedSwap.blocks.map (·.id)).Nodup ∧
    ∃ r, Validator.standard.validate Float strandedSwap = .ok r ∧
      Issue.unreachable r.warnings = [strandedAction.unreachableIssue] ∧
      Issue.unreachable r.warnings =
        (strandedSwap.unreached.filter (·.category != .utility)).map Block.unreachableIssue := by
  have hcycle : strandedSwap.findCycle = [] := by cbv
  have hreach : strandedSwap.findUnreachable = ["b", "n"] := by cbv
  have hnodup : (strandedSwap.blocks.map (·.id)).Nodup := by decide
  obtain ⟨r, hr, hwarnings⟩ : ∃ r : Verdict Float,
      Validator.standard.validate Float strandedSwap = .ok r ∧
        Issue.unreachable r.warnings = [strandedAction.unreachableIssue] := by
    refine Except.exists_of_map ?_
    rw [Validator.validate, Validator.findings, structureIssues, hcycle, hreach]
    decide +kernel
  refine ⟨hreach, hnodup, r, hr, hwarnings, ?_⟩
  have hreported := ((unreachable_reported strandedSwap).2 hnodup Float .standard).2 r hr
  rwa [show Validator.standard.rules = [] from rfl, List.filterMap_nil, List.filter_nil,
    show Issue.unreachable [] = [] from rfl, List.append_nil] at hreported

end Strategy

end Tradeflow
