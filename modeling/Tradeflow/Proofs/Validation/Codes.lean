/-
  Which pass reports which kind of finding. Each pass but the first is restricted to a few codes
  (`Coded`), whatever the strategy, the settings of the validator and the arithmetic; no finding of the
  pass has a code that is not among them (`Coded.ne`).
-/
import Tradeflow.Proofs.Validation.Acceptance

namespace Tradeflow

/-- All findings have one of some codes. -/
def Coded (codes : List IssueCode) (issues : List Issue) : Prop := ∀ i ∈ issues, i.code ∈ codes

namespace Coded

variable {codes codes' : List IssueCode} {xs ys : List Issue}

theorem nil : Coded codes [] := List.forall_mem_nil _

theorem append (hx : Coded codes xs) (hy : Coded codes ys) : Coded codes (xs ++ ys) :=
  List.forall_mem_append.2 ⟨hx, hy⟩

theorem mono (h : Coded codes xs) (hsub : codes ⊆ codes') : Coded codes' xs :=
  fun i hi => hsub (h i hi)

theorem flatMap {α : Type} {items : List α} {f : α → List Issue} (h : ∀ x, Coded codes (f x)) :
    Coded codes (items.flatMap f) := by
  intro i hi
  obtain ⟨x, -, hx⟩ := List.mem_flatMap.1 hi
  exact h x i hx

theorem ne (h : Coded codes xs) {code : IssueCode} (hcode : code ∉ codes) :
    ∀ i ∈ xs, i.code ≠ code :=
  fun i hi heq => hcode (heq ▸ h i hi)

end Coded

namespace Block

theorem coded_whitelistIssues (config : ValidationConfig) (b : Block) :
    Coded [.unsupportedToken, .unsupportedProtocol] (b.whitelistIssues config) := by
  have htokens : Coded [.unsupportedToken, .unsupportedProtocol] (b.tokenIssues config) :=
    Issue.forall_nameIssues b tokenKeys fun _ _ => List.mem_cons_self
  have hprotocols : Coded [.unsupportedToken, .unsupportedProtocol] (b.protocolIssues config) :=
    Issue.forall_nameIssues b protocolKeys fun _ _ => List.mem_cons_of_mem _ List.mem_cons_self
  have hboth := htokens.append hprotocols
  unfold whitelistIssues
  cases b.category with
  | trigger | condition | action => exact hboth
  | risk | capital | data | utility => exact .nil

theorem coded_operatorIssues (b : Block) : Coded [.invalidConfig] b.operatorIssues := by
  unfold operatorIssues
  split
  · exact .nil
  · exact Issue.forall_ite List.mem_cons_self

theorem coded_categoryIssues (b : Block) :
    Coded [.invalidConfig, .riskExceeded] b.categoryIssues := by
  have hlimits : Coded [.invalidConfig] b.limitIssues :=
    List.forall_mem_map.2 fun _ _ => List.mem_cons_self
  have hslippage : Coded [.riskExceeded] b.slippageIssues := Issue.forall_ite List.mem_cons_self
  unfold categoryIssues
  cases b.category with
  | action => exact hslippage.mono (by decide)
  | risk => exact hlimits.mono (by decide)
  | condition => exact b.coded_operatorIssues.mono (by decide)
  | trigger | capital | data | utility => exact .nil

theorem coded_issues (config : ValidationConfig) (catalog : Catalog) (b : Block) :
    Coded [.invalidConfig, .missingRequiredInput, .unsupportedToken, .unsupportedProtocol,
      .riskExceeded] (b.issues config catalog) := by
  have htype : Coded [.invalidConfig] (b.typeIssues catalog) := Issue.forall_ite List.mem_cons_self
  have hschedule : Coded [.missingRequiredInput] b.scheduleIssues :=
    Issue.forall_ite List.mem_cons_self
  exact (htype.mono (by decide)).append (((hschedule.mono (by decide)).append
    ((b.coded_whitelistIssues config).mono (by decide))).append
      (b.coded_categoryIssues.mono (by decide)))

end Block

namespace Strategy

theorem coded_connectionIssues (s : Strategy) :
    Coded [.invalidConnection, .typeMismatch, .missingRequiredInput] s.connectionIssues := by
  have hopen : ∀ b, Coded [.missingRequiredInput] (s.openInputIssues b) := by
    intro b
    unfold openInputIssues
    split
    · exact .nil
    · exact List.forall_mem_map.2 fun _ _ => List.mem_cons_self
  refine Coded.append (Issue.forall_filterMap fun c i hi => ?_) ((Coded.flatMap hopen).mono (by decide))
  unfold connectionIssue? at hi
  repeat' split at hi
  all_goals cases hi
  all_goals simp [Issue.ofConnection]

theorem coded_riskIssues (R : Type) [Scalar R] (s : Strategy) :
    Coded [.riskExceeded] (s.riskIssues R) := by
  unfold riskIssues
  repeat' apply Coded.append
  all_goals exact Issue.forall_ite List.mem_cons_self

theorem coded_complianceIssues (R : Type) [Scalar R] (config : ValidationConfig)
    (catalog : Catalog) (s : Strategy) :
    Coded [.invalidConfig, .unsupportedToken, .unsupportedProtocol]
      (s.complianceIssues R config catalog) := by
  have hbudget : IssueCode.invalidConfig ∈
      [IssueCode.invalidConfig, .unsupportedToken, .unsupportedProtocol] := by decide
  have htoken : IssueCode.unsupportedToken ∈
      [IssueCode.invalidConfig, .unsupportedToken, .unsupportedProtocol] := by decide
  have hprotocol : IssueCode.unsupportedProtocol ∈
      [IssueCode.invalidConfig, .unsupportedToken, .unsupportedProtocol] := by decide
  exact Coded.append (Coded.append (Issue.forall_ite hbudget)
    (List.forall_mem_map.2 fun _ _ => htoken)) (List.forall_mem_map.2 fun _ _ => hprotocol)

end Strategy

end Tradeflow
