/-
  The whitelists of tokens and protocols in the three places that look at them: the findings about a
  block, the findings about the strategy, and the security checks. A lemma for each place says which
  names it reports (`reported_token_iff`, `mem_compliance_token_iff` and those for protocols), and then
  the places are compared. Placeholders are no names yet; the findings about a block pass over tokens
  that are placeholders, but not over such protocols.
  `whitelists_agree`: the places agree on every token, and on every protocol that is no placeholder;
  and a check fails exactly if the findings about the strategy report a name.
-/
import Tradeflow.Proofs.Validation.Acceptance

namespace Tradeflow

/-- The codes of findings about names that are not allowed. -/
def IssueCode.OfName (code : IssueCode) : Prop := code = .unsupportedToken ∨ code = .unsupportedProtocol

instance : DecidablePred IssueCode.OfName := fun _ => inferInstanceAs (Decidable (_ ∨ _))

namespace Block

variable {config : ValidationConfig} {catalog : Catalog} {b : Block} {key name : String}

/-! ## Findings about a block -/

/-- A finding with this code is reported for a setting of the block. -/
def Reported (config : ValidationConfig) (catalog : Catalog) (b : Block) (code : IssueCode)
    (key : String) : Prop :=
  ∃ i ∈ b.issues config catalog, i.code = code ∧ i.field = some key

/-- Triggers, conditions and actions, whose names are compared with the whitelists. -/
def Listed (b : Block) : Prop :=
  b.category = .trigger ∨ b.category = .condition ∨ b.category = .action

theorem name?_eq_some_iff :
    b.name? key = some name ↔ b.setting? key = some (.str name) ∧ name ≠ "" := by
  rw [name?, Option.filter_eq_some_iff, bne_iff_ne]
  refine and_congr_left fun _ => ?_
  cases b.setting? key with
  | none => simp
  | some v => cases v <;> simp [Json.text?]

/-- Findings with a code of names come from the whitelists. -/
theorem mem_issues_iff {i : Issue} (hcode : i.code.OfName) :
    i ∈ b.issues config catalog ↔ i ∈ b.whitelistIssues config := by
  have hnone : ∀ {issues : List Issue}, (∀ j ∈ issues, ¬ j.code.OfName) → i ∉ issues :=
    fun h hmem => h i hmem hcode
  have hconfig : ¬ IssueCode.invalidConfig.OfName := by decide
  have hinput : ¬ IssueCode.missingRequiredInput.OfName := by decide
  have hrisk : ¬ IssueCode.riskExceeded.OfName := by decide
  have htype : i ∉ b.typeIssues catalog := hnone (Issue.forall_ite hconfig)
  have hschedule : i ∉ b.scheduleIssues := hnone (Issue.forall_ite hinput)
  have hcategory : i ∉ b.categoryIssues := by
    unfold categoryIssues
    split
    · exact hnone (Issue.forall_ite hrisk)
    · exact hnone (List.forall_mem_map.2 fun _ _ => hconfig)
    · unfold operatorIssues
      split
      · exact List.not_mem_nil
      · exact hnone (Issue.forall_ite hconfig)
    · exact List.not_mem_nil
  rw [issues, settingIssues, List.mem_append, List.mem_append, List.mem_append]
  simp only [htype, hschedule, hcategory, false_or, or_false]

/-- Findings about names that are not allowed, one for each key that holds such a name. -/
theorem mem_nameIssues_iff {keys : List String} {allowed : String → Bool} {code : IssueCode}
    {text : String → String} {i : Issue} :
    i ∈ keys.filterMap (fun k => (b.name? k).bind fun name =>
        if allowed name then none else some (.ofBlock b .warning code (text name) k)) ↔
    ∃ key ∈ keys, ∃ name, b.name? key = some name ∧ allowed name = false ∧
      i = .ofBlock b .warning code (text name) key := by
  simp only [List.mem_filterMap, Option.bind_eq_some_iff]
  refine exists_congr fun key => and_congr_right fun _ => exists_congr fun name =>
    and_congr_right fun _ => ?_
  cases allowed name <;> simp [eq_comm]

/-- Of the findings about a block, those about names are looked for in the names of the block. -/
theorem reported_iff (hlisted : b.Listed) {code : IssueCode} (hcode : code.OfName) :
    b.Reported config catalog code key ↔
      (∃ i ∈ b.tokenIssues config, i.code = code ∧ i.field = some key) ∨
      (∃ i ∈ b.protocolIssues config, i.code = code ∧ i.field = some key) := by
  have hboth : b.whitelistIssues config = b.tokenIssues config ++ b.protocolIssues config := by
    unfold whitelistIssues
    rcases hlisted with h | h | h <;> rw [h]
  simp only [Reported, ← exists_or, ← or_and_right, ← List.mem_append, ← hboth]
  refine exists_congr fun i => and_congr_left fun hi => mem_issues_iff ?_
  rw [hi.1]
  exact hcode

/-- One of these findings is about a setting exactly if the name in it is not allowed. -/
theorem exists_nameIssue_iff {keys : List String} {allowed : String → Bool} {code : IssueCode}
    {text : String → String} (hkey : key ∈ keys) (hname : b.setting? key = some (.str name)) :
    (∃ i ∈ keys.filterMap (fun k => (b.name? k).bind fun name =>
        if allowed name then none else some (Issue.ofBlock b .warning code (text name) k)),
      i.code = code ∧ i.field = some key) ↔ name ≠ "" ∧ allowed name = false := by
  simp only [mem_nameIssues_iff]
  constructor
  · rintro ⟨_, ⟨k, -, name', hname', hallowed, rfl⟩, -, hfield⟩
    cases hfield
    obtain ⟨hsetting, hne⟩ := name?_eq_some_iff.1 hname'
    rw [hname] at hsetting
    cases hsetting
    exact ⟨hne, hallowed⟩
  · rintro ⟨hne, hallowed⟩
    exact ⟨_, ⟨key, hkey, name, name?_eq_some_iff.2 ⟨hname, hne⟩, hallowed, rfl⟩, rfl, rfl⟩

/-- A block is reported for a token that is not allowed and no placeholder. -/
theorem reported_token_iff (hlisted : b.Listed) (hkey : key ∈ tokenKeys)
    (hname : b.setting? key = some (.str name)) :
    b.Reported config catalog .unsupportedToken key ↔
      name ≠ "" ∧ Text.isPlaceholder name = false ∧ config.tokenAllowed name = false := by
  have hcode : IssueCode.unsupportedProtocol ≠ .unsupportedToken := by decide
  have hother : ∀ i ∈ b.protocolIssues config, i.code ≠ .unsupportedToken :=
    Issue.forall_nameIssues b protocolKeys fun _ _ => hcode
  rw [reported_iff hlisted (.inl rfl), or_iff_left fun ⟨i, hi, heq, _⟩ => hother i hi heq,
    ← Bool.or_eq_false_iff]
  exact exists_nameIssue_iff hkey hname

/-- A block is reported for a protocol that is not allowed, placeholders included. -/
theorem reported_protocol_iff (hlisted : b.Listed) (hkey : key ∈ protocolKeys)
    (hname : b.setting? key = some (.str name)) :
    b.Reported config catalog .unsupportedProtocol key ↔
      name ≠ "" ∧ config.protocolAllowed name = false := by
  have hcode : IssueCode.unsupportedToken ≠ .unsupportedProtocol := by decide
  have hother : ∀ i ∈ b.tokenIssues config, i.code ≠ .unsupportedProtocol :=
    Issue.forall_nameIssues b tokenKeys fun _ _ => hcode
  rw [reported_iff hlisted (.inr rfl), or_iff_right fun ⟨i, hi, heq, _⟩ => hother i hi heq]
  exact exists_nameIssue_iff hkey hname

end Block

namespace Strategy

variable {R : Type} [Scalar R] {config : ValidationConfig} {catalog : Catalog} {s : Strategy}
  {b : Block} {key name : String}

/-! ## Names that a strategy uses -/

theorem mem_usedTokens_of_setting (hb : b ∈ s.blocks) (hkey : key ∈ tokenKeys)
    (hname : b.setting? key = some (.str name)) :
    name ∈ s.usedTokens ↔ name ≠ "" ∧ Text.isPlaceholder name = false := by
  unfold usedTokens
  dsimp only
  rw [List.mem_filter, List.mem_eraseDups, List.mem_append, Bool.and_eq_true, bne_iff_ne,
    Bool.not_eq_true']
  refine and_iff_right_of_imp fun ⟨hne, _⟩ => .inl ?_
  exact List.mem_flatMap.2
    ⟨b, hb, List.mem_filterMap.2 ⟨key, hkey, Block.name?_eq_some_iff.2 ⟨hname, hne⟩⟩⟩

theorem mem_usedProtocols_of_setting (hb : b ∈ s.blocks) (hkey : key ∈ protocolKeys)
    (hname : b.setting? key = some (.str name)) :
    name ∈ s.usedProtocols ↔ name ≠ "" ∧ name ≠ "auto" ∧ Text.isPlaceholder name = false := by
  unfold usedProtocols
  dsimp only
  rw [List.mem_filter, List.mem_eraseDups, Bool.and_eq_true, bne_iff_ne, Bool.not_eq_true']
  refine and_congr_left fun _ => ⟨fun hmem => ?_, fun hne => ?_⟩
  · obtain ⟨b', -, hmem⟩ := List.mem_flatMap.1 hmem
    obtain ⟨k, -, hk⟩ := List.mem_filterMap.1 hmem
    exact (Block.name?_eq_some_iff.1 hk).2
  · exact List.mem_flatMap.2
      ⟨b, hb, List.mem_filterMap.2 ⟨key, hkey, Block.name?_eq_some_iff.2 ⟨hname, hne⟩⟩⟩

/-! ## Findings about the strategy -/

/-- The finding about a token that the strategy uses. -/
def tokenFinding (name : String) : Issue :=
  .general .warning .unsupportedToken ("Token \"" ++ name ++ "\" is not in the allowed list")

/-- The finding about a protocol that the strategy uses. -/
def protocolFinding (name : String) : Issue :=
  .general .warning .unsupportedProtocol ("Protocol \"" ++ name ++ "\" is not in the allowed list")

theorem text_injective {lead trail name name' : String}
    (h : lead ++ name ++ trail = lead ++ name' ++ trail) : name = name' := by
  have hchars := congrArg String.toList h
  rw [String.toList_append, String.toList_append, String.toList_append, String.toList_append] at hchars
  exact String.toList_inj.1 (List.append_cancel_left (List.append_cancel_right hchars))

theorem tokenFinding_injective : Function.Injective tokenFinding :=
  fun _ _ h => text_injective (congrArg Issue.message h)

theorem protocolFinding_injective : Function.Injective protocolFinding :=
  fun _ _ h => text_injective (congrArg Issue.message h)

/-- Findings about the strategy with a code of names are about names that it uses. -/
theorem mem_compliance_iff {i : Issue} (hcode : i.code.OfName) :
    i ∈ s.complianceIssues R config catalog ↔
      (∃ t ∈ s.usedTokens, config.tokenAllowed t = false ∧ tokenFinding t = i) ∨
      (∃ p ∈ s.usedProtocols, config.protocolAllowed p = false ∧ protocolFinding p = i) := by
  have hconfig : ¬ IssueCode.invalidConfig.OfName := by decide
  unfold complianceIssues
  dsimp only
  rw [List.mem_append, List.mem_append, List.mem_map, List.mem_map,
    or_iff_right fun hgas => Issue.forall_ite (q := fun j => ¬ j.code.OfName) hconfig i hgas hcode]
  simp only [List.mem_filter, Bool.not_eq_true', and_assoc]
  rfl

theorem mem_compliance_token_iff :
    tokenFinding name ∈ s.complianceIssues R config catalog ↔
      name ∈ s.usedTokens ∧ config.tokenAllowed name = false := by
  have hcode : IssueCode.unsupportedProtocol ≠ .unsupportedToken := by decide
  rw [mem_compliance_iff (.inl rfl),
    or_iff_left fun ⟨_, _, _, h⟩ => hcode (congrArg Issue.code h)]
  constructor
  · rintro ⟨t, hused, hallowed, heq⟩
    rw [← tokenFinding_injective heq]
    exact ⟨hused, hallowed⟩
  · exact fun ⟨hused, hallowed⟩ => ⟨name, hused, hallowed, rfl⟩

theorem mem_compliance_protocol_iff :
    protocolFinding name ∈ s.complianceIssues R config catalog ↔
      name ∈ s.usedProtocols ∧ config.protocolAllowed name = false := by
  have hcode : IssueCode.unsupportedToken ≠ .unsupportedProtocol := by decide
  rw [mem_compliance_iff (.inr rfl),
    or_iff_right fun ⟨_, _, _, h⟩ => hcode (congrArg Issue.code h)]
  constructor
  · rintro ⟨t, hused, hallowed, heq⟩
    rw [← protocolFinding_injective heq]
    exact ⟨hused, hallowed⟩
  · exact fun ⟨hused, hallowed⟩ => ⟨name, hused, hallowed, rfl⟩

theorem no_token_finding_iff :
    (∀ i ∈ s.complianceIssues R config catalog, i.code ≠ .unsupportedToken) ↔
      s.usedTokens.all config.tokenAllowed = true := by
  have hcode : IssueCode.unsupportedProtocol ≠ .unsupportedToken := by decide
  rw [List.all_eq_true]
  constructor
  · intro h t ht
    by_contra hallowed
    exact h (tokenFinding t)
      (mem_compliance_token_iff.2 ⟨ht, Bool.eq_false_iff.2 hallowed⟩) rfl
  · rintro h i hi heq
    rcases (mem_compliance_iff (.inl heq)).1 hi with ⟨t, ht, hallowed, -⟩ | ⟨_, _, _, rfl⟩
    · rw [h t ht] at hallowed
      cases hallowed
    · exact hcode heq

theorem no_protocol_finding_iff :
    (∀ i ∈ s.complianceIssues R config catalog, i.code ≠ .unsupportedProtocol) ↔
      s.usedProtocols.all config.protocolAllowed = true := by
  have hcode : IssueCode.unsupportedToken ≠ .unsupportedProtocol := by decide
  rw [List.all_eq_true]
  constructor
  · intro h p hp
    by_contra hallowed
    exact h (protocolFinding p)
      (mem_compliance_protocol_iff.2 ⟨hp, Bool.eq_false_iff.2 hallowed⟩) rfl
  · rintro h i hi heq
    rcases (mem_compliance_iff (.inr heq)).1 hi with ⟨_, _, _, rfl⟩ | ⟨p, hp, hallowed, -⟩
    · exact hcode heq
    · rw [h p hp] at hallowed
      cases hallowed

/-! ## The places compared -/

theorem protocolAllowed_auto (config : ValidationConfig) : config.protocolAllowed "auto" = true := by
  unfold ValidationConfig.protocolAllowed
  split <;> rfl

/-- The whitelists in their three places, for every strategy, validator and arithmetic. For a setting of
a trigger, a condition or an action that holds a token, the findings about the block report it exactly
if the findings about the strategy do; likewise for a protocol, unless it is a placeholder: then the
block is reported if the placeholder is not itself in the list, and the strategy never. Of the security
checks there is one for tokens and one for protocols, and each passes exactly if the findings about the
strategy report none. -/
theorem whitelists_agree (R : Type) [Scalar R] (config : ValidationConfig) (catalog : Catalog)
    (s : Strategy) :
    (∀ b ∈ s.blocks, b.Listed → ∀ key name, b.setting? key = some (.str name) →
      (key ∈ tokenKeys →
        (b.Reported config catalog .unsupportedToken key ↔
          tokenFinding name ∈ s.complianceIssues R config catalog)) ∧
      (key ∈ protocolKeys → Text.isPlaceholder name = false →
        (b.Reported config catalog .unsupportedProtocol key ↔
          protocolFinding name ∈ s.complianceIssues R config catalog)) ∧
      (key ∈ protocolKeys → Text.isPlaceholder name = true →
        (b.Reported config catalog .unsupportedProtocol key ↔ config.protocolAllowed name = false) ∧
        protocolFinding name ∉ s.complianceIssues R config catalog)) ∧
    (∃ check, (s.securityChecks R config).filter (·.name == "Whitelisted tokens only") = [check] ∧
      (check.passed = true ↔
        ∀ i ∈ s.complianceIssues R config catalog, i.code ≠ .unsupportedToken)) ∧
    (∃ check, (s.securityChecks R config).filter (·.name == "Whitelisted protocols only") = [check] ∧
      (check.passed = true ↔
        ∀ i ∈ s.complianceIssues R config catalog, i.code ≠ .unsupportedProtocol)) := by
  refine ⟨fun b hb hlisted key name hname => ⟨fun hkey => ?_, fun hkey hplain => ?_,
    fun hkey hplaceholder => ?_⟩, ⟨_, rfl, no_token_finding_iff.symm⟩,
    ⟨_, rfl, no_protocol_finding_iff.symm⟩⟩
  · rw [Block.reported_token_iff hlisted hkey hname, mem_compliance_token_iff,
      mem_usedTokens_of_setting hb hkey hname, and_assoc]
  · rw [Block.reported_protocol_iff hlisted hkey hname, mem_compliance_protocol_iff,
      mem_usedProtocols_of_setting hb hkey hname]
    refine ⟨fun ⟨hne, hallowed⟩ => ⟨⟨hne, ?_, hplain⟩, hallowed⟩,
      fun ⟨⟨hne, _⟩, hallowed⟩ => ⟨hne, hallowed⟩⟩
    rintro rfl
    rw [protocolAllowed_auto] at hallowed
    cases hallowed
  · rw [Block.reported_protocol_iff hlisted hkey hname, mem_compliance_protocol_iff,
      mem_usedProtocols_of_setting hb hkey hname, hplaceholder]
    refine ⟨and_iff_right ?_, fun h => by cases h.1.2.2⟩
    rintro rfl
    cases hplaceholder

/-- An action with a token and a protocol that are not allowed, and a placeholder for a protocol. -/
def exoticAction : Block :=
  { id := "a", category := .action, name := "Swap", type := some "action_swap", description := "",
    version := "1.0.0",
    config := [("fromToken", .str "SHIB"), ("dex", .str "uniswap"),
      ("protocol", .str "\x7b\x7bvenue\x7d\x7d")],
    position := ⟨0, 0⟩, inputs := [], outputs := [], enabled := true, actionKind := none,
    metadata := [] }

def exoticSwap : Strategy := { Validator.hourlySwap with blocks := [exoticAction] }

/-- Token and protocol are reported in both places, and the placeholder for the block alone. -/
theorem exoticSwap_reported :
    exoticAction ∈ exoticSwap.blocks ∧ exoticAction.Listed ∧
    exoticAction.setting? "fromToken" = some (.str "SHIB") ∧ "fromToken" ∈ tokenKeys ∧
    exoticAction.Reported .standard .core .unsupportedToken "fromToken" ∧
    tokenFinding "SHIB" ∈ exoticSwap.complianceIssues Float .standard .core ∧
    exoticAction.setting? "dex" = some (.str "uniswap") ∧ "dex" ∈ protocolKeys ∧
    Text.isPlaceholder "uniswap" = false ∧
    exoticAction.Reported .standard .core .unsupportedProtocol "dex" ∧
    protocolFinding "uniswap" ∈ exoticSwap.complianceIssues Float .standard .core ∧
    exoticAction.setting? "protocol" = some (.str "\x7b\x7bvenue\x7d\x7d") ∧ "protocol" ∈ protocolKeys ∧
    Text.isPlaceholder "\x7b\x7bvenue\x7d\x7d" = true ∧
    exoticAction.Reported .standard .core .unsupportedProtocol "protocol" ∧
    protocolFinding "\x7b\x7bvenue\x7d\x7d" ∉ exoticSwap.complianceIssues Float .standard .core := by
  have hlisted : exoticAction.Listed := .inr (.inr rfl)
  have hmem : exoticAction ∈ exoticSwap.blocks := List.mem_singleton_self _
  obtain ⟨hagree, -⟩ := whitelists_agree Float .standard .core exoticSwap
  have htoken : exoticAction.Reported .standard .core .unsupportedToken "fromToken" :=
    (Block.reported_token_iff hlisted (by decide) rfl).2 (by decide +kernel)
  have hprotocol : exoticAction.Reported .standard .core .unsupportedProtocol "dex" :=
    (Block.reported_protocol_iff hlisted (by decide) rfl).2 (by decide +kernel)
  obtain ⟨hreported, hunused⟩ := (hagree exoticAction hmem hlisted "protocol" "\x7b\x7bvenue\x7d\x7d"
    rfl).2.2 (by decide) (by decide)
  exact ⟨hmem, hlisted, rfl, by decide, htoken,
    ((hagree exoticAction hmem hlisted "fromToken" "SHIB" rfl).1 (by decide)).1 htoken, rfl, by decide,
    by decide, hprotocol,
    ((hagree exoticAction hmem hlisted "dex" "uniswap" rfl).2.1 (by decide) (by decide)).1 hprotocol,
    rfl, by decide, by decide, hreported.2 (by decide +kernel), hunused⟩

/-- The placeholder is reported for the block, and not for the strategy. -/
theorem placeholder_reported_for_block_alone :
    exoticAction ∈ exoticSwap.blocks ∧ exoticAction.category = .action ∧
    exoticAction.setting? "protocol" = some (.str "\x7b\x7bvenue\x7d\x7d") ∧ "protocol" ∈ protocolKeys ∧
    (∃ i ∈ exoticAction.issues .standard .core,
      i.code = .unsupportedProtocol ∧ i.field = some "protocol") ∧
    protocolFinding "\x7b\x7bvenue\x7d\x7d" ∉ exoticSwap.complianceIssues Float .standard .core := by
  have hprotocol : exoticAction.Reported .standard .core .unsupportedProtocol "protocol" :=
    (Block.reported_protocol_iff (.inr (.inr rfl)) (by decide) rfl).2 (by decide +kernel)
  have hunused : "\x7b\x7bvenue\x7d\x7d" ∉ exoticSwap.usedProtocols := by
    rw [mem_usedProtocols_of_setting (b := exoticAction) (List.mem_singleton_self _)
      (by decide : "protocol" ∈ protocolKeys) rfl]
    decide
  exact ⟨List.mem_singleton_self _, rfl, rfl, by decide, hprotocol,
    fun hmem => hunused (mem_compliance_protocol_iff.1 hmem).1⟩

end Strategy

end Tradeflow
