import ClawWorks.Enterprise.ActiveRuns
import ClawWorks.Enterprise.GovernanceLayers

/-!
# Hosted tools and the gate

A tool the provider runs itself never passes the per-call gate, so the launch-time decision has to stand for it at every
step of the plan (`hostedTool_admitted`). What it does not look at are the outward actions of a step.
-/

namespace ClawWorks

open Bool List

section Hosted

variable {ν : Type} [LowerCase] {node : EnterprisePlanNode} {toolName : JsString} {call : ToolCall ν}

structure PlainCall (toolName : JsString) (call : ToolCall ν) : Prop where
  named : call.toolName = toolName
  unregistered : call.mcpTool = none
  actionless : call.carriesAction = false

omit [LowerCase] in
theorem PlainCall.unowned (h : PlainCall toolName call) : callOwnership call = none := by
  rw [callOwnership, h.unregistered]
  rfl

omit [LowerCase] in
theorem PlainCall.unattached (h : PlainCall toolName call) (plan : EnterpriseRunPlan) :
    mcpAttached plan node call = false := by
  rw [mcpAttached, h.unowned]
  rfl

theorem selectorsCover_plain (h : PlainCall toolName call) (selectors : List JsString) :
    selectorsCoverCall selectors (callIdentity call (callOwnership call)) =
      matchesSelector toolName (some selectors) := by
  rw [h.unowned]
  simp [selectorsCoverCall, callIdentity, h.named]

variable {plan : EnterpriseRunPlan}

theorem policyReachesTool_of_applies {policy : GovernancePolicy} (hnode : node ∈ plan.nodes)
    (hcall : PlainCall toolName call)
    (happlies : PolicyApplies policy (policySubject plan node call (callIdentity call (callOwnership call)))) :
    policyReachesTool policy toolName plan.nodes := by
  obtain ⟨hscoped, hcallable, htools, hactions, -, hstep⟩ := happlies
  have hmatches : isScoped policy.tools → selectorMatches toolName (some (policy.tools.getD [])) := by
    intro hs
    rw [selectorMatches_eq, ← selectorsCover_plain hcall]
    exact htools hs
  unfold policyReachesTool
  simp only [hcallable, false_eq_true, if_false]
  by_cases hactionScoped : isScoped policy.actions
  · have hcovered := hactions hactionScoped
    unfold actionSelectorMatches policySubject at hcovered
    simp only [hcall.actionless, false_eq_true, if_false, any_eq_true] at hcovered
    obtain ⟨action, hcovering, hselected⟩ := hcovered
    obtain ⟨heffective, htoolGlobs⟩ := mem_filter.mp hcovering
    have hactionsNe : (policy.actions.getD []).isEmpty = false := by simpa [isScoped_eq] using hactionScoped
    rw [if_neg (by simp [hactionsNe]), if_neg (by simp [hactionsNe]), any_eq_true]
    obtain ⟨step, hstep, hselects⟩ := hstep
    rw [mem_singleton.mp hstep] at hselects
    refine ⟨node, hnode, ?_⟩
    rw [and_eq_true, any_eq_true]
    refine ⟨(selectorMatches_eq _ _).trans hselects, action,
      mem_filter.mpr ⟨mem_effectiveActionsOnPath heffective, ?_⟩, ?_⟩
    · rw [selectorMatches_eq, ← matchesSelector_getD hactionScoped]
      exact hselected
    · rw [and_eq_true, or_eq_true]
      constructor
      · cases hglobs : action.tools with
        | none =>
          refine any_eq_true.mpr ⟨[STAR], mem_singleton_self _, allowedBy_iff.mpr (.inr (.inl ?_))⟩
          rw [compileEntries_star]
          rfl
        | some globs =>
          rw [hglobs, and_eq_true, not_eq_true', selectorsCover_plain hcall] at htoolGlobs
          obtain ⟨entry, hentry, hmatch⟩ := matchesSelector_entry (isEmpty_eq_false_iff.mp htoolGlobs.1) htoolGlobs.2
          exact any_eq_true.mpr ⟨entry, hentry, (selectorMatches_eq _ _).trans hmatch⟩
      · by_cases hs : isScoped policy.tools
        · exact .inr (hmatches hs)
        · exact .inl (by simpa [isScoped_eq] using hs)
  · have hactionsEmpty : (policy.actions.getD []).isEmpty := by simpa [isScoped_eq] using hactionScoped
    have htoolScoped : isScoped policy.tools := hscoped.resolve_right hactionScoped
    have htoolsNe : (policy.tools.getD []).isEmpty = false := by simpa [isScoped_eq] using htoolScoped
    rw [if_neg (by simp [htoolsNe]), if_pos hactionsEmpty]
    exact hmatches htoolScoped

/-- The arguments satisfy an outward action of the step that covers the call, or none covers it. -/
def KeepsOutwardContract (node : EnterprisePlanNode) (call : ToolCall ν) : Prop :=
  SatisfiesOutwardAction node call ∨ ∀ action ∈ outwardActionsOnPath [node],
    outwardCovers (callIdentity call (callOwnership call)) call.toolName action = false

theorem outward_silent_of_uncovered (hattached : mcpAttached plan node call = false)
    (h : ∀ action ∈ outwardActionsOnPath [node],
      outwardCovers (callIdentity call (callOwnership call)) call.toolName action = false) :
    callOutward plan node call = .silent := by
  have hnone : (outwardActionsOnPath [node]).filter
      (outwardCovers (callIdentity call (callOwnership call)) call.toolName) = [] := by
    rw [filter_eq_nil_iff]
    intro action haction
    simp [h action haction]
  simp [callOutward, outwardActionDecision, hnone, hattached]

theorem callViolation_of_admitted (hcall : PlainCall toolName call) (hdenied : ¬ DeniedByNode plan node call)
    (hadmits : nodeAdmitsTool node toolName (plan.capabilityGrants = some .explicit)) :
    callViolation plan node call = none := by
  unfold DeniedByNode at hdenied
  rw [hcall.unattached, hcall.named, not_eq_true] at hdenied
  unfold nodeAdmitsTool at hadmits
  unfold callViolation ontologyScopeViolation
  simp only [find?_cons, find?_nil, hcall.unattached, hcall.named, hdenied]
  split at hadmits
  · rename_i hempty
    have hopen : decide (plan.capabilityGrants = some .explicit) = false := by simpa using hadmits
    simp [hempty, hopen]
  · rename_i hlisted
    simp only [List.isEmpty_iff] at hlisted
    simp [hadmits, hlisted]

/-- **A hosted tool the run admits passes the gate at every step**, unless its arguments break an outward action. -/
theorem hostedTool_admitted {runs : ActiveRuns} {runId : Option JsString} {run : EnterpriseActiveRun}
    (hrun : boundRun runs runId = some run) (henforce : run.plan.mode = .enforce)
    (hadmits : enterpriseRunAdmitsHostedTool runs runId toolName = true) (hnode : node ∈ run.plan.nodes)
    (hcall : PlainCall toolName call) (hcontract : KeepsOutwardContract node call) :
    (evaluateToolCallGovernance run.plan node run.policies call).effect ≠ .deny ∧
      (evaluateToolCallGovernance run.plan node run.policies call).effect ≠ .requireApproval := by
  unfold enterpriseRunAdmitsHostedTool at hadmits
  simp only [hrun, henforce, ne_eq, not_true_eq_false, if_false] at hadmits
  split at hadmits
  · cases hadmits
  rename_i hdenied
  split at hadmits
  · cases hadmits
  rename_i hblocking
  have hundenied : ¬ DeniedByNode run.plan node call := by
    rw [deniedByNode_unattached_iff (hcall.unattached run.plan), hcall.named]
    intro hnamed
    obtain ⟨entry, hentry, hentryDenies⟩ := deniedBy_iff.mp hnamed
    have hmem : entry ∈ run.plan.nodes.flatMap (·.ontology.deniedTools) := mem_flatMap.mpr ⟨node, hnode, hentry⟩
    refine hdenied ?_
    rw [and_eq_true, not_eq_true', isEmpty_eq_false_iff]
    exact ⟨ne_nil_of_mem hmem, deniedBy_iff.mpr ⟨entry, hmem, hentryDenies⟩⟩
  cases hcontrol : isControlCall call with
  | true =>
    rw [evaluate_of_control hcontrol]
    exact ⟨by decide, by decide⟩
  | false =>
    rw [evaluate_admits_iff hcontrol]
    refine ⟨⟨hcontrol, fun hserver => ?_, hundenied, ?_⟩, fun policy hpolicy => ?_⟩
    · have howned := hserver.1
      rw [hcall.unowned] at howned
      cases howned
    · rcases hcontract with hsatisfies | huncovered
      · exact Or.inl hsatisfies
      · exact Or.inr ⟨outward_silent_of_uncovered (hcall.unattached run.plan) huncovered,
          callViolation_of_admitted hcall hundenied (all_eq_true.mp hadmits node hnode)⟩
    · obtain ⟨hmem, happlies⟩ := mem_filter.mp hpolicy
      have happlies := policyApplies_iff.mp happlies
      by_contra hblocks
      refine hblocking (any_eq_true.mpr ⟨policy, mem_filter.mpr ⟨hmem, ?_⟩,
        policyReachesTool_of_applies hnode hcall happlies⟩)
      obtain ⟨step, hstep, hselects⟩ := happlies.step
      rw [mem_singleton.mp hstep] at hselects
      have hplanned : run.plan.nodes.any (fun node => selectorMatches node.nodeId policy.nodes) = true :=
        any_eq_true.mpr ⟨node, hnode, (selectorMatches_eq _ _).trans hselects⟩
      rw [and_eq_true, and_eq_true]
      refine ⟨⟨?_, happlies.tree⟩, hplanned⟩
      cases heffect : policy.effect <;> simp [heffect] at hblocks ⊢

end Hosted

section Search

attribute [local instance] asciiLowerCase

def searchRuns (mode : EnterpriseMode) (step : EnterprisePlanNode) : ActiveRuns := fun runId =>
  if runId = js "run" then some { plan := { searchPlan with nodes := [step], mode := mode } } else none

theorem hostedTool_admitted_webSearch :
    (evaluateToolCallGovernance { searchPlan with nodes := [searchStep], mode := .enforce } searchStep []
        webSearch).effect ≠ .deny ∧
      (evaluateToolCallGovernance { searchPlan with nodes := [searchStep], mode := .enforce } searchStep []
        webSearch).effect ≠ .requireApproval :=
  hostedTool_admitted (show boundRun (searchRuns .enforce searchStep) (some (js "run")) =
      some { plan := { searchPlan with nodes := [searchStep], mode := .enforce } } from rfl) rfl
    (show enterpriseRunAdmitsHostedTool (searchRuns .enforce searchStep) (some (js "run")) (js "web_search") = true by
      decide)
    (mem_singleton_self _) ⟨rfl, rfl, rfl⟩ (Or.inr (by simp [outwardActionsOnPath, effectiveActionsOnPath,
      searchStep]))

def silentStep : EnterprisePlanNode where
  nodeId := js "research"
  ontology := { deniedTools := [js "*_search"] }

theorem observed_run_admits_webSearch :
    enterpriseRunAdmitsHostedTool (searchRuns .observe silentStep) (some (js "run")) (js "web_search") = true ∧
      ∃ run, boundRun (searchRuns .observe silentStep) (some (js "run")) = some run ∧ silentStep ∈ run.plan.nodes ∧
        (evaluateToolCallGovernance run.plan silentStep run.policies webSearch).effect = .deny :=
  ⟨by decide, _, rfl, mem_singleton_self _, by decide⟩

end Search

end ClawWorks
