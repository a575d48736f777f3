import ClawWorks.Enterprise.PolicyComposition

/-!
# The layers of the gate

A call passes step advancement, MCP attachment, the deny list of the step and its outward actions before any policy
sees it (`scopeVerdict_says`); an omission of the tool scope is carried along and composed with what the policies say.
-/

namespace ClawWorks

open List

open Bool (and_eq_true not_eq_true not_eq_true')

section Layers

variable {ν : Type} [LowerCase]

/-! ## What each layer reads -/

variable (plan : EnterpriseRunPlan) (node : EnterprisePlanNode) (call : ToolCall ν)

omit [LowerCase] in
/-- The call belongs to a registered server the step does not attach, in a work-map attachments govern. -/
def UnattachedServer : Prop :=
  (callOwnership call).isSome = true ∧ plan.mcpGoverned = true ∧ mcpAttached plan node call = false

/-- The deny list of the step names the call, under a spelling the gate compares. -/
def DeniedByNode : Prop :=
  nodeDenies call.toolName (mcpAttached plan node call) (callOwnership call) (callIdentity call (callOwnership call))
    node = true

def callViolation : Option OntologyScopeViolation :=
  ontologyScopeViolation [node] call.toolName (mcpAttached plan node call) (callOwnership call)
    (callIdentity call (callOwnership call)) (plan.capabilityGrants = some .explicit)

def callOutward : OutwardOutcome :=
  outwardActionDecision [node] (callIdentity call (callOwnership call)) call.toolName call.args
    (mcpAttached plan node call) (((callOwnership call).map (·.namespaces)).getD [])

def SatisfiesOutwardAction : Prop :=
  ∃ action ∈ outwardActionsOnPath [node],
    outwardCovers (callIdentity call (callOwnership call)) call.toolName action = true ∧
      actionContractViolation action call.args = none

variable {plan : EnterpriseRunPlan} {node : EnterprisePlanNode} {call : ToolCall ν}

variable {decision : GovernanceDecision}

theorem outward_decided_deny (h : callOutward plan node call = .decided decision) : decision.effect = .deny := by
  unfold callOutward outwardActionDecision at h
  simp only at h
  split at h
  · split at h
    · cases h
    · cases h
      rfl
  · split at h
    · cases h
    · cases h
      rfl

theorem satisfied_iff : (∃ action, callOutward plan node call = .satisfied action) ↔
    SatisfiesOutwardAction node call := by
  unfold callOutward outwardActionDecision SatisfiesOutwardAction
  simp only
  constructor
  · rintro ⟨action, h⟩
    split at h
    · split at h <;> cases h
    · split at h
      · rename_i found hfind
        have hmem := mem_filter.mp (mem_of_find?_eq_some hfind)
        exact ⟨found, hmem.1, hmem.2, by simpa using find?_some hfind⟩
      · cases h
  · rintro ⟨action, hmem, hcovers, hclean⟩
    have hcovering : action ∈ (outwardActionsOnPath [node]).filter
        (outwardCovers (callIdentity call (callOwnership call)) call.toolName) := mem_filter.mpr ⟨hmem, hcovers⟩
    rw [if_neg (by simpa using ⟨action, hmem, hcovers⟩)]
    cases hfind : ((outwardActionsOnPath [node]).filter
        (outwardCovers (callIdentity call (callOwnership call)) call.toolName)).find?
        (fun action => (actionContractViolation action call.args).isNone) with
    | some found => exact ⟨found, rfl⟩
    | none =>
      rw [find?_eq_none] at hfind
      exact absurd (by rw [hclean]; rfl) (hfind action hcovering)

theorem violation_denied_iff : (callViolation plan node call).any (·.kind = .denied) ↔ DeniedByNode plan node call := by
  unfold callViolation ontologyScopeViolation DeniedByNode
  simp only [find?_cons, find?_nil]
  cases nodeDenies call.toolName (mcpAttached plan node call) (callOwnership call)
    (callIdentity call (callOwnership call)) node with
  | true => simp
  | false =>
    simp only [Bool.false_eq_true, iff_false, not_eq_true]
    split
    · rfl
    split
    · rfl
    split
    · rfl
    · split
      · split
        · split <;> rfl
        · rfl
      · rfl

omit [LowerCase] in
theorem mem_effectiveActionsOnPath {node : EnterprisePlanNode} {action : OntologyAction}
    (h : action ∈ effectiveActionsOnPath [node]) : action ∈ node.ontology.actions := by
  have hset : ∀ (effective : JsMap EnterpriseId OntologyAction) (declared : OntologyAction), ∀ entry ∈
      JsMap.set effective declared.id declared, entry ∈ effective ∨ entry.2 = declared := by
    intro effective declared
    induction effective with
    | nil =>
      intro entry hentry
      rw [JsMap.set, mem_singleton] at hentry
      exact .inr (by rw [hentry])
    | cons first effective ih =>
      intro entry hentry
      obtain ⟨id, known⟩ := first
      unfold JsMap.set at hentry
      split at hentry
      · rcases mem_cons.mp hentry with rfl | hentry
        · exact .inr rfl
        · exact .inl (mem_cons_of_mem _ hentry)
      · rcases mem_cons.mp hentry with rfl | hentry
        · exact .inl mem_cons_self
        · exact (ih entry hentry).imp_left (mem_cons_of_mem _)
  have hfold : ∀ (actions : List OntologyAction) (effective : JsMap EnterpriseId OntologyAction), ∀ entry ∈
      actions.foldl (fun effective action => JsMap.set effective action.id action) effective,
        entry ∈ effective ∨ entry.2 ∈ actions := by
    intro actions
    induction actions with
    | nil => exact fun effective entry hentry => .inl hentry
    | cons declared actions ih =>
      intro effective entry hentry
      rcases ih _ entry hentry with hknown | hlater
      · rcases hset effective declared entry hknown with hold | hnew
        · exact .inl hold
        · exact .inr (hnew ▸ mem_cons_self)
      · exact .inr (mem_cons_of_mem _ hlater)
  obtain ⟨entry, hentry, rfl⟩ := mem_map.mp h
  have hactions : [node].flatMap (·.ontology.actions) = node.ontology.actions := by simp
  rw [hactions] at hentry
  exact (hfold _ [] entry hentry).resolve_left (by simp)

theorem matchesSelector_entry {value : JsString} {globs : List JsString} (hne : globs ≠ [])
    (h : matchesSelector value (some globs)) : ∃ entry ∈ globs, matchesSelector value (some [entry]) := by
  cases globs with
  | nil => exact absurd rfl hne
  | cons entry globs => exact allowedBy_entry hne h

omit [LowerCase] in
theorem isScoped_eq (selectors : Option (List JsString)) : isScoped selectors = !(selectors.getD []).isEmpty := by
  cases selectors <;> rfl

theorem matchesSelector_getD {value : JsString} {selectors : Option (List JsString)} (h : isScoped selectors) :
    matchesSelector value selectors = matchesSelector value (some (selectors.getD [])) := by
  cases selectors with
  | none => cases h
  | some globs => rfl

/-- All present selectors match. -/
structure PolicyApplies (policy : GovernancePolicy) (subject : PolicySubject) : Prop where
  selective : isScoped policy.tools = true ∨ isScoped policy.actions = true
  callable : isScoped policy.knowledge = false
  tools : isScoped policy.tools = true → selectorsCoverCall (policy.tools.getD []) subject.call = true
  actions : isScoped policy.actions = true → actionSelectorMatches policy subject.coveringActions subject.actionId
    subject.carriesAction subject.declaredActions = true
  tree : policyTargetsTree policy subject.treeId = true
  step : ∃ node ∈ subject.path, matchesSelector node.nodeId policy.nodes = true

theorem policyApplies_iff {policy : GovernancePolicy} {subject : PolicySubject} :
    policyAppliesToToolCall policy subject ↔ PolicyApplies policy subject := by
  unfold policyAppliesToToolCall
  simp only
  constructor
  · intro h
    split at h
    · cases h
    rename_i hscoped
    split at h
    · cases h
    rename_i hcallable
    split at h
    · cases h
    rename_i htools
    split at h
    · cases h
    rename_i hactions
    rw [and_eq_true, any_eq_true] at h
    refine ⟨?_, by simpa using hcallable, fun hs => ?_, fun hs => ?_, h.1, h.2⟩
    · by_contra hnone
      rw [not_or, not_eq_true, not_eq_true] at hnone
      exact hscoped (by simp [hnone])
    · simpa [hs] using htools
    · simpa [hs] using hactions
  · rintro ⟨hscoped, hcallable, htools, hactions, htree, hstep⟩
    rw [if_neg, if_neg, if_neg, if_neg, and_eq_true, any_eq_true]
    · exact ⟨htree, hstep⟩
    · rw [and_eq_true, not_and, not_eq_true']
      exact fun hs => by simp [hactions hs]
    · rw [and_eq_true, not_and, not_eq_true']
      exact fun hs => by simp [htools hs]
    · simp [hcallable]
    · rcases hscoped with hs | hs <;> simp [hs]

inductive LayerSays (plan : EnterpriseRunPlan) (node : EnterprisePlanNode) (call : ToolCall ν) : ScopeVerdict → Prop
  | advancement (hcontrol : isControlCall call = true) : LayerSays plan node call
      (.decided (defaultAllow (js "workflow step advancement is not a governed capability")))
  | unattached (reason : JsString) (hcontrol : isControlCall call = false) (hserver : UnattachedServer plan node call) :
    LayerSays plan node call (.decided (ontologyDenial reason))
  | denied (reason : JsString) (hcontrol : isControlCall call = false) (hserver : ¬ UnattachedServer plan node call)
    (hdenied : DeniedByNode plan node call) : LayerSays plan node call (.decided (ontologyDenial reason))
  | refused (decision : GovernanceDecision) (hcontrol : isControlCall call = false)
    (hserver : ¬ UnattachedServer plan node call) (hdenied : ¬ DeniedByNode plan node call)
    (houtward : callOutward plan node call = .decided decision) : LayerSays plan node call (.decided decision)
  | silent (hcontrol : isControlCall call = false) (hserver : ¬ UnattachedServer plan node call)
    (hdenied : ¬ DeniedByNode plan node call) (houtward : callOutward plan node call = .silent) :
    LayerSays plan node call
      (.openToPolicies ((callViolation plan node call).map (omissionApproval call.toolName)) none)
  | satisfied (action : OntologyAction) (hcontrol : isControlCall call = false)
    (hserver : ¬ UnattachedServer plan node call) (hdenied : ¬ DeniedByNode plan node call)
    (houtward : callOutward plan node call = .satisfied action) :
    LayerSays plan node call (.openToPolicies none (some action))

theorem scopeVerdict_says (plan : EnterpriseRunPlan) (node : EnterprisePlanNode) (call : ToolCall ν) :
    LayerSays plan node call (scopeVerdict plan node call) := by
  unfold scopeVerdict
  simp only
  cases hcontrol : isControlCall call with
  | true => exact .advancement hcontrol
  | false =>
    rw [if_neg Bool.false_ne_true]
    split
    · rename_i hserver
      simp only [and_eq_true, not_eq_true'] at hserver
      exact .unattached _ hcontrol ⟨hserver.1.1, hserver.1.2, hserver.2⟩
    rename_i hserver
    have hattached : ¬ UnattachedServer plan node call := by
      rintro ⟨howner, hgoverned, hfree⟩
      exact hserver (by simp [howner, hgoverned, hfree])
    split
    · rename_i hviolation
      exact .denied _ hcontrol hattached (violation_denied_iff.mp hviolation)
    rename_i hviolation
    have hundenied : ¬ DeniedByNode plan node call := fun h => hviolation (violation_denied_iff.mpr h)
    split
    · rename_i decision houtward
      exact .refused decision hcontrol hattached hundenied houtward
    · rename_i houtward
      exact .silent hcontrol hattached hundenied houtward
    · rename_i action houtward
      exact .satisfied action hcontrol hattached hundenied houtward

/-- Only the policies decide: no layer before them settles the call or finds it outside the tool scope. -/
structure LeftToPolicies (plan : EnterpriseRunPlan) (node : EnterprisePlanNode) (call : ToolCall ν) : Prop where
  ordinary : isControlCall call = false
  attached : ¬ UnattachedServer plan node call
  undenied : ¬ DeniedByNode plan node call
  granted : SatisfiesOutwardAction node call ∨
    callOutward plan node call = .silent ∧ callViolation plan node call = none

theorem leftToPolicies_iff :
    LeftToPolicies plan node call ↔ ∃ satisfied, scopeVerdict plan node call = .openToPolicies none satisfied := by
  have hsays := scopeVerdict_says plan node call
  constructor
  · rintro ⟨hordinary, hattached, hundenied, hgranted⟩
    cases hverdict : scopeVerdict plan node call with
    | decided decision =>
      rw [hverdict] at hsays
      cases hsays with
      | advancement hcontrol => exact absurd (hcontrol.symm.trans hordinary) (by decide)
      | unattached _ _ hserver => exact absurd hserver hattached
      | denied _ _ _ hdenied => exact absurd hdenied hundenied
      | refused _ _ _ _ houtward =>
        rcases hgranted with hsatisfies | ⟨hsilent, -⟩
        · obtain ⟨action, haction⟩ : ∃ action, callOutward plan node call = .satisfied action :=
            satisfied_iff.mpr hsatisfies
          cases houtward.symm.trans haction
        · cases houtward.symm.trans hsilent
    | openToPolicies omitted satisfied =>
      rw [hverdict] at hsays
      cases hsays with
      | silent _ _ _ houtward =>
        rcases hgranted with hsatisfies | ⟨-, hclean⟩
        · obtain ⟨action, haction⟩ : ∃ action, callOutward plan node call = .satisfied action :=
            satisfied_iff.mpr hsatisfies
          cases houtward.symm.trans haction
        · exact ⟨none, by rw [hclean]; rfl⟩
      | satisfied action => exact ⟨some action, rfl⟩
  · rintro ⟨satisfied, hverdict⟩
    rw [hverdict] at hsays
    generalize homitted : (ScopeVerdict.openToPolicies none satisfied) = verdict at hsays
    cases hsays with
    | silent hcontrol hserver hdenied houtward =>
      injection homitted with hclean
      exact ⟨hcontrol, hserver, hdenied, .inr ⟨houtward, Option.map_eq_none_iff.mp hclean.symm⟩⟩
    | satisfied action hcontrol hserver hdenied houtward =>
      exact ⟨hcontrol, hserver, hdenied, .inl (satisfied_iff.mp ⟨action, houtward⟩)⟩
    | _ => cases homitted

variable {policies : List GovernancePolicy}

theorem evaluate_of_decided (h : scopeVerdict plan node call = .decided decision) :
    evaluateToolCallGovernance plan node policies call = decision := by
  rw [evaluateToolCallGovernance, h]

theorem evaluate_of_control (h : isControlCall call) :
    (evaluateToolCallGovernance plan node policies call).effect = .allow := by
  have hverdict : scopeVerdict plan node call =
      .decided (defaultAllow (js "workflow step advancement is not a governed capability")) := by
    rw [scopeVerdict, if_pos h]
  rw [evaluate_of_decided hverdict]
  rfl

variable {satisfied : Option OntologyAction}

theorem omitted_of_open {omitted : GovernanceDecision}
    (h : scopeVerdict plan node call = .openToPolicies (some omitted) satisfied) :
    omitted.effect = .requireApproval ∧ omitted.unanswered = some .deny := by
  have hsays := scopeVerdict_says plan node call
  rw [h] at hsays
  generalize hverdict : (ScopeVerdict.openToPolicies (some omitted) satisfied) = verdict at hsays
  cases hsays with
  | silent =>
    injection hverdict with homitted
    obtain ⟨violation, -, rfl⟩ := Option.map_eq_some_iff.mp homitted.symm
    exact ⟨rfl, rfl⟩
  | _ => cases hverdict

theorem decided_deny (h : scopeVerdict plan node call = .decided decision)
    (hordinary : isControlCall call = false) : decision.effect = .deny := by
  have hsays := scopeVerdict_says plan node call
  rw [h] at hsays
  cases hsays with
  | advancement hcontrol => exact absurd (hcontrol.symm.trans hordinary) (by decide)
  | unattached => rfl
  | denied => rfl
  | refused _ _ _ _ houtward => exact outward_decided_deny houtward

theorem evaluate_of_open (h : scopeVerdict plan node call = .openToPolicies none satisfied) :
    (evaluateToolCallGovernance plan node policies call).effect =
        winningEffect (matchingPolicies plan node call policies) ∧
      (evaluateToolCallGovernance plan node policies call).unanswered =
        (policyWinner (matchingPolicies plan node call policies)).bind fun winner =>
          if winner.effect = .requireApproval then some winner.unanswered else none := by
  simp only [evaluateToolCallGovernance, h, composeWithOmission, resolvePolicyDecision, GovernanceDecision.unanswered,
    winningEffect]
  cases policyWinner (matchingPolicies plan node call policies) with
  | none => exact ⟨rfl, rfl⟩
  | some winner => cases heffect : winner.effect <;> simp [heffect, GovernancePolicy.unanswered]

theorem evaluate_of_omitted {omitted : GovernanceDecision}
    (h : scopeVerdict plan node call = .openToPolicies (some omitted) satisfied) :
    (evaluateToolCallGovernance plan node policies call).effect =
        (if (policyWinner (matchingPolicies plan node call policies)).map (·.effect) = some .deny then .deny
        else .requireApproval) ∧ (evaluateToolCallGovernance plan node policies call).unanswered =
        if (policyWinner (matchingPolicies plan node call policies)).map (·.effect) = some .deny then none
        else some .deny := by
  obtain ⟨heffect, hunanswered⟩ := omitted_of_open h
  have happroval : (omitted.approval.bind (·.timeoutBehavior)).getD .deny = .deny := by
    simpa [GovernanceDecision.unanswered, heffect] using hunanswered
  simp only [evaluateToolCallGovernance, h, composeWithOmission, resolvePolicyDecision, GovernanceDecision.unanswered]
  cases policyWinner (matchingPolicies plan node call policies) with
  | none => simp [heffect, happroval]
  | some winner => cases hwinner : winner.effect <;> simp [hwinner, heffect, happroval]

theorem evaluate_deny_iff (hordinary : isControlCall call = false) :
    (evaluateToolCallGovernance plan node policies call).effect = .deny ↔
      UnattachedServer plan node call ∨ DeniedByNode plan node call ∨
        (∃ decision, callOutward plan node call = .decided decision) ∨
        ∃ policy ∈ matchingPolicies plan node call policies, policy.effect = .deny := by
  have hsays := scopeVerdict_says plan node call
  cases hverdict : scopeVerdict plan node call with
  | decided decision =>
    rw [evaluate_of_decided hverdict]
    refine iff_of_true (decided_deny hverdict hordinary) ?_
    rw [hverdict] at hsays
    cases hsays with
    | advancement hcontrol => exact absurd (hcontrol.symm.trans hordinary) (by decide)
    | unattached _ _ hserver => exact .inl hserver
    | denied _ _ _ hdenied => exact .inr (.inl hdenied)
    | refused _ _ _ _ houtward => exact .inr (.inr (.inl ⟨decision, houtward⟩))
  | openToPolicies omitted satisfied =>
    have hlayers : ¬ UnattachedServer plan node call ∧ ¬ DeniedByNode plan node call ∧
        ¬ ∃ decision, callOutward plan node call = .decided decision := by
      rw [hverdict] at hsays
      cases hsays with
      | silent _ hserver hdenied houtward | satisfied _ _ hserver hdenied houtward =>
        exact ⟨hserver, hdenied, by simp [houtward]⟩
    obtain ⟨hserver, hdenied, houtward⟩ := hlayers
    have hpolicies : (evaluateToolCallGovernance plan node policies call).effect = .deny ↔
        (policyWinner (matchingPolicies plan node call policies)).map (·.effect) = some .deny := by
      cases omitted with
      | none =>
        rw [(evaluate_of_open hverdict).1, winningEffect]
        cases (policyWinner (matchingPolicies plan node call policies)).map (·.effect) <;> simp
      | some omitted =>
        rw [(evaluate_of_omitted hverdict).1]
        split <;> simp_all
    rw [hpolicies, policyWinner_deny_iff]
    simp only [hserver, hdenied, houtward, false_or]

theorem evaluate_admits_iff (hordinary : isControlCall call = false) :
    (evaluateToolCallGovernance plan node policies call).effect ≠ .deny ∧
        (evaluateToolCallGovernance plan node policies call).effect ≠ .requireApproval ↔
      LeftToPolicies plan node call ∧ ∀ policy ∈ matchingPolicies plan node call policies, policy.effect ≠ .deny ∧
          policy.effect ≠ .requireApproval := by
  rw [leftToPolicies_iff]
  cases hverdict : scopeVerdict plan node call with
  | decided decision => simp [evaluate_of_decided hverdict, decided_deny hverdict hordinary]
  | openToPolicies omitted satisfied =>
    cases omitted with
    | some omitted =>
      simp only [(evaluate_of_omitted hverdict).1]
      split <;> simp
    | none =>
      rw [(evaluate_of_open hverdict).1, winningEffect]
      refine ⟨fun h => ⟨⟨satisfied, rfl⟩, fun policy hpolicy => ?_⟩, fun h => ?_⟩
      · have hundenied : ∀ q ∈ matchingPolicies plan node call policies, q.effect ≠ .deny := by
          intro q hq hdeny
          exact h.1 (by rw [policyWinner_of_deny hq hdeny, Option.getD_some])
        refine ⟨hundenied policy hpolicy, fun happroval => h.2 ?_⟩
        obtain ⟨winner, hwinner⟩ := Option.isSome_iff_exists.mp (find?_isSome.mpr
          ⟨policy, hpolicy, decide_eq_true happroval⟩ :
            ((matchingPolicies plan node call policies).find? (·.effect = .requireApproval)).isSome)
        have heffect : winner.effect = .requireApproval := by simpa using find?_some hwinner
        rw [policyWinner_of_undenied hundenied hwinner, Option.map_some, Option.getD_some, heffect]
      · cases hwinner : policyWinner (matchingPolicies plan node call policies) with
        | none => simp
        | some winner => simpa using h.2 winner (mem_of_policyWinner hwinner)

/-! ## Denials -/

theorem deniedBy_trim (list : List JsString) (name : JsString) : deniedBy list (trim name) = deniedBy list name := by
  have hname : normalizeToolName (trim name) = normalizeToolName name := by
    simp only [normalizeToolName, normalizeLowercaseStringOrEmpty, trim_trim]
  simp only [deniedBy, isToolAllowedByPolicyName, hname]

theorem deniedByNode_of_deniedBy (h : deniedBy node.ontology.deniedTools call.toolName) :
    DeniedByNode plan node call := by
  have hlist : node.ontology.deniedTools ≠ [] := by
    intro hempty
    rw [hempty] at h
    obtain ⟨_, hentry, -⟩ := deniedBy_iff.mp h
    cases hentry
  unfold DeniedByNode nodeDenies
  simp only [and_eq_true, Bool.or_eq_true, not_eq_true', isEmpty_eq_false_iff, any_eq_true]
  refine ⟨hlist, .inl ?_⟩
  cases mcpAttached plan node call with
  | false => exact ⟨call.toolName, mem_singleton_self _, .inl h⟩
  | true =>
    refine ⟨trim call.toolName, ?_, .inl ((deniedBy_trim _ _).trans h)⟩
    rw [if_pos rfl, mcpToolAliases, mem_eraseDups]
    exact mem_cons_self

theorem deniedByNode_unattached_iff (h : mcpAttached plan node call = false) :
    DeniedByNode plan node call ↔ deniedBy node.ontology.deniedTools call.toolName := by
  refine ⟨fun hdenied => ?_, deniedByNode_of_deniedBy⟩
  unfold DeniedByNode nodeDenies at hdenied
  rw [h] at hdenied
  simp only [Bool.false_and, Bool.or_false, and_eq_true, any_eq_true, Bool.false_eq_true, if_false] at hdenied
  obtain ⟨-, name, hname, hrefused⟩ := hdenied
  rwa [mem_singleton.mp hname] at hrefused

/-- An entry names a call of an attached server: under a spelling, as written or folded, or through a rewritten name. -/
def EntryNames (call : ToolCall ν) (owner : McpOwnership) (entry : JsString) : Prop :=
  (∃ identity ∈ mcpToolAliases call.toolName (some owner) true,
    deniedBy [entry] identity = true ∨ deniedBy [foldNative entry] (foldNative identity) = true) ∨
    rewrittenNameReachesCall entry (callIdentity call (some owner)).namespaces
      (callIdentity call (some owner)).toolParts = true

theorem deniedByNode_attached_iff {owner : McpOwnership} (howner : callOwnership call = some owner)
    (h : mcpAttached plan node call) :
    DeniedByNode plan node call ↔ ∃ entry ∈ node.ontology.deniedTools, EntryNames call owner entry := by
  unfold DeniedByNode nodeDenies EntryNames
  simp only [h, howner, Bool.true_and, and_eq_true, Bool.or_eq_true, not_eq_true', any_eq_true, if_true,
    isEmpty_eq_false_iff]
  constructor
  · rintro ⟨-, ⟨identity, hidentity, hwritten | hfolded⟩ | ⟨entry, hentry, hrewritten⟩⟩
    · obtain ⟨entry, hentry, hdenied⟩ := deniedBy_iff.mp hwritten
      exact ⟨entry, hentry, .inl ⟨identity, hidentity, .inl hdenied⟩⟩
    · obtain ⟨folded, hmem, hdenied⟩ := deniedBy_iff.mp hfolded
      obtain ⟨entry, hentry, rfl⟩ := mem_map.mp hmem
      exact ⟨entry, hentry, .inl ⟨identity, hidentity, .inr hdenied⟩⟩
    · exact ⟨entry, hentry, .inr hrewritten⟩
  · rintro ⟨entry, hentry, hnames⟩
    refine ⟨ne_nil_of_mem hentry, ?_⟩
    rcases hnames with ⟨identity, hidentity, hwritten | hfolded⟩ | hrewritten
    · exact .inl ⟨identity, hidentity, .inl (deniedBy_iff.mpr ⟨entry, hentry, hwritten⟩)⟩
    · refine .inl ⟨identity, hidentity, .inr (deniedBy_iff.mpr ⟨foldNative entry, ?_, hfolded⟩)⟩
      exact mem_map_of_mem hentry
    · exact .inr ⟨entry, hentry, hrewritten⟩

/-- The call is outside a non-empty allow-list, and nothing else grants it: it belongs to no attached server, is no core
tool on the floor of an explicit work-map, and satisfies no outward action. -/
structure DeniedByOmission (plan : EnterpriseRunPlan) (node : EnterprisePlanNode) (call : ToolCall ν) : Prop where
  narrowed : node.ontology.allowedTools ≠ []
  unlisted : allowedBy node.ontology.allowedTools call.toolName = false
  unattached : mcpAttached plan node call = false
  unfloored : plan.capabilityGrants = some .explicit → isCoreFloorTool call.toolName = false
  unsatisfied : ¬ SatisfiesOutwardAction node call

theorem callViolation_of_omission (h : DeniedByOmission plan node call) : callViolation plan node call ≠ none := by
  unfold callViolation ontologyScopeViolation
  simp only [find?_cons, find?_nil]
  have hfloor : ((decide (plan.capabilityGrants = some .explicit) && !mcpAttached plan node call) &&
      isCoreFloorTool call.toolName) = false := by
    by_cases hexplicit : plan.capabilityGrants = some .explicit
    · simp [h.unfloored hexplicit]
    · simp [hexplicit]
  cases nodeDenies call.toolName (mcpAttached plan node call) (callOwnership call)
    (callIdentity call (callOwnership call)) node with
  | true => simp
  | false =>
    have hlist : node.ontology.allowedTools.isEmpty = false := isEmpty_eq_false_iff.mpr h.narrowed
    rw [hfloor]
    simp [h.unattached, hlist, h.unlisted]

/-- **A denial stands.** Whatever else the node, its actions and the policies say, a call the deny list names and a call
a matching policy denies are denied, and a call denied by omission is neither allowed nor asked about with an approval
that resolves to allow. -/
theorem denial_stands (plan : EnterpriseRunPlan) (node : EnterprisePlanNode) (policies : List GovernancePolicy)
    (call : ToolCall ν) (hordinary : isControlCall call = false) :
    (deniedBy node.ontology.deniedTools call.toolName = true →
        (evaluateToolCallGovernance plan node policies call).effect = .deny) ∧
      (∀ policy ∈ matchingPolicies plan node call policies, policy.effect = .deny →
        (evaluateToolCallGovernance plan node policies call).effect = .deny) ∧
      (DeniedByOmission plan node call →
        (evaluateToolCallGovernance plan node policies call).effect = .deny ∨
          (evaluateToolCallGovernance plan node policies call).effect = .requireApproval ∧
            (evaluateToolCallGovernance plan node policies call).unanswered = some .deny) := by
  refine ⟨fun h => ?_, fun policy hpolicy hdeny => ?_, fun homission => ?_⟩
  · exact (evaluate_deny_iff hordinary).mpr (Or.inr (Or.inl (deniedByNode_of_deniedBy h)))
  · exact (evaluate_deny_iff hordinary).mpr (Or.inr (Or.inr (Or.inr ⟨policy, hpolicy, hdeny⟩)))
  · cases hverdict : scopeVerdict plan node call with
    | decided decision =>
      rw [evaluate_of_decided hverdict]
      exact Or.inl (decided_deny hverdict hordinary)
    | openToPolicies omitted satisfied =>
      cases omitted with
      | none =>
        obtain hsatisfies | ⟨-, hclean⟩ := (leftToPolicies_iff.mpr ⟨satisfied, hverdict⟩).granted
        · exact absurd hsatisfies homission.unsatisfied
        · exact absurd hclean (callViolation_of_omission homission)
      | some omitted =>
        rw [(evaluate_of_omitted hverdict).1, (evaluate_of_omitted hverdict).2]
        split
        · exact Or.inl rfl
        · exact Or.inr ⟨rfl, rfl⟩

end Layers

section Search

attribute [local instance] asciiLowerCase

def searchStep : EnterprisePlanNode where
  nodeId := js "research"
  ontology := { allowedTools := [js "web_*"] }

def searchPlan : EnterpriseRunPlan where
  runId := js "run"
  treeId := js "desk"
  nodes := [searchStep]
  activeNodeId := js "research"

def webSearch : ToolCall Int where
  toolName := js "web_search"

/-- The step with a second list that takes its searches back. -/
theorem denial_stands_webSearch :
    (evaluateToolCallGovernance searchPlan
      { searchStep with ontology := { allowedTools := [js "web_*"], deniedTools := [js "*_search"] } } []
      webSearch).effect = .deny :=
  (denial_stands searchPlan
    { searchStep with ontology := { allowedTools := [js "web_*"], deniedTools := [js "*_search"] } } [] webSearch
    (by decide)).1 (by decide)

/-- The step with an MCP server attached and an action that declares a payment. -/
def equippedStep : EnterprisePlanNode where
  nodeId := js "research"
  ontology :=
    { allowedTools := [js "web_*"]
      mcpServers := some [js "github"]
      actions := [{ id := js "pay", effects := [.call (js "send_payment")] }] }

def equippedPlan : EnterpriseRunPlan :=
  { searchPlan with nodes := [equippedStep], mcpGoverned := true, capabilityGrants := some .explicit }

def readIssue : ToolCall Int where
  toolName := js "github__get_issue"
  mcpTool := some ⟨js "github", js "github", js "get_issue"⟩
  mcpServers := [js "github"]

def answer : ToolCall Int where
  toolName := js "message"

def pay : ToolCall Int where
  toolName := js "send_payment"

def GrantedOutsideAllowList (call : ToolCall Int) : Prop :=
  isControlCall call = false ∧ equippedStep.ontology.allowedTools ≠ [] ∧
    allowedBy equippedStep.ontology.allowedTools call.toolName = false ∧
    (evaluateToolCallGovernance equippedPlan equippedStep [] call).effect = .allow

instance (call : ToolCall Int) : Decidable (GrantedOutsideAllowList call) :=
  inferInstanceAs (Decidable (_ ∧ _))

/-- An attached server, the core floor and an outward action each grant what the allow-list leaves out. -/
theorem granted_outside_allowList :
    GrantedOutsideAllowList readIssue ∧ GrantedOutsideAllowList answer ∧ GrantedOutsideAllowList pay := by
  decide

end Search

end ClawWorks
