import ClawWorks.Enterprise.GovernanceLayers
import ClawWorks.Enterprise.PlanRoutes

/-!
# Comparing the policies of a bundle

An import compares the policies a bundle carries with the ones configured: by id, by a canonical form that forgets the
order and repetition of selectors, and by their sequence within each effect, all among the policies that can fire on the
bundle's tree.
-/

namespace ClawWorks

open List

section Policies

variable {ν : Type} [LowerCase]

variable (policy : GovernancePolicy)

omit [LowerCase] in
/-- Does a policy select tools, actions or knowledge? -/
def hasSubjectSelectors : Bool :=
  isScoped policy.tools || isScoped policy.actions || isScoped policy.knowledge

def policyAppliesToRun (treeId rootNodeId : EnterpriseId) : Bool :=
  if hasSubjectSelectors policy then false
  else matchesSelector treeId policy.trees && matchesSelector rootNodeId policy.nodes

/-- A retrieval is matched by knowledge selectors, and by no policy that also selects tools or actions. -/
def policyAppliesToKnowledge (treeId : EnterpriseId) (path : List EnterprisePlanNode)
    (foundationId : JsString) : Bool :=
  if !isScoped policy.knowledge || !matchesSelector foundationId policy.knowledge then false
  else if isScoped policy.tools || isScoped policy.actions then false
  else matchesSelector treeId policy.trees && path.any fun node => matchesSelector node.nodeId policy.nodes

variable (plan : EnterpriseRunPlan)

def evaluateKnowledgeRetrievalGovernance (node : EnterprisePlanNode)
    (foundationId : JsString) (policies : List GovernancePolicy) : GovernanceDecision :=
  (resolvePolicyDecision (policies.filter (policyAppliesToKnowledge · plan.treeId [node] foundationId))
    (js "knowledge foundation " ++ quoted foundationId)).getD
    (defaultAllow (js "no governance policy restricts this knowledge foundation"))

/-- The step run-level policies are matched against. -/
def rootNodeId : EnterpriseId :=
  plan.nodes.head?.elim plan.activeNodeId (·.nodeId)

def evaluateRunStartGovernance (policies : List GovernancePolicy) : GovernanceDecision :=
  (resolvePolicyDecision (policies.filter (policyAppliesToRun · plan.treeId (rootNodeId plan)))
    (js "workflow tree " ++ quoted plan.treeId)).getD
    (defaultAllow (js "no governance policy restricts this workflow tree"))

structure GovernanceScope where
  treeId : EnterpriseId
  nodeIds : List EnterpriseId
  actionIds : List EnterpriseId

def policyCanFireInScope (scope : GovernanceScope) : Bool :=
  policyTargetsTree policy scope.treeId &&
    (!isScoped policy.nodes || scope.nodeIds.any (matchesSelector · policy.nodes)) &&
    (!isScoped policy.actions || scope.actionIds.any (matchesSelector · policy.actions))

mutual

def collectTreeActionIds : WorkflowNodeDefinition → List EnterpriseId
  | ⟨_, _, ontology, children⟩ => ontology.actions.map (·.id) ++ collectTreesActionIds children

def collectTreesActionIds : List WorkflowNodeDefinition → List EnterpriseId
  | [] => []
  | child :: children => collectTreeActionIds child ++ collectTreesActionIds children

end

omit [LowerCase] in
/-- The scope of a tree: `treeOrder` collects its node ids. -/
def treeScope (tree : WorkflowTreeDefinition) : GovernanceScope where
  treeId := tree.id
  nodeIds := treeOrder tree.root
  actionIds := collectTreeActionIds tree.root

def treeGovernancePredicate (tree : Option WorkflowTreeDefinition) (policy : GovernancePolicy) : Bool :=
  tree.any fun tree => policyCanFireInScope policy (treeScope tree)

/-! ## The comparison -/

section Comparison

omit [LowerCase]

/-- Selectors as the set they are evaluated as. -/
def canonicalSelectors (selectors : List JsString) : List JsString :=
  toSorted (distinct selectors)

/-- The form of a policy that ignores what does not change enforcement. -/
def canonicalPolicy (policy : GovernancePolicy) : GovernancePolicy :=
  { policy with
    trees := policy.trees.map canonicalSelectors
    nodes := policy.nodes.map canonicalSelectors
    tools := policy.tools.map canonicalSelectors
    actions := policy.actions.map canonicalSelectors
    knowledge := policy.knowledge.map canonicalSelectors }

variable (policies : List GovernancePolicy)

def byEffect : List GovernancePolicy :=
  [GovernanceEffect.deny, .requireApproval, .allow, .audit].flatMap fun effect => policies.filter (·.effect = effect)

/-- What two lists of policies are compared by; the source joins the texts of the forms. -/
def sequenceOf : List GovernancePolicy :=
  (byEffect policies).map canonicalPolicy

def groupById : JsMap EnterpriseId (List GovernancePolicy) :=
  policies.foldl (fun groups policy => groups.set policy.id ((groups.get policy.id).getD [] ++ [policy])) []

/-- The ids of policies that have no counterpart at their position. -/
def displaced (policies others : List GovernancePolicy) : List EnterpriseId :=
  (policies.zipIdx.filter fun (policy, index) =>
    others[index]?.map canonicalPolicy ≠ some (canonicalPolicy policy)).map (·.1.id)

/-- How much a mode enforces; `none` is `off`. -/
def modeStrength : Option EnterpriseMode → Nat
  | none => 0
  | some .observe => 1
  | some .enforce => 2

/-- The parts of a bundle the comparison reads. -/
structure WorkflowBundle where
  trees : List WorkflowTreeDefinition
  governancePolicies : Option (List GovernancePolicy) := none
  governanceMode : Option (Option EnterpriseMode) := none

structure PolicyComparison where
  missingGovernancePolicies : List EnterpriseId
  conflictingGovernancePolicies : List EnterpriseId
  governanceModeDowngrade : Option (Option EnterpriseMode × Option EnterpriseMode)

end Comparison

def WorkflowBundle.carried (bundle : WorkflowBundle) : List GovernancePolicy :=
  bundle.governancePolicies.getD []

variable (governsTree : GovernancePolicy → Bool)

def missingPolicies (configured carried : List GovernancePolicy) : List EnterpriseId :=
  ((groupById (carried.filter governsTree)).filter fun group => ((groupById configured).get group.1).isNone).map (·.1)

/-- The ids whose group is another here, and, where the sequences differ, the ids out of place. -/
def conflictingPolicies (configured carried : List GovernancePolicy) : List EnterpriseId :=
  ((groupById (carried.filter governsTree)).filter fun group =>
      ((groupById configured).get group.1).any fun here =>
        sequenceOf (here.filter governsTree) ≠ sequenceOf group.2).map (·.1) ++
    let localSequence := configured.filter governsTree
    let carriedSequence := carried.filter governsTree
    if sequenceOf localSequence ≠ sequenceOf carriedSequence then
      displaced (byEffect carriedSequence) (byEffect localSequence) ++
        displaced (byEffect localSequence) (byEffect carriedSequence)
    else []

def comparePolicies (bundle : WorkflowBundle) (configured : List GovernancePolicy) (localMode : Option EnterpriseMode) :
    PolicyComparison :=
  let governsTree := treeGovernancePredicate bundle.trees.head?
  let missing := missingPolicies governsTree configured bundle.carried
  { missingGovernancePolicies := toSorted missing
    conflictingGovernancePolicies :=
      toSorted ((distinct (conflictingPolicies governsTree configured bundle.carried)).filter (· ∉ missing))
    governanceModeDowngrade := bundle.governanceMode.bind fun sourceMode =>
      if modeStrength localMode < modeStrength sourceMode then some (sourceMode, localMode) else none }

/-! ## The canonical form -/

variable {selectors : List JsString}

omit [LowerCase] in
theorem mem_canonicalSelectors {selector : JsString} :
    selector ∈ canonicalSelectors selectors ↔ selector ∈ selectors := by
  simp only [canonicalSelectors, toSorted, distinct, mem_insertionSort, mem_eraseDups]

omit [LowerCase] in
theorem canonicalSelectors_eq_nil_iff : canonicalSelectors selectors = [] ↔ selectors = [] := by
  simp only [eq_nil_iff_forall_not_mem, mem_canonicalSelectors]

theorem allowedBy_congr {a b : List JsString} (h : ∀ entry, entry ∈ a ↔ entry ∈ b) (name : JsString) :
    allowedBy a name = allowedBy b name := by
  have hnil : compileEntries a = [] ↔ compileEntries b = [] := by
    rw [compileEntries_eq_nil_iff, compileEntries_eq_nil_iff]
    simp only [h]
  have hany : ∀ name, matchesAnyGlobPattern name (compileEntries a) ↔
      matchesAnyGlobPattern name (compileEntries b) := by
    intro name
    rw [matchesAny_compileEntries_iff, matchesAny_compileEntries_iff]
    simp only [h]
  rw [Bool.eq_iff_iff, allowedBy_iff, allowedBy_iff, hnil, hany, hany]

theorem matchesSelector_eq (value : JsString) (globs : Option (List JsString)) :
    matchesSelector value globs = (!isScoped globs || allowedBy (globs.getD []) value) := by
  unfold matchesSelector
  split
  · rfl
  · rfl
  · rename_i globs hne
    cases globs with
    | nil => exact absurd rfl hne
    | cons => rfl

omit [LowerCase] in
theorem isScoped_canonical (selectors : Option (List JsString)) :
    isScoped (selectors.map canonicalSelectors) = isScoped selectors := by
  cases selectors with
  | none => rfl
  | some selectors =>
    rw [Bool.eq_iff_iff]
    simp [isScoped, canonicalSelectors_eq_nil_iff]

theorem matchesSelector_canonical (value : JsString) (globs : Option (List JsString)) :
    matchesSelector value (globs.map canonicalSelectors) = matchesSelector value globs := by
  rw [matchesSelector_eq, matchesSelector_eq, isScoped_canonical]
  congr 1
  cases globs with
  | none => rfl
  | some globs => exact allowedBy_congr (fun _ => mem_canonicalSelectors) value

theorem selectorsCoverCall_canonical (selectors : Option (List JsString)) (call : McpCallIdentity) :
    selectorsCoverCall ((selectors.map canonicalSelectors).getD []) call =
      selectorsCoverCall (selectors.getD []) call := by
  cases selectors with
  | none => rfl
  | some selectors =>
    have hname : ∀ name, matchesSelector name (some (canonicalSelectors selectors)) =
        matchesSelector name (some selectors) := fun name => matchesSelector_canonical name (some selectors)
    have hany : ∀ p : JsString → Bool, (canonicalSelectors selectors).any p = selectors.any p := by
      intro p
      rw [Bool.eq_iff_iff, any_eq_true, any_eq_true]
      simp only [mem_canonicalSelectors]
    simp only [selectorsCoverCall, Option.map_some, Option.getD_some, hname, hany]

variable (policy : GovernancePolicy)

theorem policyAppliesToToolCall_canonical (subject : PolicySubject) :
    policyAppliesToToolCall (canonicalPolicy policy) subject = policyAppliesToToolCall policy subject := by
  simp only [policyAppliesToToolCall, actionSelectorMatches, canonicalPolicy, isScoped_canonical,
    matchesSelector_canonical, selectorsCoverCall_canonical]
  rfl

theorem policyAppliesToKnowledge_canonical (treeId : EnterpriseId)
    (path : List EnterprisePlanNode) (foundationId : JsString) :
    policyAppliesToKnowledge (canonicalPolicy policy) treeId path foundationId =
      policyAppliesToKnowledge policy treeId path foundationId := by
  simp only [policyAppliesToKnowledge, canonicalPolicy, isScoped_canonical, matchesSelector_canonical]

theorem policyAppliesToRun_canonical (treeId rootNodeId : EnterpriseId) :
    policyAppliesToRun (canonicalPolicy policy) treeId rootNodeId = policyAppliesToRun policy treeId rootNodeId := by
  simp only [policyAppliesToRun, hasSubjectSelectors, canonicalPolicy, isScoped_canonical, matchesSelector_canonical]
  rfl

variable {policy : GovernancePolicy} {scope : GovernanceScope}

theorem policyCanFireInScope_intro {nodeId : EnterpriseId}
    (htree : matchesSelector scope.treeId policy.trees) (hnode : nodeId ∈ scope.nodeIds)
    (hmatches : matchesSelector nodeId policy.nodes)
    (haction : isScoped policy.actions → ∃ actionId ∈ scope.actionIds,
      matchesSelector actionId policy.actions) : policyCanFireInScope policy scope := by
  have hnodes : scope.nodeIds.any (matchesSelector · policy.nodes) := any_eq_true.mpr ⟨nodeId, hnode, hmatches⟩
  have hactions : (!isScoped policy.actions || scope.actionIds.any (matchesSelector · policy.actions)) := by
    cases hscoped : isScoped policy.actions with
    | false => rfl
    | true =>
      obtain ⟨actionId, hmem, hmatch⟩ := haction hscoped
      exact any_eq_true.mpr ⟨actionId, hmem, hmatch⟩
  rw [policyCanFireInScope, policyTargetsTree, htree, hnodes, hactions, Bool.or_true]
  rfl

structure StepIn (scope : GovernanceScope) (step : EnterprisePlanNode) : Prop where
  nodeId : step.nodeId ∈ scope.nodeIds
  actions : ∀ action ∈ step.ontology.actions, action.id ∈ scope.actionIds

variable {node : EnterprisePlanNode} {identity : McpCallIdentity} {call : ToolCall ν}

theorem exists_action_of_actionSelectorMatches {plan : EnterpriseRunPlan}
    (h : actionSelectorMatches policy (policySubject plan node call identity).coveringActions
      (policySubject plan node call identity).actionId (policySubject plan node call identity).carriesAction
      (policySubject plan node call identity).declaredActions) :
    ∃ action ∈ node.ontology.actions, matchesSelector action.id policy.actions := by
  unfold actionSelectorMatches policySubject at h
  split at h
  · cases hid : call.actionId with
    | none =>
      simp only [hid] at h
      cases h
    | some actionId =>
      simp only [hid, Bool.and_eq_true, decide_eq_true_eq] at h
      obtain ⟨action, haction, rfl⟩ := mem_map.mp h.1
      exact ⟨action, mem_effectiveActionsOnPath haction, h.2⟩
  · obtain ⟨action, haction, hmatch⟩ := any_eq_true.mp h
    exact ⟨action, mem_effectiveActionsOnPath (mem_filter.mp haction).1, hmatch⟩

theorem canFire_of_appliesToToolCall {plan : EnterpriseRunPlan} (htree : plan.treeId = scope.treeId)
    (hstep : StepIn scope node) (h : policyAppliesToToolCall policy (policySubject plan node call identity)) :
    policyCanFireInScope policy scope := by
  unfold policyAppliesToToolCall at h
  dsimp only at h
  split at h
  · cases h
  split at h
  · cases h
  split at h
  · cases h
  split at h
  · cases h
  rename_i hactions
  rw [Bool.and_eq_true, any_eq_true] at h
  obtain ⟨htrees, step, hmem, hnode⟩ := h
  obtain rfl : step = node := mem_singleton.mp hmem
  refine policyCanFireInScope_intro (htree ▸ htrees) hstep.nodeId hnode fun hscoped => ?_
  rw [hscoped, Bool.true_and, Bool.not_eq_true', Bool.not_eq_false] at hactions
  obtain ⟨action, haction, hmatch⟩ := exists_action_of_actionSelectorMatches hactions
  exact ⟨action.id, hstep.actions action haction, hmatch⟩

theorem canFire_of_appliesToKnowledge {treeId : EnterpriseId}
    {foundationId : JsString} (htree : treeId = scope.treeId) (hstep : StepIn scope node)
    (h : policyAppliesToKnowledge policy treeId [node] foundationId) :
    policyCanFireInScope policy scope := by
  unfold policyAppliesToKnowledge at h
  split at h
  · cases h
  split at h
  · cases h
  rename_i hother
  rw [Bool.and_eq_true, any_eq_true] at h
  obtain ⟨htrees, step, hmem, hnode⟩ := h
  obtain rfl : step = node := mem_singleton.mp hmem
  refine policyCanFireInScope_intro (htree ▸ htrees) hstep.nodeId hnode fun hscoped => ?_
  rw [hscoped, Bool.or_true] at hother
  exact absurd rfl hother

theorem canFire_of_appliesToRun {treeId rootNodeId : EnterpriseId}
    (htree : treeId = scope.treeId) (hroot : rootNodeId ∈ scope.nodeIds)
    (h : policyAppliesToRun policy treeId rootNodeId) :
    policyCanFireInScope policy scope := by
  unfold policyAppliesToRun at h
  split at h
  · cases h
  rename_i hsubject
  rw [Bool.and_eq_true] at h
  refine policyCanFireInScope_intro (htree ▸ h.1) hroot h.2 fun hscoped => ?_
  rw [hasSubjectSelectors, hscoped, Bool.or_true, Bool.true_or] at hsubject
  exact absurd rfl hsubject

section Sequences

omit [LowerCase]

variable (policies : List GovernancePolicy)

theorem filter_byEffect (effect : GovernanceEffect) :
    (byEffect policies).filter (·.effect = effect) = policies.filter (·.effect = effect) := by
  simp only [byEffect, flatMap_cons, flatMap_nil, append_nil, filter_append, filter_filter]
  have hother : ∀ {a : GovernanceEffect}, a ≠ effect →
      policies.filter (fun policy => decide (policy.effect = effect) && decide (policy.effect = a)) = [] := by
    intro a hne
    refine filter_eq_nil_iff.mpr fun policy _ hboth => ?_
    rw [Bool.and_eq_true, decide_eq_true_eq, decide_eq_true_eq] at hboth
    exact hne (hboth.2.symm.trans hboth.1)
  cases effect <;> simp [hother]

theorem policyWinner_byEffect (applies : GovernancePolicy → Bool) :
    policyWinner ((byEffect policies).filter applies) = policyWinner (policies.filter applies) := by
  have hfind : ∀ effect : GovernanceEffect, ((byEffect policies).filter applies).find? (·.effect = effect) =
      (policies.filter applies).find? (·.effect = effect) := by
    intro effect
    rw [← head?_filter, ← head?_filter, filter_comm, filter_byEffect, filter_comm]
  simp only [policyWinner, hfind]

theorem policyWinner_map_canonical :
    policyWinner (policies.map canonicalPolicy) = (policyWinner policies).map canonicalPolicy := by
  have hfind : ∀ effect : GovernanceEffect, (policies.map canonicalPolicy).find? (·.effect = effect) =
      (policies.find? (·.effect = effect)).map canonicalPolicy := by
    intro effect
    rw [find?_map]
    rfl
  simp only [policyWinner, hfind, Option.map_or]

theorem resolvePolicyDecision_canonical (subject : JsString) :
    resolvePolicyDecision (policies.map canonicalPolicy) subject = resolvePolicyDecision policies subject := by
  unfold resolvePolicyDecision
  rw [policyWinner_map_canonical, Option.map_map]
  rfl

variable {policies others : List GovernancePolicy}

/-- **Lists with one sequence decide alike**, wherever what applies is seen in the canonical form and is governed. -/
theorem resolvePolicyDecision_eq {governs applies : GovernancePolicy → Bool}
    (hsequence : sequenceOf (policies.filter governs) = sequenceOf (others.filter governs))
    (hcanonical : ∀ policy, applies (canonicalPolicy policy) = applies policy)
    (hgoverns : ∀ policy, applies policy → governs policy) (subject : JsString) :
    resolvePolicyDecision (policies.filter applies) subject =
      resolvePolicyDecision (others.filter applies) subject := by
  have hsettled : ∀ list : List GovernancePolicy, resolvePolicyDecision (list.filter applies) subject =
      resolvePolicyDecision ((sequenceOf (list.filter governs)).filter applies) subject := by
    intro list
    have hfilter : (list.filter governs).filter applies = list.filter applies := by
      rw [filter_filter]
      refine filter_congr fun policy _ => ?_
      cases happlies : applies policy with
      | false => rfl
      | true => rw [hgoverns policy happlies, Bool.and_self]
    have hmap : (sequenceOf (list.filter governs)).filter applies =
        ((byEffect (list.filter governs)).filter applies).map canonicalPolicy := by
      rw [sequenceOf, filter_map]
      exact congrArg _ (filter_congr fun policy _ => hcanonical policy)
    rw [hmap, resolvePolicyDecision_canonical, resolvePolicyDecision, resolvePolicyDecision, policyWinner_byEffect,
      hfilter]
  rw [hsettled policies, hsettled others, hsequence]

theorem displaced_eq_nil_iff : displaced policies others = [] ↔
      ∀ (index : Nat) policy, policies[index]? = some policy →
        others[index]?.map canonicalPolicy = some (canonicalPolicy policy) := by
  simp only [displaced, map_eq_nil_iff, filter_eq_nil_iff, decide_eq_true_eq, not_not]
  constructor
  · intro h index policy hpolicy
    exact h (policy, index) (mem_zipIdx_iff_getElem?.mpr hpolicy)
  · rintro h ⟨policy, index⟩ hmem
    exact h index policy (mem_zipIdx_iff_getElem?.mp hmem)

theorem map_canonical_eq_of_displaced (h : displaced policies others = [])
    (h' : displaced others policies = []) : policies.map canonicalPolicy = others.map canonicalPolicy := by
  refine ext_getElem? fun index => ?_
  rw [getElem?_map, getElem?_map]
  cases hpolicy : policies[index]? with
  | some policy => rw [displaced_eq_nil_iff.mp h index policy hpolicy, Option.map_some]
  | none =>
    cases hother : others[index]? with
    | none => rfl
    | some other =>
      have hcounterpart := displaced_eq_nil_iff.mp h' index other hother
      rw [hpolicy] at hcounterpart
      cases hcounterpart

theorem toSorted_eq_nil_iff {items : List JsString} : toSorted items = [] ↔ items = [] := by
  rw [toSorted, ← length_eq_zero_iff, length_insertionSort, length_eq_zero_iff]

end Sequences

/-- **A comparison that reports nothing found one sequence** among the policies that can fire on the tree. -/
theorem sequenceOf_eq_of_reported_none {bundle : WorkflowBundle} {configured : List GovernancePolicy}
    {localMode : Option EnterpriseMode}
    (hmissing : (comparePolicies bundle configured localMode).missingGovernancePolicies = [])
    (hconflicting : (comparePolicies bundle configured localMode).conflictingGovernancePolicies = []) :
    sequenceOf (configured.filter (treeGovernancePredicate bundle.trees.head?)) =
      sequenceOf (bundle.carried.filter (treeGovernancePredicate bundle.trees.head?)) := by
  by_contra hne
  have hnone := toSorted_eq_nil_iff.mp hmissing
  have hall := filter_eq_nil_iff.mp (toSorted_eq_nil_iff.mp hconflicting)
  have hempty : conflictingPolicies (treeGovernancePredicate bundle.trees.head?) configured bundle.carried = [] := by
    refine eq_nil_iff_forall_not_mem.mpr fun id hid => ?_
    refine hall id (mem_eraseDups.mpr hid) ?_
    rw [hnone]
    rfl
  simp only [conflictingPolicies, if_pos hne, append_eq_nil_iff] at hempty
  exact hne (map_canonical_eq_of_displaced hempty.2.2 hempty.2.1)

/-! ## The steps of a plan -/

section Plans

omit [LowerCase]

mutual

theorem stepIn_visitPlanNode (keep : Option (Finset EnterpriseId)) (parentId : Option EnterpriseId)
    (nodes : List EnterprisePlanNode) : (node : WorkflowNodeDefinition) →
      ∀ step ∈ visitPlanNode keep parentId nodes node,
      step ∈ nodes ∨ (step.nodeId ∈ treeOrder node ∧
        ∀ action ∈ step.ontology.actions, action.id ∈ collectTreeActionIds node)
  | ⟨id, title, ontology, children⟩, step, hstep => by
    unfold visitPlanNode at hstep
    rw [treeOrder, collectTreeActionIds]
    split at hstep
    · rcases stepIn_visitPlanNodes keep (some id) _ children step hstep with hnodes | ⟨hid, hactions⟩
      · rcases mem_append.mp hnodes with hold | hnew
        · exact .inl hold
        · obtain rfl := mem_singleton.mp hnew
          exact .inr ⟨mem_cons_self, fun action haction => mem_append_left _ (mem_map_of_mem haction)⟩
      · exact .inr ⟨mem_cons_of_mem _ hid, fun action haction => mem_append_right _ (hactions action haction)⟩
    · exact .inl hstep

theorem stepIn_visitPlanNodes (keep : Option (Finset EnterpriseId)) (parentId : Option EnterpriseId)
    (nodes : List EnterprisePlanNode) : (children : List WorkflowNodeDefinition) →
      ∀ step ∈ visitPlanNodes keep parentId nodes children, step ∈ nodes ∨ (step.nodeId ∈ treesOrder children ∧
        ∀ action ∈ step.ontology.actions, action.id ∈ collectTreesActionIds children)
  | [], step, hstep => .inl hstep
  | child :: children, step, hstep => by
    rw [visitPlanNodes] at hstep
    rw [treesOrder, collectTreesActionIds]
    rcases stepIn_visitPlanNodes keep parentId _ children step hstep with hvisited | ⟨hid, hactions⟩
    · refine (stepIn_visitPlanNode keep parentId nodes child step hvisited).imp_right fun ⟨hid, hactions⟩ => ?_
      exact ⟨mem_append_left _ hid, fun action haction => mem_append_left _ (hactions action haction)⟩
    · exact .inr ⟨mem_append_right _ hid, fun action haction => mem_append_right _ (hactions action haction)⟩

end

/-- A plan of the tree, on the whole of it or on a route, wherever its cursor stands. -/
def PlanOf [RunEnvironment] (tree : WorkflowTreeDefinition) (plan : EnterpriseRunPlan) : Prop :=
  ∃ params built, params.tree = tree ∧ buildEnterpriseRunPlan params = .ok built ∧
    plan = { built with activeNodeId := plan.activeNodeId }

variable {tree : WorkflowTreeDefinition} {plan : EnterpriseRunPlan}

theorem PlanOf.treeId [RunEnvironment] (h : PlanOf tree plan) : plan.treeId = tree.id := by
  obtain ⟨params, built, rfl, hbuilt, hplan⟩ := h
  rw [hplan]
  exact (buildEnterpriseRunPlan_ok hbuilt).2.1

theorem PlanOf.stepIn [RunEnvironment]
    (h : PlanOf tree plan) {step : EnterprisePlanNode} (hstep : step ∈ plan.nodes) : StepIn (treeScope tree) step := by
  obtain ⟨params, built, rfl, hbuilt, hplan⟩ := h
  rw [hplan] at hstep
  dsimp only at hstep
  rw [(buildEnterpriseRunPlan_ok hbuilt).1] at hstep
  obtain ⟨hid, hactions⟩ := (stepIn_visitPlanNode _ none [] params.tree.root step hstep).resolve_left (by simp)
  exact ⟨hid, hactions⟩

theorem plannedSteps_ne_nil {keep : Option (Finset EnterpriseId)} (parentId : Option EnterpriseId)
    {node : WorkflowNodeDefinition} (h : keep.all (node.id ∈ ·)) : plannedSteps keep parentId node ≠ [] := by
  obtain ⟨id, title, ontology, children⟩ := node
  unfold plannedSteps
  rw [if_pos h]
  exact cons_ne_nil _ _

theorem PlanOf.rootNodeId_mem [RunEnvironment]
    (h : PlanOf tree plan) : rootNodeId plan ∈ (treeScope tree).nodeIds := by
  have hnodes : plan.nodes ≠ [] := by
    obtain ⟨params, built, rfl, hbuilt, hplan⟩ := h
    rw [hplan]
    dsimp only
    obtain ⟨hvisited, -, -, hroot⟩ := buildEnterpriseRunPlan_ok hbuilt
    rw [hvisited]
    intro hnil
    have hsteps := visitPlanNode_planned params.routeNodeIds none [] params.tree.root
    rw [← flattenPlanNodes, hnil] at hsteps
    exact plannedSteps_ne_nil none hroot hsteps.symm
  obtain ⟨root, rest, hcons⟩ := exists_cons_of_ne_nil hnodes
  rw [rootNodeId, hcons]
  exact (h.stepIn (hcons ▸ mem_cons_self)).nodeId

end Plans

/-- **A comparison that reports nothing is sound.** Under the policies configured here, every call and every retrieval
from a step of a plan of the bundle's tree, and the start of the run, is decided as under the policies the bundle
carries. -/
theorem comparePolicies_sound [RunEnvironment] {bundle : WorkflowBundle} {configured : List GovernancePolicy}
    {localMode : Option EnterpriseMode} {tree : WorkflowTreeDefinition} {plan : EnterpriseRunPlan}
    (htree : bundle.trees = [tree]) (hplan : PlanOf tree plan)
    (hmissing : (comparePolicies bundle configured localMode).missingGovernancePolicies = [])
    (hconflicting : (comparePolicies bundle configured localMode).conflictingGovernancePolicies = []) :
    (∀ node ∈ plan.nodes, ∀ call : ToolCall ν, evaluateToolCallGovernance plan node configured call =
        evaluateToolCallGovernance plan node bundle.carried call) ∧
      (∀ node ∈ plan.nodes, ∀ foundationId, evaluateKnowledgeRetrievalGovernance plan node foundationId configured =
        evaluateKnowledgeRetrievalGovernance plan node foundationId bundle.carried) ∧
      evaluateRunStartGovernance plan configured = evaluateRunStartGovernance plan bundle.carried := by
  have hsequence := sequenceOf_eq_of_reported_none hmissing hconflicting
  have hgoverns : ∀ policy, policyCanFireInScope policy (treeScope tree) = true →
      treeGovernancePredicate bundle.trees.head? policy = true := by
    intro policy hfires
    rw [htree]
    exact hfires
  refine ⟨fun node hnode call => ?_, fun node hnode foundationId => ?_, ?_⟩
  · unfold evaluateToolCallGovernance matchingPolicies
    rw [resolvePolicyDecision_eq hsequence (policyAppliesToToolCall_canonical · _) fun policy happlies =>
      hgoverns policy (canFire_of_appliesToToolCall hplan.treeId (hplan.stepIn hnode) happlies)]
  · unfold evaluateKnowledgeRetrievalGovernance
    rw [resolvePolicyDecision_eq hsequence (policyAppliesToKnowledge_canonical · _ _ _) fun policy happlies =>
      hgoverns policy (canFire_of_appliesToKnowledge hplan.treeId (hplan.stepIn hnode) happlies)]
  · unfold evaluateRunStartGovernance
    rw [resolvePolicyDecision_eq hsequence (policyAppliesToRun_canonical · _ _) fun policy happlies =>
      hgoverns policy (canFire_of_appliesToRun hplan.treeId hplan.rootNodeId_mem happlies)]

end Policies

section

attribute [local instance] asciiLowerCase plainEnvironment

def guardedBundle : WorkflowBundle where
  trees := [BUILTIN_ASSIST_TREE]
  governancePolicies := some [{ id := js "no-shell", effect := .deny, tools := some [js "exec", js "bash"] }]

/-- A deployment that denies them in another order, and has a policy for another tree. -/
def guardedPolicies : List GovernancePolicy :=
  [{ id := js "elsewhere", effect := .deny, trees := some [js "billing"], tools := some [js "read"] },
    { id := js "no-shell", effect := .deny, tools := some [js "bash", js "exec", js "bash"] }]

/-- The deployment decides on the tree what the sender of the bundle decided. -/
theorem guardedPolicies_sound :
    ∃ plan, PlanOf BUILTIN_ASSIST_TREE plan ∧ plan.nodes ≠ [] ∧
      (∀ node ∈ plan.nodes, ∀ call : ToolCall Int, evaluateToolCallGovernance plan node guardedPolicies call =
          evaluateToolCallGovernance plan node guardedBundle.carried call) ∧
        (∀ node ∈ plan.nodes, ∀ foundationId,
          evaluateKnowledgeRetrievalGovernance plan node foundationId guardedPolicies =
          evaluateKnowledgeRetrievalGovernance plan node foundationId guardedBundle.carried) ∧
        evaluateRunStartGovernance plan guardedPolicies = evaluateRunStartGovernance plan guardedBundle.carried := by
  cases hbuilt : buildEnterpriseRunPlan { runId := js "run", mode := .enforce, tree := BUILTIN_ASSIST_TREE } with
  | error error => cases hbuilt
  | ok plan =>
    have hplan : PlanOf BUILTIN_ASSIST_TREE plan := ⟨_, plan, rfl, hbuilt, rfl⟩
    refine ⟨plan, hplan, ?_, @comparePolicies_sound Int _ _ guardedBundle guardedPolicies none _ _ rfl hplan
      (by decide) (by decide)⟩
    rw [(buildEnterpriseRunPlan_ok hbuilt).1]
    exact cons_ne_nil _ _

end

end ClawWorks
