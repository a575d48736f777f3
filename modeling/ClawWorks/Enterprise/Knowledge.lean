import ClawWorks.Enterprise.BundlePolicies
import ClawWorks.Enterprise.ToolCallGate

/-!
# Knowledge retrieval

Adapters of knowledge foundations are registered in two places: by plugins for every run, and by imported bundles for the
runs on their own tree. A retrieval queries, in the order of their ids, the foundations that the active step allows and
no policy blocks.
-/

namespace ClawWorks

open List

section Retrieval

variable {σ : Type} [LowerCase]

/-! ## Foundations -/

/-- What an adapter is asked. -/
structure KnowledgeRequest where
  foundationId : EnterpriseId
  query : JsString
  limit : Nat

structure KnowledgeFoundationAdapter (σ : Type) where
  retrieve : KnowledgeRequest → Except JsString (List σ)

/-- The two registries: of the plugins, and of the bundles by the tree that imported them. -/
structure KnowledgeRegistry (σ : Type) where
  foundations : JsMap EnterpriseId (KnowledgeFoundationAdapter σ) := []
  bundleFoundationsByTree : JsMap EnterpriseId (JsMap EnterpriseId (KnowledgeFoundationAdapter σ)) := []

variable (registry : KnowledgeRegistry σ)

omit [LowerCase] in
def KnowledgeRegistry.ofTree (treeId : EnterpriseId) : JsMap EnterpriseId (KnowledgeFoundationAdapter σ) :=
  (registry.bundleFoundationsByTree.get treeId).getD []

omit [LowerCase] in
def resolveRetrievalAdapter (treeId foundationId : EnterpriseId) : Option (KnowledgeFoundationAdapter σ) :=
  (registry.foundations.get foundationId).or ((registry.ofTree treeId).get foundationId)

omit [LowerCase] in
def retrievalFoundationIds (treeId : EnterpriseId) : List EnterpriseId :=
  toSorted (distinct (registry.foundations.map (·.1) ++ (registry.ofTree treeId).map (·.1)))

def foundationAllowedByPath (path : List EnterprisePlanNode) (foundationId : EnterpriseId) (grantsExplicitly : Bool) :
    Bool :=
  let narrowed := path.all fun node =>
    node.ontology.knowledgeFoundations.isEmpty || node.ontology.knowledgeFoundations.contains foundationId
  if !narrowed || !grantsExplicitly then narrowed
  else path.any fun node => node.ontology.knowledgeFoundations.contains foundationId

/-! ## A retrieval -/

def DEFAULT_KNOWLEDGE_LIMIT : Nat := 5

/-- The arguments of `resolveEnterpriseKnowledge`. -/
structure KnowledgeParams where
  runId : JsString
  query : JsString
  /-- Foundations the model narrows its retrieval to. -/
  foundations : Option (List EnterpriseId) := none
  limit : Option Nat := none

def KnowledgeParams.retrievalLimit (params : KnowledgeParams) : Nat :=
  match params.limit with
  | some limit => if 0 < limit then limit else DEFAULT_KNOWLEDGE_LIMIT
  | none => DEFAULT_KNOWLEDGE_LIMIT

structure FoundationVisit (σ : Type) where
  recorded : List EnterpriseRunEvent := []
  queried : Option (KnowledgeFoundationAdapter σ) := none
  /-- The snippets of an adapter that answered. -/
  answer : Option (List σ) := none
  /-- Why the foundation is reported as skipped. -/
  skipped : Option JsString := none

/-- No interactive approval inside a retrieval: an approval blocks like a denial. -/
def blocksRetrieval (mode : EnterpriseMode) (decision : GovernanceDecision) : Bool :=
  mode = .enforce && (decision.effect = .deny || decision.effect = .requireApproval)

variable (run : EnterpriseActiveRun) (node : EnterprisePlanNode) (foundationId : EnterpriseId)

def knowledgeDecision : GovernanceDecision :=
  evaluateKnowledgeRetrievalGovernance run.plan node foundationId run.policies

omit [LowerCase] in
/-- The `governance.decision` event of a foundation. -/
def knowledgeDecisionEvent (decision : GovernanceDecision) : EnterpriseRunEvent where
  kind := .governanceDecision
  nodeId := some node.nodeId
  payload :=
    [("subject", .text (js "knowledge")), ("foundationId", .text foundationId), ("effect", .text decision.effect.text),
      ("enforced", .other), ("policyId", decision.policyId.elim .other .text),
      ("source", .text decision.source.text), ("reason", .text decision.reason)]

def stepAllowsFoundation : Bool :=
  foundationAllowedByPath [node] foundationId (run.plan.capabilityGrants = some .explicit)

/-- One pass of the loop over the candidates. -/
def visitFoundation (params : KnowledgeParams) (foundationId : EnterpriseId) : FoundationVisit σ :=
  if !stepAllowsFoundation run node foundationId then
    { skipped := params.foundations.map fun _ => js "not in this step's knowledge allow-list" }
  else
    let decision := knowledgeDecision run node foundationId
    let recorded :=
      if decision.source ≠ .default || node.ontology.audit then [knowledgeDecisionEvent node foundationId decision]
      else []
    if blocksRetrieval run.plan.mode decision then { recorded, skipped := some decision.reason }
    else
      match resolveRetrievalAdapter registry run.plan.treeId foundationId with
      | none => { recorded, skipped := some (js "knowledge foundation unavailable") }
      | some adapter =>
        match adapter.retrieve ⟨foundationId, params.query, params.retrievalLimit⟩ with
        | .ok results => { recorded, queried := some adapter, answer := some (results.take params.retrievalLimit) }
        -- one foundation's failure does not fail the whole call
        | .error _ => { recorded, queried := some adapter, skipped := some (js "retrieval failed") }

/-- What a retrieval returns, after the queries it made and the events it handed to the run's sink. -/
structure KnowledgeRetrieval (σ : Type) where
  queried : List (EnterpriseId × KnowledgeFoundationAdapter σ) := []
  recorded : List EnterpriseRunEvent := []
  snippets : List σ := []
  /-- Foundations that were queried and answered. -/
  searched : List EnterpriseId := []
  skipped : List (EnterpriseId × JsString) := []
  mediated : Bool

/-- The foundations a retrieval goes through: the ones asked for, else all it may retrieve and all its step names. -/
def retrievalCandidates (params : KnowledgeParams) : List EnterpriseId :=
  toSorted (distinct (params.foundations.getD
    (retrievalFoundationIds registry run.plan.treeId ++ node.ontology.knowledgeFoundations)))

/-- Retrieve knowledge for the active step of a run. -/
def resolveEnterpriseKnowledge (runs : ActiveRuns) (params : KnowledgeParams) : KnowledgeRetrieval σ :=
  match getEnterpriseActiveRun runs params.runId with
  | none => { mediated := false }
  | some run =>
    match findPlanNode run.plan run.plan.activeNodeId with
    | none => { mediated := true }
    | some node =>
      let visits := (retrievalCandidates registry run node params).map fun foundationId =>
        (foundationId, visitFoundation registry run node params foundationId)
      { queried := visits.filterMap fun visit => visit.2.queried.map (visit.1, ·)
        recorded := visits.flatMap (·.2.recorded)
        snippets := visits.flatMap (·.2.answer.getD [])
        searched := (visits.filter (·.2.answer.isSome)).map (·.1)
        skipped := visits.filterMap fun visit => visit.2.skipped.map (visit.1, ·)
        mediated := true }

section Visits

variable {registry : KnowledgeRegistry σ} {run : EnterpriseActiveRun} {node : EnterprisePlanNode}
  {params : KnowledgeParams} {foundationId : EnterpriseId} {adapter : KnowledgeFoundationAdapter σ}

omit [LowerCase] in
theorem resolveRetrievalAdapter_eq_some {treeId : EnterpriseId}
    (h : resolveRetrievalAdapter registry treeId foundationId = some adapter) :
    registry.foundations.get foundationId = some adapter ∨
      (registry.ofTree treeId).get foundationId = some adapter := by
  unfold resolveRetrievalAdapter at h
  rcases Option.or_eq_some_iff.mp h with hplugin | ⟨-, hbundle⟩
  · exact Or.inl hplugin
  · exact Or.inr hbundle

omit [LowerCase] in
theorem mem_retrievalFoundationIds {treeId : EnterpriseId}
    (h : resolveRetrievalAdapter registry treeId foundationId = some adapter) :
    foundationId ∈ retrievalFoundationIds registry treeId := by
  rw [retrievalFoundationIds, toSorted, mem_insertionSort, distinct, mem_eraseDups, mem_append]
  exact (resolveRetrievalAdapter_eq_some h).imp (fun h => mem_map.mpr ⟨_, JsMap.mem_of_get h, rfl⟩)
    fun h => mem_map.mpr ⟨_, JsMap.mem_of_get h, rfl⟩

theorem visitFoundation_queried : (visitFoundation registry run node params foundationId).queried = some adapter ↔
      stepAllowsFoundation run node foundationId ∧
        blocksRetrieval run.plan.mode (knowledgeDecision run node foundationId) = false ∧
        resolveRetrievalAdapter registry run.plan.treeId foundationId = some adapter := by
  unfold visitFoundation
  cases hallowed : stepAllowsFoundation run node foundationId with
  | false => simp
  | true =>
    cases hblocks : blocksRetrieval run.plan.mode (knowledgeDecision run node foundationId) with
    | true => simp [hblocks]
    | false =>
      cases hadapter : resolveRetrievalAdapter registry run.plan.treeId foundationId with
      | none => simp [hblocks]
      | some resolved =>
        cases hresults : resolved.retrieve ⟨foundationId, params.query, params.retrievalLimit⟩ <;>
          simp [hblocks, hresults]

theorem visitFoundation_answered (h : (visitFoundation registry run node params foundationId).answer.isSome) :
    (visitFoundation registry run node params foundationId).queried.isSome ∧
      (visitFoundation registry run node params foundationId).skipped = none := by
  unfold visitFoundation at h ⊢
  cases hallowed : stepAllowsFoundation run node foundationId with
  | false => simp [hallowed] at h
  | true =>
    cases hblocks : blocksRetrieval run.plan.mode (knowledgeDecision run node foundationId) with
    | true => simp [hallowed, hblocks] at h
    | false =>
      cases hadapter : resolveRetrievalAdapter registry run.plan.treeId foundationId with
      | none => simp [hallowed, hblocks, hadapter] at h
      | some resolved =>
        cases hresults : resolved.retrieve ⟨foundationId, params.query, params.retrievalLimit⟩ with
        | ok results => simp [hblocks, hresults]
        | error message => simp [hallowed, hblocks, hadapter, hresults] at h

theorem visitFoundation_failed {reason : JsString}
    (hqueried : (visitFoundation registry run node params foundationId).queried = some adapter)
    (hskipped : (visitFoundation registry run node params foundationId).skipped = some reason) :
    ∃ message, adapter.retrieve ⟨foundationId, params.query, params.retrievalLimit⟩ = .error message := by
  obtain ⟨hallowed, hblocks, hadapter⟩ := visitFoundation_queried.mp hqueried
  unfold visitFoundation at hskipped
  rw [hallowed, hadapter] at hskipped
  simp only [Bool.not_true, Bool.false_eq_true, if_false, hblocks] at hskipped
  cases hresults : adapter.retrieve ⟨foundationId, params.query, params.retrievalLimit⟩ with
  | ok results =>
    rw [hresults] at hskipped
    cases hskipped
  | error message => exact ⟨message, rfl⟩

end Visits

/-! ## The whole retrieval -/

section Whole

variable {registry : KnowledgeRegistry σ} {runs : ActiveRuns} {params : KnowledgeParams} {run : EnterpriseActiveRun}
  {node : EnterprisePlanNode} {foundationId : EnterpriseId} {adapter : KnowledgeFoundationAdapter σ}

structure RetrievesFrom (runs : ActiveRuns) (params : KnowledgeParams) (run : EnterpriseActiveRun)
    (node : EnterprisePlanNode) : Prop where
  registered : getEnterpriseActiveRun runs params.runId = some run
  active : findPlanNode run.plan run.plan.activeNodeId = some node

theorem exists_retrievesFrom (h : ¬((resolveEnterpriseKnowledge registry runs params).queried = [] ∧
      (resolveEnterpriseKnowledge registry runs params).searched = [] ∧
      (resolveEnterpriseKnowledge registry runs params).skipped = [])) :
    ∃ run node, RetrievesFrom runs params run node := by
  unfold resolveEnterpriseKnowledge at h
  cases hrun : getEnterpriseActiveRun runs params.runId with
  | none => exact absurd ⟨by rw [hrun], by rw [hrun], by rw [hrun]⟩ h
  | some run =>
    cases hnode : findPlanNode run.plan run.plan.activeNodeId with
    | none =>
      rw [hrun] at h
      simp [hnode] at h
    | some node => exact ⟨run, node, hrun, hnode⟩

section

variable (h : RetrievesFrom runs params run node)

include h

theorem mem_queried_iff : (foundationId, adapter) ∈ (resolveEnterpriseKnowledge registry runs params).queried ↔
      foundationId ∈ retrievalCandidates registry run node params ∧
        (visitFoundation registry run node params foundationId).queried = some adapter := by
  unfold resolveEnterpriseKnowledge
  simp only [h.registered, h.active, filterMap_map, mem_filterMap, Function.comp_apply, Option.map_eq_some_iff,
    Prod.mk.injEq]
  constructor
  · rintro ⟨_, hmem, _, hqueried, rfl, rfl⟩
    exact ⟨hmem, hqueried⟩
  · exact fun ⟨hmem, hqueried⟩ => ⟨_, hmem, _, hqueried, rfl, rfl⟩

theorem mem_searched_iff : foundationId ∈ (resolveEnterpriseKnowledge registry runs params).searched ↔
      foundationId ∈ retrievalCandidates registry run node params ∧
        (visitFoundation registry run node params foundationId).answer.isSome := by
  unfold resolveEnterpriseKnowledge
  simp only [h.registered, h.active, mem_map, mem_filter]
  constructor
  · rintro ⟨_, ⟨⟨_, hmem, rfl⟩, hanswer⟩, rfl⟩
    exact ⟨hmem, hanswer⟩
  · exact fun ⟨hmem, hanswer⟩ => ⟨_, ⟨⟨_, hmem, rfl⟩, hanswer⟩, rfl⟩

theorem mem_skipped_iff {reason : JsString} :
    (foundationId, reason) ∈ (resolveEnterpriseKnowledge registry runs params).skipped ↔
      foundationId ∈ retrievalCandidates registry run node params ∧
        (visitFoundation registry run node params foundationId).skipped = some reason := by
  unfold resolveEnterpriseKnowledge
  simp only [h.registered, h.active, filterMap_map, mem_filterMap, Function.comp_apply, Option.map_eq_some_iff,
    Prod.mk.injEq]
  constructor
  · rintro ⟨_, hmem, _, hskipped, rfl, rfl⟩
    exact ⟨hmem, hskipped⟩
  · exact fun ⟨hmem, hskipped⟩ => ⟨_, hmem, _, hskipped, rfl, rfl⟩

end

def SameForTree (registry other : KnowledgeRegistry σ) (treeId : EnterpriseId) : Prop :=
  other.foundations = registry.foundations ∧ other.ofTree treeId = registry.ofTree treeId

theorem resolveEnterpriseKnowledge_eq {other : KnowledgeRegistry σ}
    (h : ∀ run, getEnterpriseActiveRun runs params.runId = some run → SameForTree registry other run.plan.treeId) :
    resolveEnterpriseKnowledge other runs params = resolveEnterpriseKnowledge registry runs params := by
  unfold resolveEnterpriseKnowledge
  cases hrun : getEnterpriseActiveRun runs params.runId with
  | none => rfl
  | some run =>
    obtain ⟨hplugins, htree⟩ := h run hrun
    have hadapters : ∀ foundationId, resolveRetrievalAdapter other run.plan.treeId foundationId =
        resolveRetrievalAdapter registry run.plan.treeId foundationId := fun _ => by
      rw [resolveRetrievalAdapter, resolveRetrievalAdapter, hplugins, htree]
    have hids : retrievalFoundationIds other run.plan.treeId = retrievalFoundationIds registry run.plan.treeId := by
      rw [retrievalFoundationIds, retrievalFoundationIds, hplugins, htree]
    simp only [retrievalCandidates, hids, visitFoundation, hadapters]

structure ConfinedRetrieval (registry : KnowledgeRegistry σ) (runs : ActiveRuns) (params : KnowledgeParams)
    (result : KnowledgeRetrieval σ) : Prop where
  /-- A queried foundation is one the active step allows and no policy blocks, under an adapter of the plugins or of the
  run's own tree. -/
  inScope : ∀ foundationId adapter, (foundationId, adapter) ∈ result.queried →
    ∃ run node, RetrievesFrom runs params run node ∧ stepAllowsFoundation run node foundationId = true ∧
      blocksRetrieval run.plan.mode (knowledgeDecision run node foundationId) = false ∧
      (registry.foundations.get foundationId = some adapter ∨
        (registry.ofTree run.plan.treeId).get foundationId = some adapter)
  answered : ∀ foundationId ∈ result.searched, ∃ adapter, (foundationId, adapter) ∈ result.queried
  disjoint : ∀ foundationId ∈ result.searched, ∀ reason, (foundationId, reason) ∉ result.skipped
  failed : ∀ foundationId adapter reason, (foundationId, adapter) ∈ result.queried →
    (foundationId, reason) ∈ result.skipped →
    ∃ message, adapter.retrieve ⟨foundationId, params.query, params.retrievalLimit⟩ = .error message
  /-- Naming targets only narrows. -/
  narrowed : ∀ entry ∈ result.queried,
    entry ∈ (resolveEnterpriseKnowledge registry runs { params with foundations := none }).queried
  /-- What other trees registered is not seen. -/
  isolated : ∀ other : KnowledgeRegistry σ,
    (∀ run, getEnterpriseActiveRun runs params.runId = some run → SameForTree registry other run.plan.treeId) →
    resolveEnterpriseKnowledge other runs params = result

/-- **A retrieval stays in the scope of its step and its tree.** -/
theorem resolveEnterpriseKnowledge_confined (registry : KnowledgeRegistry σ) (runs : ActiveRuns)
    (params : KnowledgeParams) :
    ConfinedRetrieval registry runs params (resolveEnterpriseKnowledge registry runs params) := by
  have hfrom : ∀ {entry}, entry ∈ (resolveEnterpriseKnowledge registry runs params).queried →
      ∃ run node, RetrievesFrom runs params run node := fun hmem =>
    exists_retrievesFrom fun hempty => by rw [hempty.1] at hmem; cases hmem
  have hfromSearched : ∀ {id}, id ∈ (resolveEnterpriseKnowledge registry runs params).searched →
      ∃ run node, RetrievesFrom runs params run node := fun hmem =>
    exists_retrievesFrom fun hempty => by rw [hempty.2.1] at hmem; cases hmem
  refine ⟨fun id adapter hmem => ?_, fun id hmem => ?_, fun id hmem reason hskipped => ?_,
    fun id adapter reason hmem hskipped => ?_, fun ⟨id, adapter⟩ hmem => ?_, fun other h => ?_⟩
  · obtain ⟨run, node, hstep⟩ := hfrom hmem
    obtain ⟨hallowed, hblocks, hadapter⟩ := visitFoundation_queried.mp ((mem_queried_iff hstep).mp hmem).2
    exact ⟨run, node, hstep, hallowed, hblocks, resolveRetrievalAdapter_eq_some hadapter⟩
  · obtain ⟨run, node, hstep⟩ := hfromSearched hmem
    obtain ⟨hcandidate, hanswer⟩ := (mem_searched_iff hstep).mp hmem
    obtain ⟨adapter, hadapter⟩ := Option.isSome_iff_exists.mp (visitFoundation_answered hanswer).1
    exact ⟨adapter, (mem_queried_iff hstep).mpr ⟨hcandidate, hadapter⟩⟩
  · obtain ⟨run, node, hstep⟩ := hfromSearched hmem
    have hanswer := ((mem_searched_iff hstep).mp hmem).2
    have hreason := ((mem_skipped_iff hstep).mp hskipped).2
    rw [(visitFoundation_answered hanswer).2] at hreason
    cases hreason
  · obtain ⟨run, node, hstep⟩ := hfrom hmem
    exact visitFoundation_failed ((mem_queried_iff hstep).mp hmem).2 ((mem_skipped_iff hstep).mp hskipped).2
  · obtain ⟨run, node, hstep⟩ := hfrom hmem
    have hqueried := visitFoundation_queried.mp ((mem_queried_iff hstep).mp hmem).2
    have hwide : RetrievesFrom runs { params with foundations := none } run node := ⟨hstep.registered, hstep.active⟩
    refine (mem_queried_iff hwide).mpr ⟨?_, visitFoundation_queried.mpr hqueried⟩
    rw [retrievalCandidates, toSorted, mem_insertionSort, distinct, mem_eraseDups]
    exact mem_append_left _ (mem_retrievalFoundationIds hqueried.2.2)
  · exact resolveEnterpriseKnowledge_eq h

end Whole

end Retrieval

section Failing

attribute [local instance] asciiLowerCase

/-- A run of one step that may query everything. -/
def openRunOf : ActiveRuns := fun runId =>
  if runId = js "run" then
    some { plan := { runId, treeId := js "desk", activeNodeId := js "triage", nodes := [{ nodeId := js "triage" }] } }
  else none

def downRegistry : KnowledgeRegistry JsString where
  foundations := [(js "wiki", ⟨fun _ => .error (js "unreachable")⟩)]

/-- **A foundation that fails is both queried and skipped.** -/
theorem failing_foundation_queried_and_skipped :
    js "wiki" ∈ (resolveEnterpriseKnowledge downRegistry openRunOf ⟨js "run", js "refunds", none, none⟩).queried.map (·.1) ∧
      js "wiki" ∈ (resolveEnterpriseKnowledge downRegistry openRunOf ⟨js "run", js "refunds", none, none⟩).skipped.map
        (·.1) := by
  decide

end Failing

end ClawWorks
