import ClawWorks.Enterprise.ActiveRuns
import ClawWorks.Enterprise.Runtime
import ClawWorks.Lib.Outcome

/-!
# The gate of a tool call

A call of a mediated run is judged once its active step is found: a write to the ontology by the step's opt-in alone,
any other call by the governance layers. Whatever is thrown on the way is caught, and refused in enforce mode. What was
decided goes to the run's sink, and with it an action the call was let out for.
-/

namespace ClawWorks

section Calls

variable {ν : Type} [LowerCase]

/-- Does this tool's subject come from its parameters rather than its name? -/
def toolCarriesOntologyAction (toolName : JsString) : Bool :=
  toolName = js "invoke_action"

def ONTOLOGY_WRITE_OPT_INS : List JsString :=
  [js "invoke_action", js "group:enterprise-write"]

def explicitlyAllowsOntologyWrites (node : EnterprisePlanNode) : Bool :=
  node.ontology.allowedTools.any fun tool => toLowerCase (trim tool) ∈ ONTOLOGY_WRITE_OPT_INS

structure EnterpriseToolCallVerdict where
  decision : GovernanceDecision
  nodeId : EnterpriseId
  treeId : EnterpriseId
  mode : EnterpriseMode
  /-- The decision must block execution. -/
  blocked : Bool
  /-- The call waits for a human approval. -/
  requiresApproval : Bool

/-- The arguments of `evaluateEnterpriseToolCall`. -/
structure ToolCallParams (ν : Type) where
  runId : Option JsString := none
  toolName : JsString
  mcpTool : Option McpRegistration := none
  toolCallId : Option JsString := none
  actionId : Option JsString := none
  /-- `false` where a later pass judges the call again. -/
  record : Bool := true
  /-- `false` records the decision without claiming the call was dispatched. -/
  released : Bool := true
  toolParams : OntologyRecord ν := []

/-- The governance layers, which may throw. -/
abbrev GovernanceGate (ν : Type) :=
  EnterpriseActiveRun → EnterprisePlanNode → ToolCall ν → Except JsString GovernanceDecision

/-- The layers as they are: they throw nothing of their own. -/
def governanceGate : GovernanceGate ν :=
  fun run node call => .ok (evaluateToolCallGovernance run.plan node run.policies call)

omit [LowerCase] in
def toolCallOf [RunEnvironment] (run : EnterpriseActiveRun) (params : ToolCallParams ν) : ToolCall ν where
  toolName := params.toolName
  actionId := params.actionId
  carriesAction := toolCarriesOntologyAction params.toolName
  mcpTool := params.mcpTool
  mcpServers := run.mcpServers.getD []
  tracksSteps := planTracksSteps run.plan
  args := params.toolParams

def GovernanceEffect.text : GovernanceEffect → JsString
  | .allow => js "allow"
  | .deny => js "deny"
  | .audit => js "audit"
  | .requireApproval => js "require_approval"

def GovernanceSource.text : GovernanceSource → JsString
  | .ontology => js "ontology"
  | .policy => js "policy"
  | .default => js "default"

omit [LowerCase] in
/-- The `governance.decision` event of a call. -/
def decisionEvent (verdict : EnterpriseToolCallVerdict) (params : ToolCallParams ν) : EnterpriseRunEvent where
  kind := .governanceDecision
  nodeId := some verdict.nodeId
  payload :=
    [("subject", .text (js "tool_call")), ("toolName", .text params.toolName)] ++
      params.actionId.elim [] (fun actionId => [("actionId", .text actionId)]) ++
      textField "toolCallId" params.toolCallId ++
      [("effect", .text verdict.decision.effect.text), ("enforced", .other),
        ("policyId", verdict.decision.policyId.elim .other .text), ("source", .text verdict.decision.source.text),
        ("reason", .text verdict.decision.reason)]

variable (plan : EnterpriseRunPlan)

/-- The `action.invoked` event of a call that goes out. -/
def actionInvokedEvent (actionId : EnterpriseId) : EnterpriseRunEvent where
  kind := .actionInvoked
  nodeId := some plan.activeNodeId
  payload := [("actionId", .text actionId), ("writes", .other), ("context", .other)]

/-! ## The gate -/

variable (node : EnterprisePlanNode)

def writeDenial : EnterpriseToolCallVerdict where
  decision := ontologyDenial (js "workflow step " ++ quoted node.nodeId ++
    js " does not allow ontology writes; a step must name invoke_action in its allowedTools")
  nodeId := node.nodeId
  treeId := plan.treeId
  mode := plan.mode
  blocked := plan.mode = .enforce
  requiresApproval := false

def layersVerdict (decision : GovernanceDecision) : EnterpriseToolCallVerdict where
  decision := decision
  nodeId := node.nodeId
  treeId := plan.treeId
  mode := plan.mode
  blocked := decision.effect = .deny && plan.mode = .enforce
  requiresApproval := decision.effect = .requireApproval && plan.mode = .enforce

/-- The verdict of an evaluation that failed: closed in enforce mode, open in observe mode. -/
def failureVerdict (message : JsString) : EnterpriseToolCallVerdict where
  decision :=
    { effect := if plan.mode = .enforce then .deny else .allow
      policyId := none
      source := .default
      reason := js "enterprise governance evaluation failed: " ++ message }
  nodeId := plan.activeNodeId
  treeId := plan.treeId
  mode := plan.mode
  blocked := plan.mode = .enforce
  requiresApproval := false

/-- What is recorded of a decision of the layers: the decision, unless it is a default nobody audits or an approval to
come, and the outward action a released call was let out for. -/
def layersRecord (verdict : EnterpriseToolCallVerdict) (params : ToolCallParams ν) : List EnterpriseRunEvent :=
  let decision := verdict.decision
  let silentDefaultAllow := decision.effect = .allow && decision.source = .default && !node.ontology.audit
  let decided :=
    if (verdict.blocked || params.record) && !silentDefaultAllow && !verdict.requiresApproval then
      [decisionEvent verdict params]
    else []
  let dispatched :=
    match truthy? decision.outwardActionId with
    | none => []
    | some actionId =>
      if params.released && !verdict.blocked && !verdict.requiresApproval && decision.effect ≠ .deny then
        [actionInvokedEvent plan actionId]
      else []
  decided ++ dispatched

variable [RunEnvironment]

variable (gate : GovernanceGate ν) (run : EnterpriseActiveRun)

def judgeToolCall (params : ToolCallParams ν) :
    Except JsString (EnterpriseToolCallVerdict × List EnterpriseRunEvent) :=
  match findPlanNode run.plan run.plan.activeNodeId with
  | none => .error (js "active workflow node " ++ quoted run.plan.activeNodeId ++ js " missing from plan")
  | some node =>
    if toolCarriesOntologyAction params.toolName && !explicitlyAllowsOntologyWrites node then
      let verdict := writeDenial run.plan node
      .ok (verdict, if verdict.blocked || params.record then [decisionEvent verdict params] else [])
    else do
      let decision ← gate run node (toolCallOf run params)
      let verdict := layersVerdict run.plan node decision
      .ok (verdict, layersRecord run.plan node verdict params)

def evaluateRunToolCall (params : ToolCallParams ν) : EnterpriseToolCallVerdict × List EnterpriseRunEvent :=
  match judgeToolCall gate run params with
  | .ok judged => judged
  | .error message =>
    let verdict := failureVerdict run.plan message
    (verdict, [decisionEvent verdict params])

/-- Judge one tool call; a call of no registered run is not judged. -/
def evaluateEnterpriseToolCall (runs : ActiveRuns) (params : ToolCallParams ν) :
    Option EnterpriseToolCallVerdict × ActiveRuns :=
  match truthy? params.runId with
  | none => (none, runs)
  | some runId =>
    match getEnterpriseActiveRun runs runId with
    | none => (none, runs)
    | some run =>
      let (verdict, recorded) := evaluateRunToolCall gate run params
      (some verdict, Function.update runs runId (some { run with trace := run.trace ++ recorded }))

/-! ## Verdicts and records agree -/

def OptsIn : Prop :=
  ∃ node, findPlanNode run.plan run.plan.activeNodeId = some node ∧ explicitlyAllowsOntologyWrites node = true

/-- What the verdict on a call promises, and what is recorded of it. -/
structure GatedCall (gate : GovernanceGate ν) (run : EnterpriseActiveRun) (params : ToolCallParams ν)
    (verdict : EnterpriseToolCallVerdict) (recorded : List EnterpriseRunEvent) : Prop where
  /-- An observed call goes through. -/
  observed : run.plan.mode = .observe → verdict.blocked = false ∧ verdict.requiresApproval = false
  /-- An enforced call whose evaluation throws is blocked. -/
  failed : ∀ message, judgeToolCall gate run params = .error message → run.plan.mode = .enforce →
    verdict.blocked = true
  blocked : verdict.blocked = true → decisionEvent verdict params ∈ recorded
  /-- An action on record belongs to a call that was let out. -/
  dispatched : ∀ event ∈ recorded, event.kind = .actionInvoked →
    verdict.blocked = false ∧ verdict.requiresApproval = false ∧ verdict.decision.effect ≠ .deny
  /-- An enforced write without an opt-in is blocked. -/
  write : toolCarriesOntologyAction params.toolName = true → ¬ OptsIn run → run.plan.mode = .enforce →
    verdict.blocked = true
  /-- A write without an opt-in is denied by every step of the plan, also where it goes through. -/
  writeDenied : toolCarriesOntologyAction params.toolName = true → ¬ OptsIn run →
    (findPlanNode run.plan run.plan.activeNodeId).isSome = true → verdict.decision.effect = .deny

section Gate

variable {gate : GovernanceGate ν} {run : EnterpriseActiveRun} {params : ToolCallParams ν}

omit [RunEnvironment] [LowerCase] in
theorem mem_layersRecord_of_blocked {plan : EnterpriseRunPlan} {node : EnterprisePlanNode}
    {verdict : EnterpriseToolCallVerdict} (hblocked : verdict.blocked) (heffect : verdict.decision.effect = .deny)
    (happroval : verdict.requiresApproval = false) :
    decisionEvent verdict params ∈ layersRecord plan node verdict params := by
  unfold layersRecord
  refine List.mem_append_left _ ?_
  simp [hblocked, heffect, happroval]

omit [RunEnvironment] [LowerCase] in
theorem dispatched_of_layersRecord {plan : EnterpriseRunPlan} {node : EnterprisePlanNode}
    {verdict : EnterpriseToolCallVerdict} {event : EnterpriseRunEvent}
    (h : event ∈ layersRecord plan node verdict params) (hkind : event.kind = .actionInvoked) :
    verdict.blocked = false ∧ verdict.requiresApproval = false ∧ verdict.decision.effect ≠ .deny := by
  unfold layersRecord at h
  rcases List.mem_append.mp h with hdecided | hdispatched
  · split at hdecided
    · obtain rfl := List.mem_singleton.mp hdecided
      cases hkind
    · cases hdecided
  · split at hdispatched
    · cases hdispatched
    · split at hdispatched
      · rename_i hout
        simp only [Bool.and_eq_true, Bool.not_eq_true', decide_eq_true_eq] at hout
        exact ⟨hout.1.1.2, hout.1.2, hout.2⟩
      · cases hdispatched

/-- **A verdict and its record agree**, whatever the governance layers answer or throw. -/
theorem evaluateRunToolCall_gated (gate : GovernanceGate ν) (run : EnterpriseActiveRun) (params : ToolCallParams ν) :
    GatedCall gate run params (evaluateRunToolCall gate run params).1 (evaluateRunToolCall gate run params).2 := by
  have hmodes : run.plan.mode = .observe → decide (run.plan.mode = .enforce) = false := fun h => by rw [h]; rfl
  unfold evaluateRunToolCall
  cases hjudged : judgeToolCall gate run params with
  | error message =>
    refine ⟨fun hmode => ⟨hmodes hmode, rfl⟩, fun _ _ hmode => decide_eq_true hmode, fun _ => List.mem_singleton_self _,
      fun event hevent hkind => ?_, fun _ _ hmode => decide_eq_true hmode, fun hcarries hcloses hplanned => ?_⟩
    · obtain rfl := List.mem_singleton.mp hevent
      cases hkind
    -- the step was found, so it was the layers that threw, which a closed step never asks
    · obtain ⟨node, hnode⟩ := Option.isSome_iff_exists.mp hplanned
      have hopt : explicitlyAllowsOntologyWrites node = false :=
        Bool.eq_false_iff.mpr fun hopts => hcloses ⟨node, hnode, hopts⟩
      unfold judgeToolCall at hjudged
      simp [hnode, hcarries, hopt] at hjudged
  | ok judged =>
    change GatedCall gate run params judged.1 judged.2
    have hreturns : ∀ message, judgeToolCall gate run params ≠ .error message :=
      fun message h => nomatch hjudged.symm.trans h
    unfold judgeToolCall at hjudged
    cases hnode : findPlanNode run.plan run.plan.activeNodeId with
    | none =>
      rw [hnode] at hjudged
      cases hjudged
    | some node =>
      rw [hnode] at hjudged
      dsimp only at hjudged
      split at hjudged
      · cases hjudged
        refine ⟨fun hmode => ⟨hmodes hmode, rfl⟩, fun message h => absurd h (hreturns message), fun hblocked => ?_,
          fun event hevent hkind => ?_, fun _ _ hmode => decide_eq_true hmode, fun _ _ _ => rfl⟩
        · rw [hblocked, Bool.true_or, if_pos rfl]
          exact List.mem_singleton_self _
        · split at hevent
          · obtain rfl := List.mem_singleton.mp hevent
            cases hkind
          · cases hevent
      · rename_i hopen
        obtain ⟨decision, hdecision, hout⟩ := Except.bind_eq_ok.mp hjudged
        cases hout
        have hopts : toolCarriesOntologyAction params.toolName → OptsIn run := fun hcarries =>
          ⟨node, hnode, by simpa [hcarries] using hopen⟩
        refine ⟨fun hmode => ?_, fun message h => absurd h (hreturns message), fun hblocked => ?_,
          fun event hevent hkind => dispatched_of_layersRecord hevent hkind,
          fun hcarries hcloses => absurd (hopts hcarries) hcloses,
          fun hcarries hcloses => absurd (hopts hcarries) hcloses⟩
        · simp [layersVerdict, hmode]
        · obtain ⟨heffect, -⟩ := (Bool.and_eq_true _ _).mp hblocked
          have heffect := of_decide_eq_true heffect
          exact mem_layersRecord_of_blocked hblocked heffect (by simp [layersVerdict, heffect])

end Gate

end Calls

section Writes

attribute [local instance] asciiLowerCase plainEnvironment

/-- A run of one step that allows a search tool and no writes. -/
def readingRun (mode : EnterpriseMode) : EnterpriseActiveRun where
  plan :=
    { runId := js "run", treeId := js "desk", activeNodeId := js "triage", mode
      nodes := [{ nodeId := js "triage", ontology := { allowedTools := [js "search_objects"] } }] }

/-- An observing run whose cursor stands on a step its plan does not have. -/
def strayRun : EnterpriseActiveRun where
  plan := { (readingRun .observe).plan with activeNodeId := js "elsewhere" }

def runsOf (run : EnterpriseActiveRun) : ActiveRuns := fun runId =>
  if runId = js "run" then some run else none

def writeCall : ToolCallParams Int where
  runId := some (js "run")
  toolName := js "invoke_action"

end Writes

end ClawWorks
