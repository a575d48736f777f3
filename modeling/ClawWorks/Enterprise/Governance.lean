import ClawWorks.Enterprise.ActionParameters
import ClawWorks.Enterprise.McpCallableNames

/-!
# Governance evaluation

Two layers for every tool call: the tool scope of the active node, then the matching policies
(`evaluateToolCallGovernance`). Matching policies compose by precedence, deny before approval before allow before audit
(`resolvePolicyDecision`).
-/

namespace ClawWorks

structure McpRegistration where
  serverName : JsString
  safeServerName : JsString
  toolName : JsString
  deriving DecidableEq

/-- Which MCP server a call belongs to, and how its tool is spelled. -/
structure McpOwnership where
  name : JsString
  namespaces : List JsString
  toolPart : JsString

/-- Every way one call can be named. -/
structure McpCallIdentity where
  /-- The name that arrived, plus the rewrites of each runtime. -/
  identities : List JsString
  /-- Hook namespaces of the owning server; empty for a call that is no MCP call. -/
  namespaces : List JsString
  /-- Canonical spellings of the operation itself. -/
  toolParts : List JsString

/-- What the gate is asked about. -/
structure ToolCall (ν : Type) where
  toolName : JsString
  actionId : Option JsString := none
  /-- The action is named in the parameters, as for `invoke_action`. -/
  carriesAction : Bool := false
  mcpTool : Option McpRegistration := none
  /-- MCP servers registered for the run; only these are attachable. -/
  mcpServers : List JsString := []
  tracksSteps : Bool := false
  /-- The arguments; a call whose parameters are no record has none. -/
  args : OntologyRecord ν := []

def WORKFLOW_STEP_ADVANCE_TOOL : JsString :=
  js "complete_step"

variable {ν : Type} [LowerCase]

def isWorkflowControlTool (toolName : JsString) (mcpTool : Option McpRegistration) : Bool :=
  mcpTool.isNone && toLowerCase (trim toolName) = WORKFLOW_STEP_ADVANCE_TOOL

def matchesSelector (value : JsString) (globs : Option (List JsString)) : Bool :=
  match globs with
  | none => true
  | some [] => true
  | some globs => allowedBy globs value

variable (policy : GovernancePolicy)

def policyTargetsTree (treeId : EnterpriseId) : Bool :=
  matchesSelector treeId policy.trees

def isScoped (selectors : Option (List JsString)) : Bool :=
  selectors.any (!·.isEmpty)

def hashSlotShapes (callableNamespace : JsString) (toolParts : List JsString) : List (JsString × JsString) :=
  toolParts.flatMap fun tool =>
    [(callableNamespace ++ js "_", js "__" ++ tool), (callableNamespace ++ js "__", js "__" ++ tool),
      (callableNamespace ++ js "__", [])] ++
    (List.range tool.length).map fun index =>
      (callableNamespace ++ js "__" ++ tool.take (index + 1) ++ js "_", [])

def rewrittenNameReachesCall (entry : JsString) (namespaces toolParts : List JsString) : Bool :=
  let selector := toLowerCase (trim entry)
  let named :=
    match mcpDenialToolPart selector namespaces with
    | none => false
    | some part =>
      isUnrecoverableToolPart part.tool || (part.hashed &&
          (if part.tool = [] then decide ([] ∈ toolParts) else toolParts.any (deniedBy [part.tool] ·)))
  named || (decide (STAR ∈ selector) && namespaces.any fun callableNamespace =>
        (hashSlotShapes callableNamespace toolParts).any fun shape => globMatchesHashSlot selector shape.1 shape.2)

def selectorsCoverCall (selectors : List JsString) (call : McpCallIdentity) : Bool :=
  call.identities.any (matchesSelector · (some selectors)) ||
    (!call.namespaces.isEmpty && selectors.any (rewrittenNameReachesCall · call.namespaces call.toolParts))

/-! ## The actions of a step -/

variable (path : List EnterprisePlanNode)

omit [LowerCase] in
/-- Active declarations, the last one under an id. -/
def effectiveActionsOnPath : List OntologyAction :=
  ((path.flatMap (·.ontology.actions)).foldl (fun effective action => JsMap.set effective action.id action)
    []).map (·.2)

variable (call : McpCallIdentity)

def actionsCoveringTool : List OntologyAction :=
  (effectiveActionsOnPath path).filter fun action =>
    match action.tools with
    | none => true
    | some tools => !tools.isEmpty && selectorsCoverCall tools call

omit [LowerCase] in
def outwardActionsOnPath : List OntologyAction :=
  (effectiveActionsOnPath path).filter fun action => !(outwardTools action).isEmpty

omit [LowerCase] in
/-- Why a call does not satisfy the action it claims to be. -/
def actionContractViolation (action : OntologyAction) (args : OntologyRecord ν) : Option JsString :=
  declaredArgumentsError action args fun parameter =>
    argumentError args parameter (js "action " ++ quoted action.id ++ js " requires " ++ quoted parameter.id ++
        js ", which this call did not pass")
      (fun got => js "action " ++ quoted action.id ++ js " declares " ++ quoted parameter.id ++ js " as " ++
        parameter.type.text ++ js ", but this call passed " ++ got)

/-- One spelling for every form a harness may produce. -/
def foldCallableName (value : JsString) : JsString :=
  toLowerCase ((withLegacyPrefix value).map fun u => if u = 45 then UNDERSCORE else u)

def outwardSelectorMatchesName (selector toolName : JsString) : Bool :=
  matchesSelector (foldCallableName toolName) (some [foldCallableName selector])

def outwardTargetsServer (outward : List OntologyAction) (namespaces : List JsString) : Bool :=
  outward.any fun action =>
    (outwardTools action).any fun selector =>
      namespaces.any fun name => (foldCallableName name ++ js "__").isPrefixOf (foldCallableName selector)

def outwardCovers (toolName : JsString) (action : OntologyAction) : Bool :=
  selectorsCoverCall (outwardTools action) call || (outwardTools action).any (outwardSelectorMatchesName · toolName)

/-- What the outward actions of a step say about a call. -/
inductive OutwardOutcome
  | silent
  | decided (decision : GovernanceDecision)
  | satisfied (action : OntologyAction)

def ontologyDenial (reason : JsString) : GovernanceDecision where
  effect := .deny
  policyId := none
  source := .ontology
  reason := reason

def outwardActionDecision (toolName : JsString)
    (args : OntologyRecord ν) (mcpAttached : Bool) (namespaces : List JsString) : OutwardOutcome :=
  let outward := outwardActionsOnPath path
  let covering := outward.filter (outwardCovers call toolName)
  if covering.isEmpty then
    if !mcpAttached || !outwardTargetsServer outward namespaces then .silent
    else .decided (ontologyDenial (js "tool " ++ quoted toolName ++
      js " is not one of the outward actions workflow step " ++
      quoted ((path.getLast?.map (·.nodeId)).getD (js "?")) ++
      js " declares; give an action a call effect naming it to make it reachable here"))
  else
    match covering.find? fun action => (actionContractViolation action args).isNone with
    | some action => .satisfied action
    | none => .decided (ontologyDenial ((covering.findSome? (actionContractViolation · args)).getD
      (js "tool " ++ quoted toolName ++ js " does not satisfy its ontology action")))

/-! ## The tool scope of a step -/

def CORE_FLOOR_TOOLS : List JsString :=
  [js "message", js "read", js "memory_search"]

variable (toolName : JsString)

def isCoreFloorTool : Bool :=
  toLowerCase (trim toolName) ∈ CORE_FLOOR_TOOLS

/-- Why a step's tool scope refuses a call: an explicit denial, an allow-list that does not mention it, or no grant. -/
inductive ScopeViolationKind
  | denied
  | scope
  | ungranted
  deriving DecidableEq

structure OntologyScopeViolation where
  node : EnterprisePlanNode
  kind : ScopeViolationKind

omit [LowerCase] in
def mcpServerOwningTool (mcpTool : Option McpRegistration) (registered : List JsString) : Option McpOwnership :=
  match mcpTool with
  | none => none
  | some stamped =>
    if stamped.serverName ∈ registered then
      some ⟨stamped.serverName, [stamped.serverName, stamped.safeServerName].eraseDups, stamped.toolName⟩
    else none

omit [LowerCase] in
def namespaceAliases (toolPart : JsString) (includeBareServer : Bool) (callableNamespace : JsString) : List JsString :=
  [callableNamespace ++ js "__" ++ toolPart, js "mcp__" ++ callableNamespace ++ js "__" ++ toolPart,
    codexHookToolName callableNamespace toolPart, codexHookToolName (withLegacyPrefix callableNamespace) toolPart] ++
    if includeBareServer then [callableNamespace, js "mcp__" ++ callableNamespace] else []

omit [LowerCase] in
/-- Every spelling an entry might use for a call. -/
def mcpToolAliases (ownership : Option McpOwnership) (includeBareServer : Bool) : List JsString :=
  (trim toolName :: (ownership.toList.flatMap fun ownership =>
    ownership.namespaces.flatMap (namespaceAliases ownership.toolPart includeBareServer))).eraseDups

omit [LowerCase] in
/-- Fold what a native harness rewrites in tool ids; stars survive. -/
def foldNative (value : JsString) : JsString :=
  underscored (fun u => isWordCharacter u || u = STAR) value

omit [LowerCase] in
/-- Attachment names a registered key exactly. -/
def attachesMcpServer (nodes : List EnterprisePlanNode) (server : JsString) : Bool :=
  nodes.any fun node => server ∈ node.ontology.mcpServers.getD []

def nodeDenies (mcpAttached : Bool) (ownership : Option McpOwnership) (call : McpCallIdentity)
    (node : EnterprisePlanNode) : Bool :=
  let deny := node.ontology.deniedTools
  let denyIdentities := if mcpAttached then mcpToolAliases toolName ownership true else [toolName]
  let refused (identity : JsString) : Bool :=
    deniedBy deny identity || (mcpAttached && deniedBy (deny.map foldNative) (foldNative identity))
  !deny.isEmpty && (denyIdentities.any refused ||
      (mcpAttached && deny.any (rewrittenNameReachesCall · call.namespaces call.toolParts)))

/-- What the tool scope of a path says against a call: denials first, then what the allow-lists leave out. -/
def ontologyScopeViolation (mcpAttached : Bool)
    (ownership : Option McpOwnership) (call : McpCallIdentity) (grantsExplicitly : Bool) :
    Option OntologyScopeViolation :=
  let onCoreFloor := grantsExplicitly && !mcpAttached && isCoreFloorTool toolName
  match path.find? (nodeDenies toolName mcpAttached ownership call) with
  | some node => some ⟨node, .denied⟩
  | none =>
    if mcpAttached then none
    else if onCoreFloor then none
    else
      match path.find? fun node =>
        !node.ontology.allowedTools.isEmpty && !allowedBy node.ontology.allowedTools toolName with
      | some node => some ⟨node, .scope⟩
      | none =>
        if grantsExplicitly then
          let granted := path.any fun node =>
            !node.ontology.allowedTools.isEmpty && allowedBy node.ontology.allowedTools toolName
          match path.getLast? with
          | some active => if granted then none else some ⟨active, .ungranted⟩
          | none => none
        else none

/-- Does an `actions`-scoped policy cover this call? -/
def actionSelectorMatches (coveringActions : List OntologyAction)
    (actionId : Option JsString) (carriesAction : Bool) (declaredActions : List EnterpriseId) : Bool :=
  if carriesAction then
    match actionId with
    | none => false
    | some actionId => actionId ∈ declaredActions && matchesSelector actionId policy.actions
  else coveringActions.any fun action => matchesSelector action.id policy.actions

structure PolicySubject where
  treeId : EnterpriseId
  path : List EnterprisePlanNode
  call : McpCallIdentity
  coveringActions : List OntologyAction
  actionId : Option JsString
  carriesAction : Bool
  declaredActions : List EnterpriseId

/-- All present selectors of a policy must match; one without a tool or action selector targets runs, and one with a
knowledge selector no call. -/
def policyAppliesToToolCall (subject : PolicySubject) : Bool :=
  let toolScoped := isScoped policy.tools
  let actionScoped := isScoped policy.actions
  if !toolScoped && !actionScoped then false
  else if isScoped policy.knowledge then false
  else if toolScoped && !selectorsCoverCall (policy.tools.getD []) subject.call then false
  else if actionScoped && !actionSelectorMatches policy subject.coveringActions subject.actionId subject.carriesAction
      subject.declaredActions then false
  else matchesSelector subject.treeId policy.trees &&
    subject.path.any fun node => matchesSelector node.nodeId policy.nodes

omit [LowerCase] in
def policyWinner (matching : List GovernancePolicy) : Option GovernancePolicy :=
  (matching.find? (·.effect = .deny)).or <| (matching.find? (·.effect = .requireApproval)).or <|
    (matching.find? (·.effect = .allow)).or (matching.find? (·.effect = .audit))

omit [LowerCase] in
/-- Compose matching policies deny > require_approval > allow > audit. -/
def resolvePolicyDecision (matching : List GovernancePolicy) (subject : JsString) : Option GovernanceDecision :=
  (policyWinner matching).map fun winner =>
    let generated :=
      match winner.effect with
      | .deny => subject ++ js " is denied by governance policy " ++ quoted winner.id
      | .requireApproval => subject ++ js " requires approval by governance policy " ++ quoted winner.id
      | .allow => js "allowed by governance policy " ++ quoted winner.id
      | .audit => js "audited by governance policy " ++ quoted winner.id
    { effect := winner.effect
      policyId := some winner.id
      source := .policy
      reason := (truthy? (winner.description.map trim)).getD generated
      approval := if winner.effect = .requireApproval then winner.approval else none }

/-! ## The gate -/

def callIdentity (call : ToolCall ν) (ownership : Option McpOwnership) : McpCallIdentity :=
  match ownership with
  | none => ⟨[call.toolName], [], []⟩
  | some owner =>
    ⟨mcpToolAliases call.toolName ownership false, codexHookNamespaces owner.namespaces,
      [toLowerCase owner.toolPart, toLowerCase (codexNamespace owner.toolPart),
        toLowerCase (trimCodexToolName (codexNamespace owner.toolPart))].eraseDups⟩

omit [LowerCase] in
def omissionApproval (violation : OntologyScopeViolation) : GovernanceDecision where
  effect := .requireApproval
  policyId := none
  source := .ontology
  reason :=
    match violation.kind with
    | .ungranted =>
      js "tool " ++ quoted toolName ++ js " is not granted to workflow step " ++ quoted violation.node.nodeId ++
        js ". This work-map grants capabilities explicitly, so allowing it here is a one-off; to grant it for good, " ++
        js "name it in that step's ontology.allowedTools."
    | _ =>
      js "tool " ++ quoted toolName ++ js " is outside the ontology tool scope of workflow step " ++
        quoted violation.node.nodeId ++ js ". Allowing it here is a one-off; to change it for good, widen that step's " ++
        js "ontology.allowedTools."
  approval := some { severity := some .warning, timeoutBehavior := some .deny }
  ontologyOmission := true

omit [LowerCase] in
def defaultAllow (reason : JsString) : GovernanceDecision where
  effect := .allow
  policyId := none
  source := .default
  reason := reason

variable (plan : EnterpriseRunPlan) (node : EnterprisePlanNode) (call : ToolCall ν)

def policySubject (identity : McpCallIdentity) : PolicySubject where
  treeId := plan.treeId
  path := [node]
  call := identity
  coveringActions := actionsCoveringTool [node] identity
  actionId := call.actionId
  carriesAction := call.carriesAction
  declaredActions := (effectiveActionsOnPath [node]).map (·.id)

omit [LowerCase] in
/-- How a decision names the call: by its action when it carries one. -/
def describeCall : JsString :=
  match call.actionId with
  | some actionId => js "action " ++ quoted actionId
  | none => js "tool " ++ quoted call.toolName

omit [LowerCase] in
/-- Compose what the policies decided with an omission of the tool scope: a denial stands, an approval never resolves
to allow on its own, anything weaker does not widen the scope. -/
def composeWithOmission (omitted decision : Option GovernanceDecision) : GovernanceDecision :=
  match omitted with
  | some approvable =>
    match decision with
    | some decision =>
      if decision.effect = .deny then decision
      else if decision.effect = .requireApproval then
        { decision with
          approval := some { decision.approval.getD {} with timeoutBehavior := some .deny }
          ontologyOmission := true }
      else approvable
    | none => approvable
  | none => decision.getD (defaultAllow (js "no governance policy restricts this tool call"))

/-- The call is the run's own step advancement. -/
def isControlCall : Bool :=
  call.tracksSteps && isWorkflowControlTool call.toolName call.mcpTool

omit [LowerCase] in
/-- The server that owns a call, when the run registered it. -/
def callOwnership : Option McpOwnership :=
  mcpServerOwningTool call.mcpTool call.mcpServers

omit [LowerCase] in
/-- The step attaches the server that owns the call, in a work-map attachments govern. -/
def mcpAttached : Bool :=
  (callOwnership call).any fun owner => plan.mcpGoverned && attachesMcpServer [node] owner.name

/-- What is settled before the policies: a decision, or an omission they are composed with and the outward action the
call satisfies. -/
inductive ScopeVerdict
  | decided (decision : GovernanceDecision)
  | openToPolicies (omitted : Option GovernanceDecision) (satisfied : Option OntologyAction)

/-- The layers before the policies: step advancement, MCP attachment, the tool scope, the outward actions. -/
def scopeVerdict : ScopeVerdict :=
  if isControlCall call then
    .decided (defaultAllow (js "workflow step advancement is not a governed capability"))
  else
  let path := [node]
  let ownership := callOwnership call
  let attached := mcpAttached plan node call
  if ownership.isSome && plan.mcpGoverned && !attached then
    .decided (ontologyDenial (js "MCP server " ++ quoted ((ownership.map (·.name)).getD []) ++
      js " is not attached to workflow step " ++ quoted node.nodeId ++
      js "; the step must name it in ontology.mcpServers"))
  else
  let identity := callIdentity call ownership
  let violation := ontologyScopeViolation path call.toolName attached ownership identity
    (plan.capabilityGrants = some .explicit)
  if violation.any (·.kind = .denied) then
    .decided (ontologyDenial (js "tool " ++ quoted call.toolName ++ js " is denied at workflow step " ++
      quoted ((violation.map (·.node.nodeId)).getD []) ++ js " by ontology.deniedTools"))
  else
  match outwardActionDecision path identity call.toolName call.args attached
      ((ownership.map (·.namespaces)).getD []) with
  | .decided decision => .decided decision
  | .silent => .openToPolicies (violation.map (omissionApproval call.toolName)) none
  -- an action that names the call it makes grants it
  | .satisfied action => .openToPolicies none (some action)

def matchingPolicies (policies : List GovernancePolicy) : List GovernancePolicy :=
  policies.filter (policyAppliesToToolCall · (policySubject plan node call (callIdentity call (callOwnership call))))

/-- Judge a call by the active step's declarations and the matching policies. -/
def evaluateToolCallGovernance (policies : List GovernancePolicy) (call : ToolCall ν) : GovernanceDecision :=
  match scopeVerdict plan node call with
  | .decided decision => decision
  | .openToPolicies omitted satisfied =>
    { composeWithOmission omitted
        (resolvePolicyDecision (matchingPolicies plan node call policies) (describeCall call)) with
      outwardActionId := satisfied.map (·.id) }

end ClawWorks
