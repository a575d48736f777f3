import ClawWorks.Agents.BundleMcpNames
import ClawWorks.Enterprise.Governance

/-!
# Launch-time decisions of active runs

What a backend receives once, before its process starts, cannot be withdrawn when the run advances. These decisions
reason over whole servers and whole name spaces, where the per-call gate sees one call.
-/

namespace ClawWorks

def getEnterpriseActiveRun (runs : ActiveRuns) (runId : JsString) : Option EnterpriseActiveRun :=
  runs runId

def boundRun (runs : ActiveRuns) (runId : Option JsString) : Option EnterpriseActiveRun :=
  (truthy? runId).bind (getEnterpriseActiveRun runs)

variable [LowerCase]

def selectorMatches (value : JsString) (globs : Option (List JsString)) : Bool :=
  match globs with
  | none => true
  | some globs => globs.isEmpty || allowedBy globs value

theorem selectorMatches_eq (value : JsString) (globs : Option (List JsString)) :
    selectorMatches value globs = matchesSelector value globs := by
  cases globs with
  | none => rfl
  | some globs => cases globs <;> rfl

/-- The rules of a run that bound what a backend may be handed. -/
structure McpCeiling where
  denied : List JsString
  blocking : List GovernancePolicy
  /-- The allow list of every step the run could be judged against. -/
  nodeAllowLists : List (List JsString)
  nodes : List EnterprisePlanNode

/-- The ceiling of a run: what it denies, and the blocking policies that could match a planned step. -/
def resolveMcpCeiling (run : EnterpriseActiveRun) : McpCeiling where
  denied := run.plan.mcpDeniedTools
  blocking := run.policies.filter fun policy =>
    (policy.effect = .deny || policy.effect = .requireApproval) && policyTargetsTree policy run.plan.treeId &&
      run.plan.nodes.any fun node => selectorMatches node.nodeId policy.nodes
  nodeAllowLists := run.plan.nodes.map (·.ontology.allowedTools)
  nodes := run.plan.nodes

def policyReachesTool (policy : GovernancePolicy) (toolName : JsString) (nodes : List EnterprisePlanNode) : Bool :=
  let toolPatterns := policy.tools.getD []
  let actionSelectors := policy.actions.getD []
  if isScoped policy.knowledge then false
  else if toolPatterns.isEmpty && actionSelectors.isEmpty then false
  else if actionSelectors.isEmpty then selectorMatches toolName (some toolPatterns)
  else nodes.any fun node =>
    selectorMatches node.nodeId policy.nodes &&
      (node.ontology.actions.filter fun action => selectorMatches action.id (some actionSelectors)).any fun action =>
        (action.tools.getD [[STAR]]).any (fun actionTool => selectorMatches toolName (some [actionTool])) &&
          (toolPatterns.isEmpty || selectorMatches toolName (some toolPatterns))

/-- A hosted tool has no per-call gate, so each selected step must grant it. -/
def nodeAdmitsTool (node : EnterprisePlanNode) (toolName : JsString) (grantsExplicitly : Bool) : Bool :=
  if node.ontology.allowedTools.isEmpty then !grantsExplicitly else allowedBy node.ontology.allowedTools toolName

/-- May this run use a tool its harness never dispatches? -/
def enterpriseRunAdmitsHostedTool (runs : ActiveRuns) (runId : Option JsString) (toolName : JsString) : Bool :=
  match boundRun runs runId with
  | none => true
  | some run =>
    if run.plan.mode ≠ .enforce then true
    else
      let denied := run.plan.nodes.flatMap (·.ontology.deniedTools)
      if !denied.isEmpty && deniedBy denied toolName then false
      else if (resolveMcpCeiling run).blocking.any (policyReachesTool · toolName run.plan.nodes) then false
      else run.plan.nodes.all (nodeAdmitsTool · toolName (run.plan.capabilityGrants = some .explicit))

/-! ## The spellings of a server -/

def mcpServerNamespaces (server : JsString) : List JsString :=
  let bases := [server, codexNamespace server, sanitizeServerName server []]
  ((bases.map toLowerCase ++ codexHookNamespaces bases).eraseDups).filter (Truthy ·)

/-- The budget a colliding base is truncated to fit. -/
def TOOL_NAME_PREFIX_BUDGET : Nat := 30

/-- `(?:-\d+|_[0-9a-f]{12})$`: how either runtime tells two servers of one name apart. -/
def isCollisionSuffix (suffix : JsString) : Bool :=
  match suffix with
  | [] => false
  | u :: rest =>
    (u = DASH && !rest.isEmpty && rest.all isDigit) ||
      (u = UNDERSCORE && rest.length = COLLISION_HASH_LENGTH && rest.all isHexDigit)

/-- The shortest part of a segment in front of a collision suffix. -/
def collisionBase (segment : JsString) : Option JsString :=
  (((List.range segment.length).map fun i => segment.splitAt (i + 1)).find? fun parts =>
    isCollisionSuffix parts.2 && !parts.1.any isLineTerminator).map (·.1)

/-- Could a segment be a namespace, truncated or told apart? -/
def mightBeCollisionAliasOf (segment callableNamespace : JsString) : Bool :=
  if segment.isPrefixOf callableNamespace &&
      min callableNamespace.length (TOOL_NAME_PREFIX_BUDGET - 2) ≤ segment.length then true
  else
    match collisionBase segment with
    | none => false
    | some base =>
      base.isPrefixOf callableNamespace && (base.length = callableNamespace.length ||
          min callableNamespace.length (TOOL_NAME_PREFIX_BUDGET - (segment.length - base.length)) ≤ base.length)

/-- The positions a scan for `__` visits: none when the text starts with one. -/
def delimiterPositions (body : JsString) : List Nat :=
  match (List.range body.length).filter fun index => (js "__").isPrefixOf (body.drop index) with
  | 0 :: _ => []
  | positions => positions

def denialOpensWithMcpServer (pattern : JsString) (namespaces : List JsString) : Bool :=
  let bodies :=
    if LEGACY_PREFIX.isPrefixOf pattern then [pattern, pattern.drop LEGACY_PREFIX.length] else [pattern]
  bodies.any fun body =>
    (delimiterPositions body).any fun index => namespaces.any (mightBeCollisionAliasOf (body.take index))

/-- Can this glob match some name beginning with `opening`? -/
def globCanMatchPrefix (pattern opening : JsString) : Bool :=
  if STAR ∉ pattern then opening.isPrefixOf pattern
  else (globHead pattern).isPrefixOf opening || opening.isPrefixOf (globHead pattern)

def denialReachesMcpServer (entry server : JsString) (bareNameDenies : Bool) : Bool :=
  let pattern := toLowerCase (trim entry)
  if pattern = [] then false
  else
    let namespaces := mcpServerNamespaces server
    let wholeServer := namespaces.flatMap fun name => [name, LEGACY_PREFIX ++ name]
    let bare := if LEGACY_PREFIX.isPrefixOf pattern then pattern.drop LEGACY_PREFIX.length else pattern
    if bareNameDenies &&
        (decide (pattern ∈ namespaces) || namespaces.any (fun name => pattern = LEGACY_PREFIX ++ name) ||
          wholeServer.any (deniedBy [pattern] ·) || namespaces.any (mightBeCollisionAliasOf bare)) then true
    else if (namespaces.flatMap fun name => [name ++ js "__", LEGACY_PREFIX ++ name ++ js "__"]).any
        (globCanMatchPrefix pattern) then true
    else denialOpensWithMcpServer pattern namespaces

def policyReachesMcpServer (policy : GovernancePolicy) (server : JsString) (nodes : List EnterprisePlanNode) : Bool :=
  let toolPatterns := policy.tools.getD []
  let actionSelectors := policy.actions.getD []
  if isScoped policy.knowledge then false
  else if toolPatterns.isEmpty && actionSelectors.isEmpty then false
  else if actionSelectors.isEmpty then toolPatterns.any (denialReachesMcpServer · server false)
  else nodes.any fun node =>
    selectorMatches node.nodeId policy.nodes &&
      (node.ontology.actions.filter fun action => selectorMatches action.id (some actionSelectors)).any fun action =>
        (action.tools.getD [[STAR]]).any fun actionTool =>
          denialReachesMcpServer actionTool server false && (toolPatterns.isEmpty || toolPatterns.any fun entry =>
              denialReachesMcpServer entry server false && patternsCanShareACall entry actionTool)

def callableMcpNamespaces (server : JsString) : List JsString :=
  let sanitized := [codexNamespace server, sanitizeServerName server []]
  let bases := ((sanitized.map toLowerCase ++ codexHookNamespaces sanitized).eraseDups).filter (Truthy ·)
  (bases.flatMap fun base =>
    if LEGACY_PREFIX.isPrefixOf base then [base] else [base, LEGACY_PREFIX ++ base]).eraseDups

omit [LowerCase] in
/-- Does this glob match every name beginning with `opening`? -/
def globCoversEverythingUnder (pattern opening : JsString) : Bool :=
  if pattern = [STAR] then true
  else if pattern.getLast? ≠ some STAR then false
  else decide (STAR ∉ pattern.dropLast) && pattern.dropLast.isPrefixOf opening

def allowListGrantsWholeMcpServer (allowed : List JsString) (server : JsString) (siblings : List JsString) : Bool :=
  if allowed.any (trim · = [STAR]) then true
  else
    let namespaces := callableMcpNamespaces server
    if namespaces.any fun name => CODEX_NAMESPACE_TRUNCATION_LIMIT < name.length then false
    else if namespaces.any (· ∈ siblings.flatMap callableMcpNamespaces) then false
    else
      let openings := (namespaces.flatMap fun name =>
        if LEGACY_PREFIX.isPrefixOf name then [name ++ js "__"]
        else [name ++ js "__", LEGACY_PREFIX ++ name ++ js "__"]).eraseDups
      openings.all fun opening => allowed.any fun entry =>
        let pattern := toLowerCase (trim entry)
        !pattern.isEmpty && globCoversEverythingUnder pattern opening

/-- Can this run's rules bound the server's tools without a per-call gate? With `requireGrant`, an empty allow list
means "not granted" instead of "not narrowed". -/
def ceilingAdmitsMcpServer (ceiling : McpCeiling) (server : JsString) (siblings : List JsString)
    (requireGrant : Bool) : Bool :=
  if ceiling.denied.any (denialReachesMcpServer · server true) then false
  else if ceiling.blocking.any (policyReachesMcpServer · server ceiling.nodes) then false
  else if ceiling.nodeAllowLists.isEmpty then !requireGrant
  else ceiling.nodeAllowLists.all fun allowed =>
    if allowed.isEmpty then !requireGrant else allowListGrantsWholeMcpServer allowed server siblings

/-- The attached servers a backend may be handed, `none` where nothing is filtered. -/
def enterpriseRunAttachedMcpServers (runs : ActiveRuns) (runId : Option JsString) (peerServerNames : List JsString)
    (eligibleServerNames : Option (List JsString)) : Option (List JsString) :=
  match boundRun runs runId with
  | none => none
  | some run =>
    if run.plan.mode ≠ .enforce then none
    else if !run.plan.mcpGoverned then none
    else
      let attached := (run.plan.mcpAttachments.filter fun name =>
        decide (name ∈ run.mcpServers.getD []) && eligibleServerNames.all (name ∈ ·)).eraseDups
      let ceiling := resolveMcpCeiling run
      some <| attached.filter fun server =>
        -- servers cannot be withdrawn between steps
        run.plan.nodes.all (fun node => (node.ontology.mcpServers.getD []).contains server) &&
          ceilingAdmitsMcpServer ceiling server (((attached ++ peerServerNames).eraseDups).filter (· ≠ server)) false

end ClawWorks
