import ClawWorks.Js.Text

/-!
# Enterprise domain contracts

Workflow trees, per-node ontology bindings, governance policies and per-run plans, with the fields the modelled
functions read. An optional list that the sources treat like an empty one is a list; where an absent list and an
empty one differ (`mcpServers`, an action's `tools`) the field is an `Option`.
-/

namespace ClawWorks

/-- Stable dotted identifier used for trees, nodes and ontology objects. -/
abbrev EnterpriseId := JsString

/-- The mode of a mediated run: `off` never reaches a plan. -/
inductive EnterpriseMode
  | enforce
  | observe
  deriving DecidableEq

/-! ## Ontology -/

inductive OntologyValueType
  | string
  | number
  | boolean
  | date
  | id
  deriving DecidableEq, Repr

def OntologyValueType.text : OntologyValueType → JsString
  | .string => js "string"
  | .number => js "number"
  | .boolean => js "boolean"
  | .date => js "date"
  | .id => js "id"

/-- One typed field on an object type. -/
structure OntologyProperty where
  id : EnterpriseId
  type : OntologyValueType
  primaryKey : Bool := false
  required : Bool := false

/-- Ontology object type relevant to a workflow step. -/
structure OntologyEntity where
  id : EnterpriseId
  properties : List OntologyProperty := []

/-- How many instances each side of a link type may bind to. -/
inductive OntologyCardinality
  | oneToOne
  | oneToMany
  | manyToOne
  | manyToMany
  deriving Repr

/-- A cardinality as a definition spells it. -/
def OntologyCardinality.text : OntologyCardinality → JsString
  | .oneToOne => js "one-to-one"
  | .oneToMany => js "one-to-many"
  | .manyToOne => js "many-to-one"
  | .manyToMany => js "many-to-many"

/-- Directed link type between two ontology object types. -/
structure OntologyRelationship where
  id : EnterpriseId
  fromEntity : EnterpriseId
  toEntity : EnterpriseId
  cardinality : Option OntologyCardinality := none
  /-- Name of the link read the other way. -/
  inverse : Option JsString := none

/-- One declared input to an action type. -/
structure OntologyActionParameter where
  id : EnterpriseId
  type : OntologyValueType
  required : Bool := false
  deriving DecidableEq

inductive OntologyObjectEffectKind
  | read
  | create
  | update
  | delete
  deriving DecidableEq, Repr

/-- Whether a link effect relates two objects or stops relating them. -/
inductive OntologyLinkEffectKind
  | link
  | unlink
  deriving DecidableEq

inductive OntologyActionEffect
  | object (entity : EnterpriseId) (kind : OntologyObjectEffectKind)
  | call (tool : JsString)
  | graph (kind : OntologyLinkEffectKind) (relationship : EnterpriseId) (fromParam toParam : Option JsString)
  deriving DecidableEq

/-- A named operation a step may perform. -/
structure OntologyAction where
  id : EnterpriseId
  /-- Tool name globs this action is expected to use; absent covers every tool. -/
  tools : Option (List JsString) := none
  parameters : List OntologyActionParameter := []
  effects : List OntologyActionEffect := []
  deriving DecidableEq

structure OntologyBinding where
  entities : List OntologyEntity := []
  relationships : List OntologyRelationship := []
  actions : List OntologyAction := []
  /-- Tool name globs allowed for this node. Empty allows all, except under explicit grants. -/
  allowedTools : List JsString := []
  /-- Tool name globs denied for this node. Deny wins over allow. -/
  deniedTools : List JsString := []
  /-- MCP servers this step may call. Its presence anywhere in a tree makes the tree governed. -/
  mcpServers : Option (List JsString) := none
  /-- Knowledge foundations this node may query. Empty allows all, except under explicit grants. -/
  knowledgeFoundations : List EnterpriseId := []
  /-- Record detailed audit events for every tool decision under this node. -/
  audit : Bool := false

structure WorkflowNodeDefinition where
  id : EnterpriseId
  title : JsString
  ontology : OntologyBinding := {}
  children : List WorkflowNodeDefinition := []

inductive WorkflowCapabilityGrants
  | explicit
  deriving DecidableEq

structure WorkflowTreeDefinition where
  id : EnterpriseId
  version : JsString
  name : JsString
  capabilityGrants : Option WorkflowCapabilityGrants := none
  root : WorkflowNodeDefinition

structure EnterprisePlanNode where
  nodeId : EnterpriseId
  parentId : Option EnterpriseId := none
  /-- Depth-first order within the plan. -/
  seq : Nat := 0
  title : JsString := []
  ontology : OntologyBinding := {}

structure EnterpriseRunPlan where
  runId : JsString
  treeId : EnterpriseId
  treeVersion : JsString := []
  treeName : JsString := []
  /-- Content hash of the tree definition this run planned against; plans written before hashes have none. -/
  treeHash : Option JsString := none
  /-- Depth-first flattened nodes: the selected route, or the whole subtree. -/
  nodes : List EnterprisePlanNode
  /-- Node whose step the run is currently executing. -/
  activeNodeId : EnterpriseId
  /-- The tree declares an MCP attachment or grants explicitly. -/
  mcpGoverned : Bool := false
  mcpAttachments : List JsString := []
  mcpDeniedTools : List JsString := []
  capabilityGrants : Option WorkflowCapabilityGrants := none
  mode : EnterpriseMode := .enforce
  createdAt : Nat := 0

/-! ## Governance -/

inductive GovernanceEffect
  | allow
  | deny
  | audit
  | requireApproval
  deriving DecidableEq, Repr

/-- What happens to an approval nobody answers. -/
inductive TimeoutBehavior
  | allow
  | deny
  deriving DecidableEq

inductive ApprovalSeverity
  | info
  | warning
  | critical
  deriving DecidableEq

structure GovernanceApprovalSettings where
  timeoutMs : Option Nat := none
  timeoutBehavior : Option TimeoutBehavior := none
  severity : Option ApprovalSeverity := none
  deriving DecidableEq

structure GovernancePolicy where
  id : EnterpriseId
  description : Option JsString := none
  effect : GovernanceEffect
  trees : Option (List JsString) := none
  nodes : Option (List JsString) := none
  tools : Option (List JsString) := none
  actions : Option (List JsString) := none
  knowledge : Option (List JsString) := none
  approval : Option GovernanceApprovalSettings := none
  deriving DecidableEq

/-- Which layer produced a governance effect. -/
inductive GovernanceSource
  | ontology
  | policy
  | default
  deriving DecidableEq, Repr

structure GovernanceDecision where
  effect : GovernanceEffect
  policyId : Option EnterpriseId
  source : GovernanceSource
  reason : JsString
  approval : Option GovernanceApprovalSettings := none
  /-- The active step's tool scope did not cover this call. -/
  ontologyOmission : Bool := false
  outwardActionId : Option EnterpriseId := none

/-! ## Runs and their trace -/

/-- Trace event kinds appended to `enterprise_run_events`. -/
inductive EnterpriseRunEventKind
  | runStarted
  | routeSelected
  | runEnded
  | governanceDecision
  | nodeEntered
  | nodeCompleted
  | runResumed
  | actionInvoked
  | runSteered
  | nodeReopened
  deriving DecidableEq

/-- A field of an event payload. Items of an array that are not strings are `none`; `other` stands for the values
no reader of the trace looks into. -/
inductive PayloadValue
  | text (value : JsString)
  | number (value : Nat)
  | array (items : List (Option JsString))
  | other

abbrev EventPayload := List (String × PayloadValue)

structure EnterpriseRunEvent where
  kind : EnterpriseRunEventKind
  nodeId : Option EnterpriseId
  payload : EventPayload

/-- The `string` items of an array field, none when the field is absent or not an array. -/
def EventPayload.strings (payload : EventPayload) (field : String) : List JsString :=
  match payload.lookup field with
  | some (.array items) => items.filterMap id
  | _ => []

/-- One registered run: the prepared facts the tool path reads, and what was recorded for it so far. -/
structure EnterpriseActiveRun where
  plan : EnterpriseRunPlan
  policies : List GovernancePolicy := []
  /-- MCP servers registered for the run, snapshotted at mediation. -/
  mcpServers : Option (List JsString) := none
  /-- Required property ids of each object type, of the tree the run planned against. -/
  treeRequiredProperties : List (EnterpriseId × List EnterpriseId) := []
  /-- Set once the run has finished its last step. -/
  routeCompleted : Bool := false
  /-- Backward cursor moves so far. -/
  reopenCount : Nat := 0
  /-- The recorded events, oldest first: what the run's sink was handed, after what mediation wrote at the start. -/
  trace : List EnterpriseRunEvent := []

abbrev ActiveRuns := JsString → Option EnterpriseActiveRun

end ClawWorks
