import Mathlib.Data.Finset.Dedup
import Mathlib.Data.Finset.Card
import Mathlib.Data.List.Sublists
import Mathlib.Data.List.Sort
import ClawWorks.Enterprise.Types

/-!
# Per-run plan construction
-/

namespace ClawWorks

open List

/-- What plan construction takes from elsewhere: secret redaction, the content hash of a tree (over every field of
the definition), and the collation `localeCompare` sorts by. -/
class RunEnvironment where
  redactSecrets : JsString → JsString
  hashWorkflowTree : WorkflowTreeDefinition → JsString
  localeLe : JsString → JsString → Bool

/-- The surroundings of a plan whose texts hold no secret. -/
@[reducible] def plainEnvironment : RunEnvironment where
  redactSecrets := id
  hashWorkflowTree tree := tree.id
  localeLe a b := decide (a ≤ b)

def MODEL_TEXT_MAX_CHARS : Nat := 300

/-- Redact and bound free text written onto a run's trace. -/
def summarizeModelText [RunEnvironment] (text : JsString) : JsString :=
  let redacted := trim (collapseWhiteSpace (RunEnvironment.redactSecrets text))
  if redacted.length ≤ MODEL_TEXT_MAX_CHARS then redacted
  else redacted.take (MODEL_TEXT_MAX_CHARS - 1) ++ js "…"

/-- Default tree for user-facing requests. -/
def BUILTIN_ASSIST_TREE : WorkflowTreeDefinition where
  id := js "clawworks.assist"
  version := js "1.0.0"
  name := js "General assistance"
  root := { id := js "assist", title := js "Assist with the user request" }

def BUILTIN_SYSTEM_TREE : WorkflowTreeDefinition where
  id := js "clawworks.system"
  version := js "1.0.0"
  name := js "System maintenance"
  root := { id := js "system", title := js "Run the scheduled system task" }

def passiveDefaultHashes [RunEnvironment] : List (EnterpriseId × JsString) :=
  [BUILTIN_ASSIST_TREE, BUILTIN_SYSTEM_TREE].map fun tree => (tree.id, RunEnvironment.hashWorkflowTree tree)

def planTracksSteps [RunEnvironment] (plan : EnterpriseRunPlan) : Bool :=
  match passiveDefaultHashes.lookup plan.treeId with
  | none => true
  | some passiveHash => plan.treeHash != some passiveHash

/-! ## Flattening -/

mutual

def visitPlanNode (keep : Option (Finset EnterpriseId)) (parentId : Option EnterpriseId)
    (nodes : List EnterprisePlanNode) : WorkflowNodeDefinition → List EnterprisePlanNode
  | ⟨id, title, ontology, children⟩ =>
    if keep.all (id ∈ ·) then
      visitPlanNodes keep (some id) (nodes ++ [⟨id, parentId, nodes.length, title, ontology⟩]) children
    else nodes

def visitPlanNodes (keep : Option (Finset EnterpriseId)) (parentId : Option EnterpriseId)
    (nodes : List EnterprisePlanNode) : List WorkflowNodeDefinition → List EnterprisePlanNode
  | [] => nodes
  | child :: children => visitPlanNodes keep parentId (visitPlanNode keep parentId nodes child) children

end

/-- Flatten the subtree depth-first; with `keep`, only those nodes are planned. -/
def flattenPlanNodes (root : WorkflowNodeDefinition) (keep : Option (Finset EnterpriseId)) :
    List EnterprisePlanNode :=
  visitPlanNode keep none [] root

mutual

def treeDeclaresMcpAttachment : WorkflowNodeDefinition → Bool
  | ⟨_, _, ontology, children⟩ => ontology.mcpServers.isSome || anyDeclaresMcpAttachment children

/-- `some` of the children. -/
def anyDeclaresMcpAttachment : List WorkflowNodeDefinition → Bool
  | [] => false
  | child :: children => treeDeclaresMcpAttachment child || anyDeclaresMcpAttachment children

end

mutual

def treeOrder : WorkflowNodeDefinition → List EnterpriseId
  | ⟨id, _, _, children⟩ => id :: treesOrder children

/-- The ids of several subtrees in order. -/
def treesOrder : List WorkflowNodeDefinition → List EnterpriseId
  | [] => []
  | child :: children => treeOrder child ++ treesOrder children

end

/-! ## The plan -/

structure RunPlanParams where
  runId : JsString
  mode : EnterpriseMode
  tree : WorkflowTreeDefinition
  /-- Node ids of the selected route; absent plans the whole tree. -/
  routeNodeIds : Option (Finset EnterpriseId) := none
  now : Nat := 0

/-- Why plan construction refuses a route. -/
inductive RunPlanError
  | routeWithoutRoot
  | routeIncomplete
  deriving Repr

/-- The message thrown with a refused route. -/
def RunPlanError.message : RunPlanError → JsString
  | .routeWithoutRoot => js "Workflow route does not include its root step."
  | .routeIncomplete => js "Workflow route contains unknown steps or omits a predecessor."

/-- `[...new Set(items)]`. -/
def distinct (items : List JsString) : List JsString :=
  items.eraseDups

/-- Array `toSorted()`: by code units. -/
def toSorted (items : List JsString) : List JsString :=
  items.insertionSort (· ≤ ·)

def buildEnterpriseRunPlan [RunEnvironment] (params : RunPlanParams) : Except RunPlanError EnterpriseRunPlan :=
  let tree := params.tree
  let mcpGoverned := tree.capabilityGrants == some .explicit || treeDeclaresMcpAttachment tree.root
  -- Invalid selections must not widen into execution of the whole tree.
  if params.routeNodeIds.any (tree.root.id ∉ ·) then .error .routeWithoutRoot
  else
    let nodes := flattenPlanNodes tree.root params.routeNodeIds
    if params.routeNodeIds.any (nodes.length != ·.card) then .error .routeIncomplete
    else .ok {
      runId := params.runId
      treeId := tree.id
      treeVersion := tree.version
      treeName := tree.name
      treeHash := some (RunEnvironment.hashWorkflowTree tree)
      nodes := nodes
      -- `nodes[0].nodeId`: the root is always planned first
      activeNodeId := nodes.head?.elim tree.root.id (·.nodeId)
      mcpGoverned := mcpGoverned
      mcpAttachments :=
        if mcpGoverned then
          (distinct (nodes.flatMap (·.ontology.mcpServers.getD []))).insertionSort fun a b =>
            RunEnvironment.localeLe a b = true
        else []
      mcpDeniedTools := toSorted (distinct (nodes.flatMap (·.ontology.deniedTools)))
      capabilityGrants := tree.capabilityGrants
      mode := params.mode
      createdAt := params.now }

def findPlanNode (plan : EnterpriseRunPlan) (nodeId : EnterpriseId) : Option EnterprisePlanNode :=
  plan.nodes.find? (·.nodeId == nodeId)

/-- Every selected node executes once, with predecessors before successors. -/
def enterpriseStepSequence (plan : EnterpriseRunPlan) : List EnterpriseId :=
  plan.nodes.map (·.nodeId)

/-- The step a resumed run should open on: the first one of this route that the earlier execution did not finish.
Nothing when no prefix carries over, and when the whole route is finished. -/
def firstUnfinishedStep (steps completedNodeIds : List EnterpriseId) : Option EnterpriseId :=
  let index := (steps.takeWhile (· ∈ completedNodeIds)).length
  if index = 0 then none else steps[index]?

mutual

theorem visitPlanNode_steps (keep : Option (Finset EnterpriseId)) (parentId : Option EnterpriseId)
    (nodes : List EnterprisePlanNode) : ∀ node : WorkflowNodeDefinition,
      ∃ steps, (visitPlanNode keep parentId nodes node).map (·.nodeId) = nodes.map (·.nodeId) ++ steps ∧
        steps.Sublist (treeOrder node)
  | ⟨id, title, ontology, children⟩ => by
    unfold visitPlanNode treeOrder
    split
    · obtain ⟨steps, hsteps, hsub⟩ := visitPlanNodes_steps keep (some id)
        (nodes ++ [⟨id, parentId, nodes.length, title, ontology⟩]) children
      exact ⟨id :: steps, by rw [hsteps]; simp, hsub.cons_cons id⟩
    · exact ⟨[], by simp, nil_sublist _⟩

theorem visitPlanNodes_steps (keep : Option (Finset EnterpriseId)) (parentId : Option EnterpriseId)
    (nodes : List EnterprisePlanNode) : ∀ children : List WorkflowNodeDefinition,
      ∃ steps, (visitPlanNodes keep parentId nodes children).map (·.nodeId) = nodes.map (·.nodeId) ++ steps ∧
        steps.Sublist (treesOrder children)
  | [] => ⟨[], by simp [visitPlanNodes], by simp [treesOrder]⟩
  | child :: children => by
    unfold visitPlanNodes treesOrder
    obtain ⟨first, hfirst, hsub⟩ := visitPlanNode_steps keep parentId nodes child
    obtain ⟨rest, hrest, hsub'⟩ := visitPlanNodes_steps keep parentId (visitPlanNode keep parentId nodes child) children
    exact ⟨first ++ rest, by rw [hrest, hfirst, append_assoc], hsub.append hsub'⟩

end

section Built

variable [RunEnvironment] {params : RunPlanParams} {plan : EnterpriseRunPlan}

section

variable (h : buildEnterpriseRunPlan params = .ok plan)

include h

theorem buildEnterpriseRunPlan_ok :
    plan.nodes = flattenPlanNodes params.tree.root params.routeNodeIds ∧ plan.treeId = params.tree.id ∧
      plan.activeNodeId = plan.nodes.head?.elim params.tree.root.id (·.nodeId) ∧
      params.routeNodeIds.all (params.tree.root.id ∈ ·) := by
  unfold buildEnterpriseRunPlan at h
  simp only at h
  split at h
  · cases h
  · rename_i hroot
    split at h
    · cases h
    · cases h
      refine ⟨rfl, rfl, rfl, ?_⟩
      cases hroute : params.routeNodeIds with
      | none => rfl
      | some keep => simpa [hroute] using hroot

theorem deniedTools_planned {node : EnterprisePlanNode}
    (hnode : node ∈ plan.nodes) {entry : JsString} (hentry : entry ∈ node.ontology.deniedTools) :
    entry ∈ plan.mcpDeniedTools := by
  unfold buildEnterpriseRunPlan at h
  simp only at h
  split at h
  · cases h
  split at h
  · cases h
  · cases h
    rw [toSorted, mem_insertionSort, distinct, mem_eraseDups]
    exact mem_flatMap.mpr ⟨node, hnode, hentry⟩

/-- **Whatever route was selected, its steps stand in the tree's depth-first order.** -/
theorem enterpriseStepSequence_sublist : (enterpriseStepSequence plan).Sublist (treeOrder params.tree.root) := by
  obtain ⟨steps, hsteps, hsub⟩ := visitPlanNode_steps params.routeNodeIds none [] params.tree.root
  unfold enterpriseStepSequence
  rw [(buildEnterpriseRunPlan_ok h).1, flattenPlanNodes, hsteps]
  exact hsub

theorem enterpriseStepSequence_head : (enterpriseStepSequence plan)[0]? = some plan.activeNodeId := by
  obtain ⟨hnodes, -, hactive, hroot⟩ := buildEnterpriseRunPlan_ok h
  obtain ⟨⟨id, title, ontology, children⟩, hdef⟩ : ∃ root, params.tree.root = root := ⟨_, rfl⟩
  rw [hdef] at hnodes hroot
  unfold flattenPlanNodes visitPlanNode at hnodes
  rw [if_pos hroot] at hnodes
  obtain ⟨steps, hsteps, -⟩ := visitPlanNodes_steps params.routeNodeIds (some id)
    ([] ++ [⟨id, none, 0, title, ontology⟩]) children
  have hseq : enterpriseStepSequence plan = id :: steps := by
    unfold enterpriseStepSequence
    rw [hnodes]
    exact hsteps
  rw [hactive, hseq]
  unfold enterpriseStepSequence at hseq
  cases hplan : plan.nodes with
  | nil => rw [hplan] at hseq; cases hseq
  | cons first rest =>
    rw [hplan, map_cons, cons.injEq] at hseq
    simp [hseq.1]

end

end Built

/-! ## The step sequence -/

/-- The route's steps are told apart by their ids, none of which is the empty string. -/
structure DistinctSteps (plan : EnterpriseRunPlan) : Prop where
  nodup : (enterpriseStepSequence plan).Nodup
  truthy : ∀ id ∈ enterpriseStepSequence plan, Truthy id

variable {id : EnterpriseId}

theorem exists_findPlanNode {plan : EnterpriseRunPlan} (h : id ∈ enterpriseStepSequence plan) :
    ∃ node, findPlanNode plan id = some node ∧ node.nodeId = id := by
  obtain ⟨node, hmem, hid⟩ := mem_map.mp h
  obtain ⟨found, hfound⟩ := Option.isSome_iff_exists.mp
    (find?_isSome.mpr ⟨node, hmem, beq_iff_eq.mpr hid⟩ : (plan.nodes.find? (·.nodeId == id)).isSome)
  have hp := find?_some hfound
  exact ⟨found, hfound, beq_iff_eq.mp hp⟩

theorem DistinctSteps.idxOf? {plan : EnterpriseRunPlan} (hp : DistinctSteps plan) {i : Nat}
    (h : (enterpriseStepSequence plan)[i]? = some id) : (enterpriseStepSequence plan).idxOf? id = some i := by
  obtain ⟨hi, rfl⟩ := List.getElem?_eq_some_iff.mp h
  refine List.idxOf?_eq_some_iff.mpr ⟨hi, rfl, fun j hj hij => ?_⟩
  exact absurd ((hp.nodup.getElem_inj_iff).mp hij) (by omega)

theorem DistinctSteps.index_unique {plan : EnterpriseRunPlan} (hp : DistinctSteps plan) {i j : Nat}
    (hi : (enterpriseStepSequence plan)[i]? = some id) (hj : (enterpriseStepSequence plan)[j]? = some id) : i = j := by
  have hij := hp.idxOf? hi
  rw [hp.idxOf? hj, Option.some.injEq] at hij
  exact hij.symm

variable {steps completed : List EnterpriseId}

theorem firstUnfinishedStep_eq_some {k : Nat}
    (hk : 0 < k) (hid : steps[k]? = some id) (hnot : id ∉ completed) (hall : ∀ s ∈ steps.take k, s ∈ completed) :
    firstUnfinishedStep steps completed = some id := by
  have hindex : (steps.takeWhile (· ∈ completed)).length = k := by
    obtain ⟨hlt, rfl⟩ := List.getElem?_eq_some_iff.mp hid
    conv_lhs => rw [← List.take_append_drop k steps]
    rw [List.takeWhile_append_of_pos (by simpa using hall), List.drop_eq_getElem_cons hlt,
      List.takeWhile_cons_of_neg (by simpa using hnot), List.append_nil, List.length_take]
    omega
  unfold firstUnfinishedStep
  simp only [hindex]
  rw [if_neg (by omega), hid]

theorem firstUnfinishedStep_spec (h : firstUnfinishedStep steps completed = some id) :
    ∃ k, steps[k]? = some id ∧ ∀ s ∈ steps.take k, s ∈ completed := by
  unfold firstUnfinishedStep at h
  simp only at h
  split at h
  · cases h
  · refine ⟨_, h, fun s hs => ?_⟩
    have htake : steps.take (steps.takeWhile (· ∈ completed)).length = steps.takeWhile (· ∈ completed) :=
      (prefix_iff_eq_take.mp ( takeWhile_prefix _)).symm
    rw [htake] at hs
    simpa using mem_takeWhile_imp hs

theorem firstUnfinishedStep_of_finished (h : ∀ s ∈ steps, s ∈ completed) :
    firstUnfinishedStep steps completed = none := by
  have hall : steps.takeWhile (· ∈ completed) = steps := takeWhile_eq_self_iff.mpr (by simpa using h)
  unfold firstUnfinishedStep
  simp only [hall]
  split
  · rfl
  · exact getElem?_eq_none (Nat.le_refl _)

theorem firstUnfinishedStep_of_not_mem_head
    (hid : steps[0]? = some id) (hnot : id ∉ completed) : firstUnfinishedStep steps completed = none := by
  cases steps with
  | nil => simp at hid
  | cons s steps =>
    simp only [getElem?_cons_zero, Option.some.injEq] at hid
    subst hid
    simp [firstUnfinishedStep, hnot]

end ClawWorks
