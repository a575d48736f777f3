import ClawWorks.Enterprise.PlanRoutes
import ClawWorks.Js.Object
import Mathlib.Order.Bounds.Defs

/-!
# Workflow selection

A planner's answer is model output: any value may come back. `selectWorkflowPlan` turns it into a tree and a route, and
`resolveRouteNodeIds` adds to the endpoints of the route every step in front of them.
-/

namespace ClawWorks

open JsMap Option List

/-! ## Routes -/

/-- What a walk over a tree gathers by id: the parent, and the node. -/
structure RouteIndex where
  parentOf : JsMap EnterpriseId (Option EnterpriseId) := []
  byId : JsMap EnterpriseId WorkflowNodeDefinition := []

open RouteIndex

mutual

def RouteIndex.collect (index : RouteIndex) (parentId : Option EnterpriseId) : WorkflowNodeDefinition → RouteIndex
  | ⟨id, title, ontology, children⟩ =>
    RouteIndex.collectAll
      ⟨index.parentOf.set id parentId, index.byId.set id ⟨id, title, ontology, children⟩⟩ (some id) children

/-- Gather subtrees in order. -/
def RouteIndex.collectAll (index : RouteIndex) (parentId : Option EnterpriseId) :
    List WorkflowNodeDefinition → RouteIndex
  | [] => index
  | child :: children => RouteIndex.collectAll (RouteIndex.collect index parentId child) parentId children

end

variable (tree : WorkflowTreeDefinition)

def routeIndex : RouteIndex :=
  RouteIndex.collect {} none tree.root

/-- Go up from parent to parent, collecting them. A walk with more steps than there are ids never ends: nothing then. -/
def predecessors (parentOf : JsMap EnterpriseId (Option EnterpriseId)) :
    Nat → Option EnterpriseId → Option (List EnterpriseId)
  | _, none => some []
  | fuel, some parent =>
    if Truthy parent then
      match fuel with
      | 0 => none
      | fuel + 1 => (predecessors parentOf fuel ((parentOf.get parent).getD none)).map (parent :: ·)
    else some []

/-- The ids gathered for the routes so far, and the routes that name nothing. -/
structure ResolvedRoutes where
  nodeIds : Finset EnterpriseId := ∅
  invalid : List JsString := []
  deriving DecidableEq

def resolveEndpointRoute (index : RouteIndex) (resolved : ResolvedRoutes) (raw : JsString) : Option ResolvedRoutes :=
  let route := trim raw
  match index.byId.get route with
  | none => some { resolved with invalid := resolved.invalid ++ [raw] }
  | some node =>
    (predecessors index.parentOf index.parentOf.length ((index.parentOf.get route).getD none)).map fun parents =>
      { resolved with nodeIds := insert node.id resolved.nodeIds ∪ parents.toFinset }

/-- Select endpoints and all preceding steps, without implicit descendants. Nothing when a walk never ends. -/
def resolveRouteNodeIds (routes : List JsString) : Option ResolvedRoutes :=
  routes.foldlM (resolveEndpointRoute (routeIndex tree)) {}

/-! ## Selections -/

def countTreeNodes : Nat :=
  (treeOrder tree.root).length

/-- Trees this small are cheaper to run whole than to ask a model about. -/
def MIN_NODES_TO_PLAN : Nat := 2

inductive RouteSource
  | planner
  | wholeTree

structure EnterpriseRouteSelection where
  /-- Cut points the planner chose, empty when the whole tree runs. -/
  routes : List EnterpriseId
  /-- Node ids to plan, or nothing to plan the whole tree. -/
  nodeIds : Option (Finset EnterpriseId)
  rationale : JsString
  source : RouteSource
  /-- Route strings the planner returned that do not exist in the tree. -/
  invalidRoutes : List JsString

/-- How the governing tree was chosen. -/
inductive WorkflowTreeSource
  | planner
  | onlyCandidate
  | noMatch
  | unavailable
  | fallback

inductive SelectionNext
  | execute
  | clarify (question : JsString)
  | blocked (reason : JsString)
  deriving DecidableEq

/-- A tree, a route through it, and whether it is executed. -/
structure EnterpriseWorkflowSelection where
  tree : WorkflowTreeDefinition
  treeSource : WorkflowTreeSource
  treeRationale : JsString
  route : EnterpriseRouteSelection
  next : SelectionNext

def wholeTree (rationale : JsString) (invalidRoutes : List JsString := []) : EnterpriseRouteSelection :=
  ⟨[], none, rationale, .wholeTree, invalidRoutes⟩

/-- `rationale?.trim() || text`. -/
def rationaleOr (rationale : Option JsString) (text : JsString) : JsString :=
  (truthy? (rationale.map trim)).getD text

/-- Reject empty or partially invalid routes; no implicit execution fallback. The outer option is a walk that never
ends. -/
def resolveRoute (routes : List JsString) (rationale : Option JsString) : Option (Option EnterpriseRouteSelection) :=
  (resolveRouteNodeIds tree routes).map fun resolved =>
    if resolved.nodeIds.card = 0 || !resolved.invalid.isEmpty then none
    else if resolved.nodeIds.card = countTreeNodes tree then
      some (wholeTree (rationaleOr rationale (js "route planner selected the whole tree")) resolved.invalid)
    else
      let valid := (routes.filter (· ∉ resolved.invalid)).map trim
      some ⟨valid, some resolved.nodeIds,
        rationaleOr rationale (js "selected " ++ intercalate (js ", ") valid), .planner, resolved.invalid⟩

/-- A selection nobody planned: a tree of one step is executed, a larger one needs a planner. -/
def selectionWithoutModel (treeSource : WorkflowTreeSource)
    (treeRationale routeRationale : JsString) : EnterpriseWorkflowSelection where
  tree := tree
  treeSource := treeSource
  treeRationale := treeRationale
  route := wholeTree routeRationale
  next :=
    if 1 < countTreeNodes tree then
      .blocked (js "This work-map needs a route planner before its steps can execute.")
    else .execute

variable (trees : List WorkflowTreeDefinition) (defaultTree : WorkflowTreeDefinition)

/-- Routing or policy preflight failed: return metadata but never execute steps. -/
def failClosedWorkflowSelection (reason : JsString) : EnterpriseWorkflowSelection :=
  let firstDomainTree := trees.find? (·.id ≠ defaultTree.id)
  { selectionWithoutModel (firstDomainTree.getD defaultTree) .fallback reason (js "no steps executed") with
    next := .blocked (js "Workflow routing failed. No workflow steps were executed. Retry or clarify the intended " ++
      js "operation.") }

/-! ## Planner answers -/

/-- A field of an answer, as far as the decoding looks at it: `other` is any value that is neither a string, `null` nor
an array. -/
inductive AnswerField
  | undefined
  | null
  | string (value : JsString)
  | array (items : List (Option JsString))
  | other
  deriving DecidableEq

structure AnswerRecord where
  kind : AnswerField := .undefined
  treeId : AnswerField := .undefined
  routes : AnswerField := .undefined
  rationale : AnswerField := .undefined
  question : AnswerField := .undefined

inductive PlannerReply
  | thrown (message : JsString)
  /-- `null` or `undefined`: its fields cannot be read. -/
  | nothing
  /-- A value that is no plain record, such as a string or an array. -/
  | bare
  | record (answer : AnswerRecord)

/-- A planner, given the candidates and the request. -/
abbrev WorkflowPlanner := List WorkflowTreeDefinition → JsString → PlannerReply

structure PlanDecision where
  treeId : Option JsString
  routes : List JsString
  rationale : Option JsString

/-- `z.string().nullable()`. -/
def parseTreeId : AnswerField → Option (Option JsString)
  | .string id => some (some id)
  | .null => some none
  | _ => none

/-- `z.array(z.string())`. -/
def parseRoutes : AnswerField → Option (List JsString)
  | .array items => items.mapM id
  | _ => none

/-- `z.string().optional()`. -/
def parseRationale : AnswerField → Option (Option JsString)
  | .undefined => some none
  | .string text => some (some text)
  | _ => none

/-- `planDecisionSchema.safeParse`. -/
def parsePlanDecision (answer : AnswerRecord) : Option PlanDecision := do
  let treeId ← parseTreeId answer.treeId
  let routes ← parseRoutes answer.routes
  let rationale ← parseRationale answer.rationale
  return ⟨treeId, routes, rationale⟩

inductive SelectionOutcome
  | selected (selection : EnterpriseWorkflowSelection)
  /-- The promise rejects with a `TypeError`. -/
  | rejected
  /-- A walk up a tree with repeated ids never ends. -/
  | diverges

def SelectionOutcome.selection? : SelectionOutcome → Option EnterpriseWorkflowSelection
  | .selected selection => some selection
  | _ => none

def candidateById (id : JsString) : Option WorkflowTreeDefinition :=
  trees.reverse.find? (·.id = id)

def selectClarification (treeId question : JsString) : EnterpriseWorkflowSelection :=
  match candidateById trees (trim treeId) with
  | none => failClosedWorkflowSelection trees defaultTree (js "workflow planner returned an invalid clarification")
  | some tree =>
    let question := trim question
    if question.isEmpty || 1000 < question.length then
      failClosedWorkflowSelection trees defaultTree (js "workflow planner returned an invalid clarification")
    else
      { selectionWithoutModel tree .planner (js "request needs clarification") (js "no steps executed") with
        next := .clarify question }

def selectDecision (decision : PlanDecision) : SelectionOutcome :=
  match decision.treeId with
  -- an explicit "none apply" is an answer, not a failure
  | none => .selected (selectionWithoutModel defaultTree .noMatch
      (rationaleOr decision.rationale (js "no work-map applies to this request"))
      (js "the default tree has no route to plan"))
  | some treeId =>
    match candidateById trees (trim treeId) with
    | none => .selected (failClosedWorkflowSelection trees defaultTree
        (js "workflow planner named an unknown tree (" ++ treeId ++ js ")"))
    | some tree =>
      match resolveRoute tree decision.routes decision.rationale with
      | none => .diverges
      | some none => .selected (failClosedWorkflowSelection trees defaultTree
          (js "workflow planner selected no valid complete route"))
      | some (some route) => .selected
          ⟨tree, .planner, rationaleOr decision.rationale (js "selected " ++ tree.id), route, .execute⟩

/-- What the planner replied, decoded by its kind. Any other kind is read as a decision. -/
def selectReply : PlannerReply → SelectionOutcome
  | .thrown message => .selected (failClosedWorkflowSelection trees defaultTree
      (js "workflow planner failed (" ++ message ++ js ")"))
  | .nothing => .rejected
  | .bare => .selected (failClosedWorkflowSelection trees defaultTree
      (js "workflow planner returned an unsupported shape"))
  | .record answer =>
    if answer.kind = .string (js "unavailable") then
      .selected (selectionWithoutModel defaultTree .unavailable
        (js "no workflow planner is configured for this run") (js "the default tree has no route to plan"))
    else if answer.kind = .string (js "failed") then
      .selected (failClosedWorkflowSelection trees defaultTree (js "workflow planner returned no decision"))
    else if answer.kind = .string (js "clarification") then
      match answer.treeId, answer.question with
      | .string treeId, .string question => .selected (selectClarification trees defaultTree treeId question)
      | _, _ => .rejected
    else
      match parsePlanDecision answer with
      | none => .selected (failClosedWorkflowSelection trees defaultTree
          (js "workflow planner returned an unsupported shape"))
      | some decision => selectDecision trees defaultTree decision

/-- Choose a work-map and explicit endpoints, or stop for clarification or failure. -/
def selectWorkflowPlan (requestText : JsString) (planner : Option WorkflowPlanner) : SelectionOutcome :=
  let domainTrees := trees.filter (·.id ≠ defaultTree.id)
  let only := trees.head?.getD defaultTree
  if domainTrees.isEmpty && (planner.isNone || countTreeNodes only < MIN_NODES_TO_PLAN) then
    .selected (selectionWithoutModel only .onlyCandidate (js "no work-map is installed for this trigger")
      (if planner.isNone then js "no route planner configured"
        else js "tree has " ++ js (toString (countTreeNodes only)) ++
          js " nodes; planning it is not worth a model call"))
  else
    match planner with
    | none => .selected (selectionWithoutModel defaultTree .unavailable
        (js "no workflow planner is wired for this runtime") (js "the default tree has no route to plan"))
    | some planner => selectReply trees defaultTree (planner trees requestText)

/-! ## What a walk over the tree gathers -/

mutual

theorem collect_parentOf (index : RouteIndex) (parentId : Option EnterpriseId) : (node : WorkflowNodeDefinition) →
    (index.collect parentId node).parentOf = index.parentOf.setAll (plannedSteps none parentId node)
  | ⟨id, title, ontology, children⟩ => by
    rw [collect, collectAll_parentOf _ (some id) children]
    simp [plannedSteps, setAll]

theorem collectAll_parentOf (index : RouteIndex) (parentId : Option EnterpriseId) :
    (children : List WorkflowNodeDefinition) →
    (index.collectAll parentId children).parentOf = index.parentOf.setAll (plannedStepsAll none parentId children)
  | [] => rfl
  | child :: children => by
    rw [collectAll, collectAll_parentOf _ parentId children, collect_parentOf index parentId child]
    simp [plannedStepsAll, setAll]

end

mutual

theorem collect_byId (index : RouteIndex) (parentId : Option EnterpriseId) (id : EnterpriseId) :
    (node : WorkflowNodeDefinition) → ((index.collect parentId node).byId.get id).map (·.id) =
      if id ∈ treeOrder node then some id else (index.byId.get id).map (·.id)
  | ⟨nodeId, title, ontology, children⟩ => by
    rw [collect, collectAll_byId _ (some nodeId) id children]
    simp only [treeOrder, mem_cons, get_set]
    by_cases hbelow : id ∈ treesOrder children
    · simp [hbelow]
    · by_cases hid : nodeId = id
      · simp [hbelow, hid]
      · simp [hbelow, hid, Ne.symm hid]

theorem collectAll_byId (index : RouteIndex) (parentId : Option EnterpriseId) (id : EnterpriseId) :
    (children : List WorkflowNodeDefinition) → ((index.collectAll parentId children).byId.get id).map (·.id) =
      if id ∈ treesOrder children then some id else (index.byId.get id).map (·.id)
  | [] => by simp [collectAll, treesOrder]
  | child :: children => by
    rw [collectAll, collectAll_byId _ parentId id children, collect_byId index parentId id child]
    by_cases hrest : id ∈ treesOrder children <;> simp [treesOrder, hrest]

end

section Index

variable {tree : WorkflowTreeDefinition}

theorem mem_treeSteps_of_parentOf {id : EnterpriseId} {parent : Option EnterpriseId}
    (h : (routeIndex tree).parentOf.get id = some parent) : (id, parent) ∈ treeSteps tree := by
  rw [routeIndex, collect_parentOf] at h
  exact (mem_of_get_setAll h).resolve_right (by simp)

theorem parentOf_eq_treeSteps (hdistinct : (treeOrder tree.root).Nodup) :
    (routeIndex tree).parentOf = treeSteps tree := by
  rw [routeIndex, collect_parentOf, setAll_of_nodup]
  · rfl
  · change ((plannedSteps none none tree.root).map (·.1)).Nodup
    rw [plannedSteps_ids]
    exact hdistinct

variable (tree : WorkflowTreeDefinition)

theorem treeSteps_ids : (treeSteps tree).map (·.1) = treeOrder tree.root := plannedSteps_ids none tree.root

theorem byId_get (id : EnterpriseId) :
    ((routeIndex tree).byId.get id).map (·.id) = if id ∈ treeOrder tree.root then some id else none := by
  rw [routeIndex, collect_byId]
  rfl

theorem treeSteps_closed : ClosedUnderParents (treeSteps tree) {id | id ∈ treeOrder tree.root} := by
  intro step hstep _ parent hparent
  obtain ⟨before, after, hsplit⟩ := append_of_mem hstep
  have hfirst : ParentsFirst [] (treeSteps tree) := parentsFirst_plannedSteps none (by simp) tree.root
  rw [hsplit] at hfirst
  have hbefore := (hfirst.of_split hparent).resolve_right not_mem_nil
  change parent ∈ treeOrder tree.root
  rw [← treeSteps_ids, hsplit, map_append]
  exact mem_append_left _ hbefore

end Index

section Predecessors

variable {tree : WorkflowTreeDefinition} {parents : List EnterpriseId} {start : Option EnterpriseId} {fuel : Nat}

variable {parentOf : JsMap EnterpriseId (Option EnterpriseId)} {selected : Set EnterpriseId}

theorem predecessors_subset {steps : List PlannedStep}
    (hsteps : ∀ id parent, parentOf.get id = some parent → (id, parent) ∈ steps)
    (hclosed : ClosedUnderParents steps selected) (hstart : ∀ parent ∈ start, parent ∈ selected)
    (h : predecessors parentOf fuel start = some parents) : ∀ parent ∈ parents, parent ∈ selected := by
  induction fuel generalizing start parents with
  | zero =>
    cases start with
    | none => cases h; exact fun _ hparent => absurd hparent not_mem_nil
    | some first =>
      unfold predecessors at h
      split at h
      · cases h
      · cases h; exact fun _ hparent => absurd hparent not_mem_nil
  | succ fuel ih =>
    cases start with
    | none => cases h; exact fun _ hparent => absurd hparent not_mem_nil
    | some first =>
      unfold predecessors at h
      split at h
      · obtain ⟨rest, hrest, rfl⟩ := map_eq_some_iff.mp h
        have hfirst := hstart first rfl
        intro parent hparent
        rcases mem_cons.mp hparent with rfl | hbelow
        · exact hfirst
        refine ih (fun next hnext => ?_) hrest parent hbelow
        cases hget : parentOf.get first with
        | none => simp [hget] at hnext
        | some above =>
          simp only [hget, getD_some] at hnext
          exact hclosed _ (hsteps _ _ hget) hfirst next hnext
      · cases h; exact fun _ hparent => absurd hparent not_mem_nil

theorem predecessors_closed
    (h : predecessors parentOf fuel start = some parents) : (∀ parent ∈ start, Truthy parent → parent ∈ parents) ∧
      ∀ id ∈ parents, ∀ parent, parentOf.get id = some (some parent) → Truthy parent → parent ∈ parents := by
  induction fuel generalizing start parents with
  | zero =>
    cases start with
    | none => cases h; simp
    | some first =>
      unfold predecessors at h
      split at h
      · cases h
      · rename_i hfalsy
        cases h
        exact ⟨fun parent hparent htruthy => absurd (some.inj hparent ▸ htruthy) hfalsy, by simp⟩
  | succ fuel ih =>
    cases start with
    | none => cases h; simp
    | some first =>
      unfold predecessors at h
      split at h
      · obtain ⟨rest, hrest, rfl⟩ := map_eq_some_iff.mp h
        obtain ⟨hnext, hclosed⟩ := ih hrest
        refine ⟨fun parent hparent _ => some.inj hparent ▸ mem_cons_self, fun id hid parent hget htruthy => ?_⟩
        rcases mem_cons.mp hid with rfl | hbelow
        · exact mem_cons_of_mem _ (hnext parent (by rw [hget]; rfl) htruthy)
        · exact mem_cons_of_mem _ (hclosed id hbelow parent hget htruthy)
      · rename_i hfalsy
        cases h
        exact ⟨fun parent hparent htruthy => absurd (some.inj hparent ▸ htruthy) hfalsy, by simp⟩

theorem predecessors_isSome (hdistinct : (treeOrder tree.root).Nodup) {before after : List PlannedStep}
    (hsplit : treeSteps tree = before ++ after) (hstart : ∀ parent ∈ start, parent ∈ before.map (·.1))
    (hfuel : before.length ≤ fuel) : ∃ parents, predecessors (treeSteps tree) fuel start = some parents := by
  induction fuel generalizing start before after with
  | zero =>
    cases start with
    | none => exact ⟨[], rfl⟩
    | some first =>
      have hmem := hstart first rfl
      rw [eq_nil_of_length_eq_zero (Nat.le_zero.mp hfuel)] at hmem
      cases hmem
  | succ fuel ih =>
    cases start with
    | none => exact ⟨[], rfl⟩
    | some first =>
      unfold predecessors
      split
      · obtain ⟨step, hstep, rfl⟩ := mem_map.mp (hstart first rfl)
        obtain ⟨front, back, rfl⟩ := append_of_mem hstep
        have hget : get (treeSteps tree) step.1 = some step.2 := by
          refine get_of_mem ?_ (hsplit ▸ mem_append_left _ hstep)
          rw [treeSteps_ids]
          exact hdistinct
        have hfirst : ParentsFirst [] (treeSteps tree) := parentsFirst_plannedSteps none (by simp) tree.root
        rw [append_assoc, cons_append] at hsplit
        rw [hsplit] at hfirst
        rw [hget]
        obtain ⟨parents, hparents⟩ := ih hsplit
          (fun parent hparent => (hfirst.of_split hparent).resolve_right not_mem_nil)
          (by rw [length_append, length_cons] at hfuel; omega)
        exact ⟨step.1 :: parents, by simp only [getD_some, hparents, map_some]⟩
      · exact ⟨[], rfl⟩

end Predecessors

/-! ## Resolving routes -/

def routeSelections (tree : WorkflowTreeDefinition) (routes : List JsString) : Set (Set EnterpriseId) :=
  {selected | (∀ raw ∈ routes, trim raw ∈ selected) ∧ ClosedUnderParents (treeSteps tree) selected}

section Resolve

variable {tree : WorkflowTreeDefinition} {resolved resolved' : ResolvedRoutes} {raw : JsString}
  {routes : List JsString}

theorem resolveEndpointRoute_cases (h : resolveEndpointRoute (routeIndex tree) resolved raw = some resolved') :
    (trim raw ∉ treeOrder tree.root ∧ resolved' = { resolved with invalid := resolved.invalid ++ [raw] }) ∨
      trim raw ∈ treeOrder tree.root ∧ ∃ parents,
        predecessors (routeIndex tree).parentOf (routeIndex tree).parentOf.length
          (((routeIndex tree).parentOf.get (trim raw)).getD none) = some parents ∧
        resolved' = { resolved with nodeIds := insert (trim raw) resolved.nodeIds ∪ parents.toFinset } := by
  have hget := byId_get tree (trim raw)
  unfold resolveEndpointRoute at h
  simp only at h
  cases hnode : (routeIndex tree).byId.get (trim raw) with
  | none =>
    rw [hnode] at hget
    simp only [hnode, some.injEq] at h
    have hmem : trim raw ∉ treeOrder tree.root := fun hmem => by simp [hmem] at hget
    exact Or.inl ⟨hmem, h.symm⟩
  | some node =>
    rw [hnode] at hget
    simp only [hnode] at h
    obtain ⟨parents, hparents, rfl⟩ := map_eq_some_iff.mp h
    by_cases hmem : trim raw ∈ treeOrder tree.root
    · have hid : node.id = trim raw := by simpa [hmem] using hget
      exact Or.inr ⟨hmem, parents, hparents, by rw [hid]⟩
    · simp [hmem] at hget

theorem resolveEndpointRoute_subset (h : resolveEndpointRoute (routeIndex tree) resolved raw = some resolved') (hclosed : ClosedUnderParents (treeSteps tree) selected)
    (hroute : trim raw ∈ treeOrder tree.root → trim raw ∈ selected) (hbefore : ↑resolved.nodeIds ⊆ selected) :
    ↑resolved'.nodeIds ⊆ selected := by
  rcases resolveEndpointRoute_cases h with ⟨-, rfl⟩ | ⟨hmem, parents, hparents, rfl⟩
  · exact hbefore
  have habove := predecessors_subset (fun _ _ => mem_treeSteps_of_parentOf) hclosed
    (fun parent hparent => ?_) hparents
  · intro id hid
    rcases Finset.mem_union.mp hid with hinsert | hparent
    · rcases Finset.mem_insert.mp hinsert with rfl | hold
      · exact hroute hmem
      · exact hbefore hold
    · exact habove id (mem_toFinset.mp hparent)
  · cases hget : (routeIndex tree).parentOf.get (trim raw) with
    | none => simp [hget] at hparent
    | some above =>
      simp only [hget, getD_some] at hparent
      exact hclosed _ (mem_treeSteps_of_parentOf hget) (hroute hmem) parent hparent

theorem foldlM_resolve_subset (hclosed : ClosedUnderParents (treeSteps tree) selected)
    (hroutes : ∀ raw ∈ routes, trim raw ∈ treeOrder tree.root → trim raw ∈ selected)
    (hbefore : ↑resolved.nodeIds ⊆ selected)
    (h : routes.foldlM (resolveEndpointRoute (routeIndex tree)) resolved = some resolved') :
    ↑resolved'.nodeIds ⊆ selected := by
  induction routes generalizing resolved with
  | nil =>
    obtain rfl := some.inj h
    exact hbefore
  | cons raw routes ih =>
    rw [foldlM_cons] at h
    obtain ⟨next, hnext, hrest⟩ := bind_eq_some_iff.mp h
    exact ih (fun r hr => hroutes r (mem_cons_of_mem _ hr))
      (resolveEndpointRoute_subset hnext hclosed (hroutes raw mem_cons_self) hbefore) hrest

theorem foldlM_resolve_valid (h : routes.foldlM (resolveEndpointRoute (routeIndex tree)) resolved = some resolved')
    (hvalid : resolved'.invalid = []) :
    resolved.invalid = [] ∧ resolved.nodeIds ⊆ resolved'.nodeIds ∧
      ∀ raw ∈ routes, trim raw ∈ treeOrder tree.root ∧ trim raw ∈ resolved'.nodeIds := by
  induction routes generalizing resolved with
  | nil =>
    obtain rfl := some.inj h
    exact ⟨hvalid, Finset.Subset.refl _, fun _ hraw => absurd hraw not_mem_nil⟩
  | cons raw routes ih =>
    rw [foldlM_cons] at h
    obtain ⟨next, hnext, hrest⟩ := bind_eq_some_iff.mp h
    obtain ⟨hnone, hsubset, hroutes⟩ := ih hrest
    rcases resolveEndpointRoute_cases hnext with ⟨-, rfl⟩ | ⟨hmem, parents, -, rfl⟩
    · simp at hnone
    · refine ⟨hnone, fun id hid => hsubset (by simp [hid]), fun other hother => ?_⟩
      rcases mem_cons.mp hother with rfl | hlater
      · exact ⟨hmem, hsubset (by simp)⟩
      · exact hroutes other hlater

variable (hdistinct : (treeOrder tree.root).Nodup)

include hdistinct

theorem resolveEndpointRoute_isSome (resolved : ResolvedRoutes) (hmem : trim raw ∈ treeOrder tree.root) :
    ∃ resolved', resolveEndpointRoute (routeIndex tree) resolved raw = some resolved' ∧
      resolved'.invalid = resolved.invalid := by
  have hget := byId_get tree (trim raw)
  rw [if_pos hmem] at hget
  obtain ⟨node, hnode, -⟩ := map_eq_some_iff.mp hget
  have hids : trim raw ∈ (treeSteps tree).map (·.1) := by
    rw [treeSteps_ids]
    exact hmem
  obtain ⟨step, hstep, hsame⟩ := mem_map.mp hids
  obtain ⟨before, after, hsplit⟩ := append_of_mem hstep
  have hstepGet : get (treeSteps tree) (trim raw) = some step.2 := by
    refine get_of_mem ?_ (hsame ▸ hstep)
    rw [treeSteps_ids]
    exact hdistinct
  have hfirst : ParentsFirst [] (treeSteps tree) := parentsFirst_plannedSteps none (by simp) tree.root
  rw [hsplit] at hfirst
  have hfuel : before.length ≤ (treeSteps tree).length := by
    rw [hsplit, length_append]
    omega
  obtain ⟨parents, hparents⟩ := predecessors_isSome hdistinct hsplit
    (fun parent hparent => (hfirst.of_split hparent).resolve_right not_mem_nil) hfuel
  unfold resolveEndpointRoute
  simp only [hnode, parentOf_eq_treeSteps hdistinct, hstepGet, getD_some, hparents, map_some]
  exact ⟨_, rfl, rfl⟩

theorem foldlM_resolve_isSome (resolved : ResolvedRoutes) (hroutes : ∀ raw ∈ routes, trim raw ∈ treeOrder tree.root) :
    ∃ resolved', routes.foldlM (resolveEndpointRoute (routeIndex tree)) resolved = some resolved' ∧
      resolved'.invalid = resolved.invalid := by
  induction routes generalizing resolved with
  | nil => exact ⟨resolved, rfl, rfl⟩
  | cons raw routes ih =>
    obtain ⟨next, hnext, hsame⟩ := resolveEndpointRoute_isSome hdistinct resolved (hroutes raw mem_cons_self)
    obtain ⟨last, hlast, hlastSame⟩ := ih next fun r hr => hroutes r (mem_cons_of_mem _ hr)
    refine ⟨last, ?_, hlastSame.trans hsame⟩
    rw [foldlM_cons, hnext]
    exact hlast

variable (htruthy : ∀ id ∈ treeOrder tree.root, Truthy id)

include htruthy

theorem resolveEndpointRoute_closed (h : resolveEndpointRoute (routeIndex tree) resolved raw = some resolved')
    (hclosed : ClosedUnderParents (treeSteps tree) resolved.nodeIds) :
    ClosedUnderParents (treeSteps tree) resolved'.nodeIds := by
  rcases resolveEndpointRoute_cases h with ⟨-, rfl⟩ | ⟨hmem, parents, hparents, rfl⟩
  · exact hclosed
  rw [parentOf_eq_treeSteps hdistinct] at hparents
  obtain ⟨hstart, habove⟩ := predecessors_closed hparents
  intro step hstep hid parent hparent
  have hget : get (treeSteps tree) step.1 = some (some parent) := by
    refine get_of_mem ?_ (hparent ▸ hstep)
    rw [treeSteps_ids]
    exact hdistinct
  have hparentTruthy : Truthy parent :=
    htruthy parent (treeSteps_closed tree step hstep (by
      change step.1 ∈ treeOrder tree.root
      rw [← treeSteps_ids]
      exact mem_map_of_mem hstep) parent hparent)
  rcases Finset.mem_union.mp hid with hinsert | hcollected
  · rcases Finset.mem_insert.mp hinsert with hendpoint | hold
    · rw [hendpoint] at hget
      rw [hget] at hstart
      exact Finset.mem_union_right _ (mem_toFinset.mpr (hstart parent rfl hparentTruthy))
    · exact Finset.mem_union_left _ (Finset.mem_insert_of_mem (hclosed step hstep hold parent hparent))
  · have hcollected' := mem_toFinset.mp hcollected
    exact Finset.mem_union_right _ (mem_toFinset.mpr (habove step.1 hcollected' parent hget hparentTruthy))

theorem foldlM_resolve_closed (h : routes.foldlM (resolveEndpointRoute (routeIndex tree)) resolved = some resolved')
    (hclosed : ClosedUnderParents (treeSteps tree) resolved.nodeIds) :
    ClosedUnderParents (treeSteps tree) resolved'.nodeIds := by
  induction routes generalizing resolved with
  | nil =>
    obtain rfl := some.inj h
    exact hclosed
  | cons raw routes ih =>
    rw [foldlM_cons] at h
    obtain ⟨next, hnext, hrest⟩ := bind_eq_some_iff.mp h
    exact ih hrest (resolveEndpointRoute_closed hdistinct htruthy hnext hclosed)

theorem resolveRouteNodeIds_isLeast (hroutes : ∀ raw ∈ routes, trim raw ∈ treeOrder tree.root) :
    ∃ resolved, resolveRouteNodeIds tree routes = some resolved ∧ resolved.invalid = [] ∧
      IsLeast (routeSelections tree routes) resolved.nodeIds := by
  obtain ⟨resolved, hresolved, hinvalid⟩ := foldlM_resolve_isSome hdistinct {} hroutes
  obtain ⟨-, -, hendpoints⟩ := foldlM_resolve_valid hresolved hinvalid
  refine ⟨resolved, hresolved, hinvalid, ⟨fun raw hraw => (hendpoints raw hraw).2, ?_⟩, ?_⟩
  · exact foldlM_resolve_closed hdistinct htruthy hresolved (by simp [ClosedUnderParents])
  · rintro selected ⟨hselected, hclosed⟩
    exact foldlM_resolve_subset hclosed (fun raw hraw _ => hselected raw hraw) (by simp) hresolved

end Resolve

end ClawWorks
