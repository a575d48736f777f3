import ClawWorks.Enterprise.ActionEffect
import ClawWorks.Enterprise.RoutePlanner

/-!
# From routes to executed steps
-/

namespace ClawWorks

open List SelectionOutcome

/-! ## Routes and plans agree -/

/-- The nodes of a plan are the selected steps of the tree: in its depth-first order, each once, numbered from zero,
with the parents they have in the tree, and each after its parent. -/
structure FollowsRoute (tree : WorkflowTreeDefinition) (keep : Finset EnterpriseId) (plan : EnterpriseRunPlan) :
    Prop where
  order : plan.nodes.map (·.nodeId) = (treeOrder tree.root).filter (· ∈ keep)
  steps : plan.nodes.map (·.step) = (treeSteps tree).filter (·.1 ∈ keep)
  distinct : (plan.nodes.map (·.nodeId)).Nodup
  numbered : plan.nodes.map (·.seq) = range plan.nodes.length
  parentsFirst : ∀ before node after, plan.nodes = before ++ node :: after →
    ∀ parent ∈ node.parentId, parent ∈ before.map (·.nodeId)

variable {tree : WorkflowTreeDefinition} {plan : EnterpriseRunPlan} {params : RunPlanParams}

theorem followsRoute_of_ok [RunEnvironment] (hdistinct : (treeOrder tree.root).Nodup)
    {keep : Finset EnterpriseId} (htree : params.tree = tree) (hroute : params.routeNodeIds = some keep)
    (hplan : buildEnterpriseRunPlan params = .ok plan) : FollowsRoute tree keep plan := by
  have hsteps := plan_steps hdistinct htree hroute hplan
  obtain ⟨hnumbered, hfirst⟩ := plan_numbered hplan
  have horder : plan.nodes.map (·.nodeId) = (treeOrder tree.root).filter (· ∈ keep) := by
    have hids := congrArg (map (·.1)) hsteps
    rw [← treeSteps_ids, filter_map]
    simpa [EnterprisePlanNode.step, Function.comp_def] using hids
  refine ⟨horder, hsteps, horder ▸ hdistinct.filter _, hnumbered, fun before node after hsplit parent hparent => ?_⟩
  rw [hsplit, map_append, map_cons] at hfirst
  simpa [EnterprisePlanNode.step, Function.comp_def] using (hfirst.of_split hparent).resolve_right not_mem_nil

/-- **Routes are planned as they resolve.** For routes that name steps of the tree, the least selection that has them
and the parents of its steps is what they resolve to, it is planned in the tree's order, and every selection that is
not a route is refused. -/
theorem resolved_route_planned [RunEnvironment] (hdistinct : (treeOrder tree.root).Nodup)
    (htruthy : ∀ id ∈ treeOrder tree.root, Truthy id) :
    (∀ routes : List JsString, routes ≠ [] → (∀ raw ∈ routes, trim raw ∈ treeOrder tree.root) →
      ∃ resolved, resolveRouteNodeIds tree routes = some resolved ∧ resolved.invalid = [] ∧
        IsLeast (routeSelections tree routes) resolved.nodeIds ∧
        ∀ params : RunPlanParams, params.tree = tree → params.routeNodeIds = some resolved.nodeIds →
          ∃ plan, buildEnterpriseRunPlan params = .ok plan ∧ FollowsRoute tree resolved.nodeIds plan) ∧
      ∀ (keep : Finset EnterpriseId) (params : RunPlanParams), params.tree = tree → params.routeNodeIds = some keep →
        (keep = ∅ ∨ (∃ id ∈ keep, id ∉ treeOrder tree.root) ∨ ¬ ClosedUnderParents (treeSteps tree) keep) →
          ∃ error, buildEnterpriseRunPlan params = .error error := by
  constructor
  · intro routes hne hroutes
    obtain ⟨resolved, hresolved, hinvalid, hleast⟩ := resolveRouteNodeIds_isLeast hdistinct htruthy hroutes
    refine ⟨resolved, hresolved, hinvalid, hleast, fun params htree hroute => ?_⟩
    have hids : ∀ id ∈ resolved.nodeIds, id ∈ treeOrder tree.root :=
      hleast.2 ⟨hroutes, treeSteps_closed tree⟩
    obtain ⟨raw, hraw⟩ := exists_mem_of_ne_nil routes hne
    obtain ⟨plan, hplan⟩ := (buildEnterpriseRunPlan_isOk_iff hdistinct htree hroute).mpr
      ⟨⟨trim raw, hleast.1.1 raw hraw⟩, hids, hleast.1.2⟩
    exact ⟨plan, hplan, followsRoute_of_ok hdistinct htree hroute hplan⟩
  · intro keep params htree hroute hother
    cases hplan : buildEnterpriseRunPlan params with
    | error error => exact ⟨error, rfl⟩
    | ok plan =>
      obtain ⟨hne, hids, hclosed⟩ := (buildEnterpriseRunPlan_isOk_iff hdistinct htree hroute).mp ⟨plan, hplan⟩
      rcases hother with rfl | ⟨id, hid, hunknown⟩ | hopen
      · exact absurd hne Finset.not_nonempty_empty
      · exact absurd (hids id hid) hunknown
      · exact absurd hclosed hopen

def routeParams (tree : WorkflowTreeDefinition) (keep : Finset EnterpriseId) : RunPlanParams where
  runId := js "run"
  mode := .enforce
  tree := tree
  routeNodeIds := some keep

/-- The route to the selling step is planned with the root in front of it. -/
theorem sellRoute_planned :
    letI := plainEnvironment
    ∃ plan, buildEnterpriseRunPlan (routeParams ownsTree {js "root", js "sell"}) = .ok plan ∧
      FollowsRoute ownsTree {js "root", js "sell"} plan := by
  let _ := plainEnvironment
  obtain ⟨resolved, hresolved, -, -, hplanned⟩ :=
    (@resolved_route_planned ownsTree _ (by decide) (by decide)).1 [js " sell"] (by decide)
      (by decide)
  have hids : (resolveRouteNodeIds ownsTree [js " sell"]).map (·.nodeIds) = some {js "root", js "sell"} := by
    decide
  rw [hresolved, Option.map_some, Option.some.injEq] at hids
  rw [hids] at hplanned
  exact hplanned (routeParams ownsTree {js "root", js "sell"}) rfl rfl

def unnamedRootTree : WorkflowTreeDefinition where
  id := js "unnamed"
  version := js "1.0.0"
  name := js "Unnamed"
  root := { id := [], title := js "Root", children := [{ id := js "step", title := js "Step" }] }

/-- **The least selection is not always planned.** No route at all resolves to no step, which is refused; and the walk
up stops at an empty id, so that the root is left out. -/
theorem emptyRoute_refused :
    letI := plainEnvironment
    ((treeOrder ownsTree.root).Nodup ∧ resolveRouteNodeIds ownsTree [] = some {} ∧
        IsLeast (routeSelections ownsTree []) ∅ ∧
        buildEnterpriseRunPlan (routeParams ownsTree ∅) = .error .routeWithoutRoot) ∧
      (treeOrder unnamedRootTree.root).Nodup ∧
        resolveRouteNodeIds unnamedRootTree [js "step"] = some ⟨{js "step"}, []⟩ ∧
        ¬ IsLeast (routeSelections unnamedRootTree [js "step"]) {js "step"} := by
  let _ := plainEnvironment
  refine ⟨⟨by decide, rfl, ⟨⟨by simp, by simp [ClosedUnderParents]⟩, fun _ _ => Set.empty_subset _⟩, rfl⟩,
    by decide, by decide, fun hleast => ?_⟩
  have hroot := hleast.1.2 (js "step", some []) (by decide) rfl [] rfl
  exact absurd hroot (by decide)

/-- The steps a selection executes: those of its route, or all of its tree. -/
def EnterpriseWorkflowSelection.executed (selection : EnterpriseWorkflowSelection) : Set EnterpriseId :=
  match selection.route.nodeIds with
  | none => {id | id ∈ treeOrder selection.tree.root}
  | some nodeIds => nodeIds

open EnterpriseWorkflowSelection

theorem planned_executed [RunEnvironment] {selection : EnterpriseWorkflowSelection}
    (htree : params.tree = selection.tree) (hroute : params.routeNodeIds = selection.route.nodeIds) (hplan : buildEnterpriseRunPlan params = .ok plan) :
    ∀ id ∈ enterpriseStepSequence plan, id ∈ selection.executed := by
  intro id hid
  unfold executed
  cases hnodes : selection.route.nodeIds with
  | none =>
    have horder := (enterpriseStepSequence_sublist hplan).subset hid
    rwa [htree] at horder
  | some keep =>
    obtain ⟨node, hnode, rfl⟩ := mem_map.mp hid
    have hstep : node.step ∈ plan.nodes.map (·.step) := mem_map_of_mem hnode
    rw [(buildEnterpriseRunPlan_ok hplan).1, hroute, hnodes, flattenPlanNodes, visitPlanNode_planned] at hstep
    exact (plannedSteps_sublist keep none _).2 _ hstep

/-- The planner named a candidate and endpoints in it, and no step is executed that is not in front of one of them. -/
structure ChosenByPlanner (trees : List WorkflowTreeDefinition) (treeId : JsString) (routes : List JsString)
    (selection : EnterpriseWorkflowSelection) : Prop where
  candidate : selection.tree ∈ trees ∧ selection.tree.id = trim treeId
  routed : routes ≠ []
  exist : ∀ raw ∈ routes, trim raw ∈ treeOrder selection.tree.root
  least : ∀ selected ∈ routeSelections selection.tree routes, selection.executed ⊆ selected
  planned : ∀ [RunEnvironment] (params : RunPlanParams) (plan : EnterpriseRunPlan),
    params.tree = selection.tree → params.routeNodeIds = selection.route.nodeIds →
      buildEnterpriseRunPlan params = .ok plan → ∀ id ∈ enterpriseStepSequence plan, id ∈ selection.executed

theorem resolveRoute_some {routes : List JsString} {rationale : Option JsString} {route : EnterpriseRouteSelection}
    (h : resolveRoute tree routes rationale = some (some route)) : routes ≠ [] ∧
      (∀ raw ∈ routes, trim raw ∈ treeOrder tree.root) ∧ ∀ selection : EnterpriseWorkflowSelection,
        selection.tree = tree → selection.route = route →
          ∀ selected ∈ routeSelections tree routes, selection.executed ⊆ selected := by
  obtain ⟨resolved, hresolved, h⟩ := Option.map_eq_some_iff.mp h
  split at h
  · cases h
  rename_i husable
  simp only [Bool.or_eq_true, decide_eq_true_eq, not_or, Bool.not_eq_true', Bool.not_eq_false, List.isEmpty_iff]
    at husable
  obtain ⟨hne, hinvalid⟩ := husable
  obtain ⟨-, -, hexist⟩ := foldlM_resolve_valid hresolved hinvalid
  have hsubset : ∀ selected ∈ routeSelections tree routes, ↑resolved.nodeIds ⊆ selected := fun selected hselected =>
    foldlM_resolve_subset hselected.2 (fun raw hraw _ => hselected.1 raw hraw) (by simp) hresolved
  refine ⟨?_, fun raw hraw => (hexist raw hraw).1, ?_⟩
  · rintro rfl
    obtain rfl := Option.some.inj hresolved
    exact hne rfl
  rintro selection rfl rfl selected hselected
  split at h
  · rename_i hcovers
    obtain hroute := Option.some.inj h
    -- as many ids as the tree has steps: the route has all of them
    have hids : resolved.nodeIds ⊆ (treeOrder selection.tree.root).toFinset := fun id hid =>
      List.mem_toFinset.mpr (hsubset {id | id ∈ treeOrder selection.tree.root}
        ⟨fun raw hraw => (hexist raw hraw).1, treeSteps_closed selection.tree⟩ hid)
    have hall : resolved.nodeIds = (treeOrder selection.tree.root).toFinset :=
      Finset.eq_of_subset_of_card_le hids (by rw [hcovers]; exact List.toFinset_card_le _)
    intro id hid
    have hnodes : selection.route.nodeIds = none := by rw [← hroute]; rfl
    rw [executed, hnodes] at hid
    refine hsubset selected hselected ?_
    rw [hall]
    exact List.mem_toFinset.mpr hid
  · have hroute := Option.some.inj h
    have hnodes : selection.route.nodeIds = some resolved.nodeIds := by rw [← hroute]
    rw [executed, hnodes]
    exact hsubset selected hselected

/-! ## What a planner must have said -/

section Select

variable {trees : List WorkflowTreeDefinition} {defaultTree : WorkflowTreeDefinition}
  {selection : EnterpriseWorkflowSelection}

structure SingleStep (selection : EnterpriseWorkflowSelection) : Prop where
  single : countTreeNodes selection.tree = 1
  undecided : selection.treeSource = .onlyCandidate ∨ selection.treeSource = .noMatch ∨
    selection.treeSource = .unavailable

theorem selectionWithoutModel_execute {source : WorkflowTreeSource} {treeRationale routeRationale : JsString}
    (h : (selectionWithoutModel tree source treeRationale routeRationale).next = .execute) :
    countTreeNodes tree = 1 := by
  unfold selectionWithoutModel at h
  simp only at h
  split at h
  · cases h
  · rename_i hsmall
    have hpositive : 0 < countTreeNodes tree := by
      rw [countTreeNodes]
      obtain ⟨id, title, ontology, children⟩ := tree.root
      simp [treeOrder]
    omega

theorem candidateById_some {id : JsString} (h : candidateById trees id = some tree) : tree ∈ trees ∧ tree.id = id :=
  ⟨mem_reverse.mp (mem_of_find?_eq_some h), by simpa using find?_some h⟩

theorem selectClarification_next {treeId question : JsString}
    (h : selectClarification trees defaultTree treeId question = selection) : selection.next ≠ .execute := by
  unfold selectClarification at h
  split at h
  · subst h; exact fun hnext => nomatch hnext
  · simp only at h
    split at h
    · subst h; exact fun hnext => nomatch hnext
    · subst h; exact fun hnext => nomatch hnext

variable {decision : PlanDecision}

theorem selectDecision_execute (hnext : selection.next = .execute)
    (h : selectDecision trees defaultTree decision = .selected selection) :
    (∃ treeId, decision.treeId = some treeId ∧ ChosenByPlanner trees treeId decision.routes selection) ∨
      SingleStep selection := by
  unfold selectDecision at h
  split at h
  · obtain rfl := selected.inj h
    exact .inr ⟨selectionWithoutModel_execute hnext, .inr (.inl rfl)⟩
  · rename_i treeId htreeId
    split at h
    · obtain rfl := selected.inj h
      cases hnext
    · rename_i candidate hcandidate
      split at h
      · cases h
      · obtain rfl := selected.inj h
        cases hnext
      · rename_i route hroute
        obtain ⟨hne, hexist, hleast⟩ := resolveRoute_some hroute
        obtain rfl := selected.inj h
        exact .inl ⟨treeId, htreeId, candidateById_some hcandidate, hne, hexist, hleast _ rfl rfl,
          fun _ _ htree hroute hplan => planned_executed htree hroute hplan⟩

theorem strings_of_mapM {items : List (Option JsString)} {texts : List JsString} (h : items.mapM id = some texts) :
    items = texts.map some := by
  induction items generalizing texts with
  | nil =>
    obtain rfl := Option.some.inj h
    rfl
  | cons item items ih =>
    rw [mapM_cons] at h
    obtain ⟨text, htext, h⟩ := Option.bind_eq_some_iff.mp h
    obtain ⟨rest, hrest, h⟩ := Option.bind_eq_some_iff.mp h
    obtain rfl := Option.some.inj h
    rw [map_cons, ← ih hrest]
    exact congrArg (· :: items) htext

theorem parsePlanDecision_some {answer : AnswerRecord} (h : parsePlanDecision answer = some decision) :
    (∀ treeId, decision.treeId = some treeId → answer.treeId = .string treeId) ∧
      answer.routes = .array (decision.routes.map some) := by
  unfold parsePlanDecision at h
  obtain ⟨treeId, htreeId, h⟩ := Option.bind_eq_some_iff.mp h
  obtain ⟨routes, hroutes, h⟩ := Option.bind_eq_some_iff.mp h
  obtain ⟨rationale, -, h⟩ := Option.bind_eq_some_iff.mp h
  obtain rfl := Option.some.inj h
  constructor
  · rintro id rfl
    unfold parseTreeId at htreeId
    split at htreeId
    · rename_i hfield
      rw [hfield, Option.some.inj (Option.some.inj htreeId)]
    · cases Option.some.inj htreeId
    · cases htreeId
  · unfold parseRoutes at hroutes
    split at hroutes
    · rename_i hfield
      rw [hfield, strings_of_mapM hroutes]
    · cases hroutes

theorem selectReply_execute {reply : PlannerReply} (hnext : selection.next = .execute)
    (h : selectReply trees defaultTree reply = .selected selection) :
    (∃ answer treeId routes, reply = .record answer ∧ answer.treeId = .string treeId ∧
      answer.routes = .array (routes.map some) ∧ ChosenByPlanner trees treeId routes selection) ∨
      SingleStep selection := by
  unfold selectReply at h
  split at h
  · obtain rfl := selected.inj h
    cases hnext
  · cases h
  · obtain rfl := selected.inj h
    cases hnext
  · rename_i answer
    split at h
    · obtain rfl := selected.inj h
      exact .inr ⟨selectionWithoutModel_execute hnext, .inr (.inr rfl)⟩
    split at h
    · obtain rfl := selected.inj h
      cases hnext
    split at h
    · split at h
      · exact absurd hnext (selectClarification_next (selected.inj h))
      · cases h
    split at h
    · obtain rfl := selected.inj h
      cases hnext
    · rename_i decision hparsed
      obtain ⟨htreeId, hroutes⟩ := parsePlanDecision_some hparsed
      rcases selectDecision_execute hnext h with ⟨treeId, hchosen, hplanner⟩ | hsingle
      · exact .inl ⟨answer, treeId, decision.routes, rfl, htreeId treeId hchosen, hroutes, hplanner⟩
      · exact .inr hsingle

/-- **A tree is executed only as the planner chose it.** Either the planner named one of the candidates with routes that
all exist in it, and nothing beyond the steps in front of them is executed, or the tree has a single step and needs no
decision. -/
theorem executed_as_chosen {requestText : JsString} {planner : Option WorkflowPlanner}
    (h : selectWorkflowPlan trees defaultTree requestText planner = .selected selection)
    (hnext : selection.next = .execute) :
    (∃ plan answer treeId routes, planner = some plan ∧ plan trees requestText = .record answer ∧
      answer.treeId = .string treeId ∧ answer.routes = .array (routes.map some) ∧
      ChosenByPlanner trees treeId routes selection) ∨ SingleStep selection := by
  unfold selectWorkflowPlan at h
  simp only at h
  split at h
  · obtain rfl := SelectionOutcome.selected.inj h
    exact Or.inr ⟨selectionWithoutModel_execute hnext, Or.inl rfl⟩
  · split at h
    · obtain rfl := SelectionOutcome.selected.inj h
      exact Or.inr ⟨selectionWithoutModel_execute hnext, Or.inr (Or.inr rfl)⟩
    · rename_i plan _
      rcases selectReply_execute hnext h with ⟨answer, treeId, routes, hreply, htreeId, hroutes, hchosen⟩ | hsingle
      · exact Or.inl ⟨plan, answer, treeId, routes, rfl, hreply, htreeId, hroutes, hchosen⟩
      · exact Or.inr hsingle

end Select

def sellPlanner : WorkflowPlanner := fun _ _ =>
  .record { kind := .string (js "decided"), treeId := .string (js "ledger"), routes := .array [some (js "sell")] }

theorem executed_as_chosen_sell :
    ∃ selection, (selectWorkflowPlan [ownsTree] BUILTIN_ASSIST_TREE [] (some sellPlanner)).selection? = some selection ∧
      ((∃ plan answer treeId routes, some sellPlanner = some plan ∧ plan [ownsTree] [] = .record answer ∧
        answer.treeId = .string treeId ∧ answer.routes = .array (routes.map some) ∧
        ChosenByPlanner [ownsTree] treeId routes selection) ∨ SingleStep selection) := by
  have hexecuted : ((selectWorkflowPlan [ownsTree] BUILTIN_ASSIST_TREE [] (some sellPlanner)).selection?).map (·.next) =
      some .execute := by
    decide
  obtain ⟨selection, hselection, hnext⟩ := Option.map_eq_some_iff.mp hexecuted
  have hselected : selectWorkflowPlan [ownsTree] BUILTIN_ASSIST_TREE [] (some sellPlanner) = .selected selection := by
    cases houtcome : selectWorkflowPlan [ownsTree] BUILTIN_ASSIST_TREE [] (some sellPlanner) with
    | selected chosen =>
      rw [houtcome] at hselection
      exact congrArg SelectionOutcome.selected (Option.some.inj hselection)
    | rejected | diverges => rw [houtcome] at hselection; cases hselection
  exact ⟨selection, hselection, executed_as_chosen hselected hnext⟩

end ClawWorks
