import ClawWorks.Enterprise.Plan

/-!
# Routes through a tree

`plannedSteps` lists what a plan visits: the steps in depth-first order, each with its parent.
-/

namespace ClawWorks

open List

abbrev PlannedStep := EnterpriseId × Option EnterpriseId

mutual

/-- The steps of a subtree that are planned, in depth-first order: a step the selection leaves out is skipped with its
branch. -/
def plannedSteps (keep : Option (Finset EnterpriseId)) (parentId : Option EnterpriseId) :
    WorkflowNodeDefinition → List PlannedStep
  | ⟨id, _, _, children⟩ =>
    if keep.all (id ∈ ·) then (id, parentId) :: plannedStepsAll keep (some id) children else []

/-- The same over several subtrees in order. -/
def plannedStepsAll (keep : Option (Finset EnterpriseId)) (parentId : Option EnterpriseId) :
    List WorkflowNodeDefinition → List PlannedStep
  | [] => []
  | child :: children => plannedSteps keep parentId child ++ plannedStepsAll keep parentId children

end

def treeSteps (tree : WorkflowTreeDefinition) : List PlannedStep :=
  plannedSteps none none tree.root

def ClosedUnderParents (steps : List PlannedStep) (selected : Set EnterpriseId) : Prop :=
  ∀ step ∈ steps, step.1 ∈ selected → ∀ parent ∈ step.2, parent ∈ selected

/-! ## What is visited -/

def EnterprisePlanNode.step (node : EnterprisePlanNode) : PlannedStep :=
  (node.nodeId, node.parentId)

mutual

theorem visitPlanNode_planned (keep : Option (Finset EnterpriseId)) (parentId : Option EnterpriseId)
    (nodes : List EnterprisePlanNode) : (node : WorkflowNodeDefinition) →
    (visitPlanNode keep parentId nodes node).map (·.step) = nodes.map (·.step) ++ plannedSteps keep parentId node
  | ⟨id, title, ontology, children⟩ => by
    unfold visitPlanNode plannedSteps
    split
    · rw [visitPlanNodes_planned keep (some id) _ children, map_append, append_assoc]
      rfl
    · rw [append_nil]

theorem visitPlanNodes_planned (keep : Option (Finset EnterpriseId)) (parentId : Option EnterpriseId)
    (nodes : List EnterprisePlanNode) : (children : List WorkflowNodeDefinition) →
    (visitPlanNodes keep parentId nodes children).map (·.step) =
      nodes.map (·.step) ++ plannedStepsAll keep parentId children
  | [] => by rw [visitPlanNodes, plannedStepsAll, append_nil]
  | child :: children => by
    rw [visitPlanNodes, plannedStepsAll, visitPlanNodes_planned keep parentId _ children,
      visitPlanNode_planned keep parentId nodes child, append_assoc]

end

def Numbered (nodes : List EnterprisePlanNode) : Prop :=
  nodes.map (·.seq) = range nodes.length

mutual

theorem numbered_visitPlanNode (keep : Option (Finset EnterpriseId)) (parentId : Option EnterpriseId)
    {nodes : List EnterprisePlanNode} (h : Numbered nodes) : (node : WorkflowNodeDefinition) →
    Numbered (visitPlanNode keep parentId nodes node)
  | ⟨id, title, ontology, children⟩ => by
    unfold visitPlanNode
    split
    · refine numbered_visitPlanNodes keep (some id) ?_ children
      rw [Numbered, map_append, h, length_append, length_singleton, range_succ]
      rfl
    · exact h

theorem numbered_visitPlanNodes (keep : Option (Finset EnterpriseId)) (parentId : Option EnterpriseId)
    {nodes : List EnterprisePlanNode} (h : Numbered nodes) : (children : List WorkflowNodeDefinition) →
    Numbered (visitPlanNodes keep parentId nodes children)
  | [] => h
  | child :: children => numbered_visitPlanNodes keep parentId (numbered_visitPlanNode keep parentId h child) children

end

mutual

theorem plannedSteps_ids (parentId : Option EnterpriseId) : (node : WorkflowNodeDefinition) →
    (plannedSteps none parentId node).map (·.1) = treeOrder node
  | ⟨id, _, _, children⟩ => by
    simp only [plannedSteps, Option.all_none, if_true, map_cons, treeOrder, plannedStepsAll_ids (some id) children]

theorem plannedStepsAll_ids (parentId : Option EnterpriseId) : (children : List WorkflowNodeDefinition) →
    (plannedStepsAll none parentId children).map (·.1) = treesOrder children
  | [] => rfl
  | child :: children => by
    rw [plannedStepsAll, treesOrder, map_append, plannedSteps_ids parentId child,
      plannedStepsAll_ids parentId children]

end

mutual

theorem plannedSteps_sublist (keep : Finset EnterpriseId) (parentId : Option EnterpriseId) :
    (node : WorkflowNodeDefinition) →
    (plannedSteps (some keep) parentId node).Sublist (plannedSteps none parentId node) ∧
      ∀ step ∈ plannedSteps (some keep) parentId node, step.1 ∈ keep
  | ⟨id, _, _, children⟩ => by
    obtain ⟨hsub, hkeep⟩ := plannedStepsAll_sublist keep (some id) children
    by_cases hid : id ∈ keep
    · simp only [plannedSteps, Option.all_some, Option.all_none, hid, decide_true, if_true]
      refine ⟨hsub.cons_cons _, fun step hstep => ?_⟩
      rcases mem_cons.mp hstep with rfl | hbelow
      · exact hid
      · exact hkeep step hbelow
    · simp [plannedSteps, hid]

theorem plannedStepsAll_sublist (keep : Finset EnterpriseId) (parentId : Option EnterpriseId) :
    (children : List WorkflowNodeDefinition) →
    (plannedStepsAll (some keep) parentId children).Sublist (plannedStepsAll none parentId children) ∧
      ∀ step ∈ plannedStepsAll (some keep) parentId children, step.1 ∈ keep
  | [] => ⟨List.Sublist.refl _, fun _ hstep => absurd hstep not_mem_nil⟩
  | child :: children => by
    obtain ⟨hsub, hkeep⟩ := plannedSteps_sublist keep parentId child
    obtain ⟨hsubRest, hkeepRest⟩ := plannedStepsAll_sublist keep parentId children
    refine ⟨hsub.append hsubRest, fun step hstep => ?_⟩
    exact (mem_append.mp hstep).elim (hkeep step) (hkeepRest step)

end

def ParentsFirst (known : List EnterpriseId) : List PlannedStep → Prop
  | [] => True
  | step :: steps => (∀ parent ∈ step.2, parent ∈ known) ∧ ParentsFirst (step.1 :: known) steps

theorem ParentsFirst.mono {steps : List PlannedStep} {known more : List EnterpriseId} (h : ParentsFirst known steps)
    (hsubset : known ⊆ more) : ParentsFirst more steps := by
  induction steps generalizing known more with
  | nil => trivial
  | cons step steps ih => exact ⟨fun parent hparent => hsubset (h.1 parent hparent),
    ih h.2 (cons_subset_cons _ hsubset)⟩

theorem ParentsFirst.append {a b : List PlannedStep} {known : List EnterpriseId} (ha : ParentsFirst known a)
    (hb : ParentsFirst known b) : ParentsFirst known (a ++ b) := by
  induction a generalizing known with
  | nil => exact hb
  | cons step a ih => exact ⟨ha.1, ih ha.2 (hb.mono (subset_cons_self _ _))⟩

theorem ParentsFirst.of_split {before after : List PlannedStep} {step : PlannedStep} {known : List EnterpriseId}
    (h : ParentsFirst known (before ++ step :: after)) {parent : EnterpriseId} (hparent : parent ∈ step.2) :
    parent ∈ before.map (·.1) ∨ parent ∈ known := by
  induction before generalizing known with
  | nil => exact .inr (h.1 parent hparent)
  | cons first before ih =>
    rcases ih h.2 with hbefore | hknown
    · exact .inl (mem_cons_of_mem _ hbefore)
    · rcases mem_cons.mp hknown with rfl | hold
      · exact .inl mem_cons_self
      · exact .inr hold

mutual

theorem parentsFirst_plannedSteps (keep : Option (Finset EnterpriseId)) {parentId : Option EnterpriseId}
    {known : List EnterpriseId} (hparent : ∀ parent ∈ parentId, parent ∈ known) : (node : WorkflowNodeDefinition) →
    ParentsFirst known (plannedSteps keep parentId node)
  | ⟨id, _, _, children⟩ => by
    unfold plannedSteps
    split
    · exact ⟨hparent, parentsFirst_plannedStepsAll keep (by simp) children⟩
    · trivial

theorem parentsFirst_plannedStepsAll (keep : Option (Finset EnterpriseId)) {parentId : Option EnterpriseId}
    {known : List EnterpriseId} (hparent : ∀ parent ∈ parentId, parent ∈ known) :
    (children : List WorkflowNodeDefinition) → ParentsFirst known (plannedStepsAll keep parentId children)
  | [] => trivial
  | child :: children =>
    (parentsFirst_plannedSteps keep hparent child).append (parentsFirst_plannedStepsAll keep hparent children)

end

variable {selected : Set EnterpriseId}

theorem ClosedUnderParents.of_subset {steps fewer : List PlannedStep}
    (h : ClosedUnderParents steps selected) (hsubset : fewer ⊆ steps) : ClosedUnderParents fewer selected :=
  fun step hstep => h step (hsubset hstep)

mutual

theorem outside_plannedSteps {parentId : Option EnterpriseId} :
    (node : WorkflowNodeDefinition) → ClosedUnderParents (plannedSteps none parentId node) selected →
      node.id ∉ selected → ∀ step ∈ plannedSteps none parentId node, step.1 ∉ selected
  | ⟨id, _, _, children⟩ => by
    intro hclosed hid step hstep
    simp only [plannedSteps, Option.all_none, if_true] at hclosed hstep
    rcases mem_cons.mp hstep with rfl | hbelow
    · exact hid
    · exact outside_plannedStepsAll children (hclosed.of_subset (subset_cons_self _ _)) hid step hbelow

theorem outside_plannedStepsAll {parent : EnterpriseId} : (children : List WorkflowNodeDefinition) →
      ClosedUnderParents (plannedStepsAll none (some parent) children) selected → parent ∉ selected →
        ∀ step ∈ plannedStepsAll none (some parent) children, step.1 ∉ selected
  | [] => fun _ _ _ hstep => absurd hstep not_mem_nil
  | child :: children => by
    intro hclosed hparent step hstep
    unfold plannedStepsAll at hclosed hstep
    rcases mem_append.mp hstep with hfirst | hrest
    · have hfirstClosed := hclosed.of_subset (subset_append_left _ _)
      refine outside_plannedSteps child hfirstClosed (fun hchild => hparent ?_) step hfirst
      refine hfirstClosed (child.id, some parent) ?_ hchild parent rfl
      obtain ⟨id, title, ontology, below⟩ := child
      simp [plannedSteps]
    · exact outside_plannedStepsAll children (hclosed.of_subset (subset_append_right _ _)) hparent step hrest

end

mutual

theorem plannedSteps_eq_filter {keep : Finset EnterpriseId} {parentId : Option EnterpriseId} :
    (node : WorkflowNodeDefinition) → ClosedUnderParents (plannedSteps none parentId node) keep →
    plannedSteps (some keep) parentId node = (plannedSteps none parentId node).filter (·.1 ∈ keep)
  | ⟨id, title, ontology, children⟩ => by
    intro hclosed
    by_cases hid : id ∈ keep
    · have hbelow := plannedStepsAll_eq_filter children
        (hclosed.of_subset (by simp [plannedSteps] : plannedStepsAll none (some id) children ⊆ _))
      simp [plannedSteps, hid, hbelow]
    · have houtside := outside_plannedSteps ⟨id, title, ontology, children⟩ hclosed hid
      rw [filter_eq_nil_iff.mpr (by simpa using fun a b h => houtside (a, b) h)]
      simp [plannedSteps, hid]

theorem plannedStepsAll_eq_filter {keep : Finset EnterpriseId} {parentId : Option EnterpriseId} :
    (children : List WorkflowNodeDefinition) → ClosedUnderParents (plannedStepsAll none parentId children) keep →
    plannedStepsAll (some keep) parentId children = (plannedStepsAll none parentId children).filter (·.1 ∈ keep)
  | [] => fun _ => rfl
  | child :: children => by
    intro hclosed
    unfold plannedStepsAll at hclosed ⊢
    rw [filter_append, plannedSteps_eq_filter child (hclosed.of_subset (subset_append_left _ _)),
      plannedStepsAll_eq_filter children (hclosed.of_subset (subset_append_right _ _))]

end

/-! ## The plan of a route -/

section Route

variable {tree : WorkflowTreeDefinition} {keep : Finset EnterpriseId}

theorem root_mem_of_closed (hids : ∀ id ∈ keep, id ∈ treeOrder tree.root)
    (hclosed : ClosedUnderParents (treeSteps tree) keep) (hne : keep.Nonempty) : tree.root.id ∈ keep := by
  obtain ⟨id, hid⟩ := hne
  by_contra hroot
  have hmem := hids id hid
  rw [← plannedSteps_ids none tree.root] at hmem
  obtain ⟨step, hstep, rfl⟩ := mem_map.mp hmem
  exact outside_plannedSteps tree.root hclosed hroot step hstep hid

variable (hdistinct : (treeOrder tree.root).Nodup)

include hdistinct

theorem plannedSteps_nodup : ((plannedSteps (some keep) none tree.root).map (·.1)).Nodup := by
  refine List.Nodup.sublist ((plannedSteps_sublist keep none tree.root).1.map (·.1)) ?_
  rw [plannedSteps_ids]
  exact hdistinct

theorem plannedSteps_card_iff : (plannedSteps (some keep) none tree.root).length = keep.card ↔
    (∀ id ∈ keep, id ∈ treeOrder tree.root) ∧ ClosedUnderParents (treeSteps tree) keep := by
  let planned := plannedSteps (some keep) none tree.root
  have hnodup : (planned.map (·.1)).Nodup := plannedSteps_nodup hdistinct
  obtain ⟨hsub, hkeep⟩ := plannedSteps_sublist keep none tree.root
  have hcard : (planned.map (·.1)).toFinset.card = planned.length := by
    rw [toFinset_card_of_nodup hnodup, length_map]
  constructor
  · intro hlength
    have hall : (planned.map (·.1)).toFinset = keep := by
      refine Finset.eq_of_subset_of_card_le (fun id hid => ?_) (by rw [hcard]; exact hlength.ge)
      obtain ⟨step, hstep, rfl⟩ := mem_map.mp (mem_toFinset.mp hid)
      exact hkeep step hstep
    have hplanned : ∀ id ∈ keep, ∃ step ∈ planned, step.1 = id := fun id hid => by
      rw [← hall, mem_toFinset] at hid
      exact mem_map.mp hid
    refine ⟨fun id hid => ?_, fun step hstep hid parent hparent => ?_⟩
    · obtain ⟨step, hstep, rfl⟩ := hplanned id hid
      rw [← plannedSteps_ids none tree.root]
      exact mem_map_of_mem (hsub.subset hstep)
    · obtain ⟨other, hother, hsame⟩ := hplanned step.1 hid
      have hids : ((treeSteps tree).map (·.1)).Nodup := by
        rw [treeSteps, plannedSteps_ids]
        exact hdistinct
      obtain rfl : other = step := inj_on_of_nodup_map hids (hsub.subset hother) hstep hsame
      obtain ⟨before, after, hsplit⟩ := append_of_mem hother
      have hfirst : ParentsFirst [] planned := parentsFirst_plannedSteps (some keep) (by simp) tree.root
      rw [hsplit] at hfirst
      have hbefore := (hfirst.of_split hparent).resolve_right not_mem_nil
      obtain ⟨parentStep, hparentStep, rfl⟩ := mem_map.mp hbefore
      refine hkeep parentStep (?_ : parentStep ∈ planned)
      rw [hsplit]
      exact mem_append_left _ hparentStep
  · rintro ⟨hids, hclosed⟩
    have hfilter : planned = (treeSteps tree).filter (·.1 ∈ keep) := plannedSteps_eq_filter tree.root hclosed
    rw [← hcard]
    refine congrArg Finset.card (Finset.ext fun id => ?_)
    rw [mem_toFinset]
    constructor
    · intro hid
      obtain ⟨step, hstep, rfl⟩ := mem_map.mp hid
      exact hkeep step hstep
    · intro hid
      have hmem := hids id hid
      rw [← plannedSteps_ids none tree.root] at hmem
      obtain ⟨step, hstep, rfl⟩ := mem_map.mp hmem
      refine mem_map_of_mem ?_
      rw [hfilter]
      exact mem_filter.mpr ⟨hstep, by simpa using hid⟩

variable [RunEnvironment] {params : RunPlanParams} (htree : params.tree = tree)
  (hroute : params.routeNodeIds = some keep)

include htree hroute

omit hdistinct in
theorem buildEnterpriseRunPlan_isOk_iff_card : (∃ plan, buildEnterpriseRunPlan params = .ok plan) ↔
    tree.root.id ∈ keep ∧ (plannedSteps (some keep) none tree.root).length = keep.card := by
  have hlength : (flattenPlanNodes tree.root (some keep)).length =
      (plannedSteps (some keep) none tree.root).length := by
    have hmap := congrArg length (visitPlanNode_planned (some keep) none [] tree.root)
    simpa [flattenPlanNodes] using hmap
  rw [← hlength]
  unfold buildEnterpriseRunPlan
  simp only [hroute, htree, Option.any_some, decide_eq_true_eq]
  by_cases hroot : tree.root.id ∈ keep
  · by_cases hcard : (flattenPlanNodes tree.root (some keep)).length = keep.card <;> simp [hroot, hcard]
  · simp [hroot]

/-- **A selection is accepted exactly when it is a route**: steps of the tree, some, with the parents of its steps. -/
theorem buildEnterpriseRunPlan_isOk_iff : (∃ plan, buildEnterpriseRunPlan params = .ok plan) ↔
    keep.Nonempty ∧ (∀ id ∈ keep, id ∈ treeOrder tree.root) ∧ ClosedUnderParents (treeSteps tree) keep := by
  rw [buildEnterpriseRunPlan_isOk_iff_card htree hroute, plannedSteps_card_iff hdistinct]
  constructor
  · rintro ⟨hroot, hids, hclosed⟩
    exact ⟨⟨_, hroot⟩, hids, hclosed⟩
  · rintro ⟨hne, hids, hclosed⟩
    exact ⟨root_mem_of_closed hids hclosed hne, hids, hclosed⟩

theorem plan_steps {plan : EnterpriseRunPlan} (hplan : buildEnterpriseRunPlan params = .ok plan) :
    plan.nodes.map (·.step) = (treeSteps tree).filter (·.1 ∈ keep) := by
  obtain ⟨-, -, hclosed⟩ := (buildEnterpriseRunPlan_isOk_iff hdistinct htree hroute).mp ⟨plan, hplan⟩
  rw [(buildEnterpriseRunPlan_ok hplan).1, htree, hroute, flattenPlanNodes, visitPlanNode_planned, map_nil,
    nil_append, plannedSteps_eq_filter tree.root hclosed, treeSteps]

end Route

theorem plan_numbered [RunEnvironment] {params : RunPlanParams} {plan : EnterpriseRunPlan}
    (hplan : buildEnterpriseRunPlan params = .ok plan) :
    Numbered plan.nodes ∧ ParentsFirst [] (plan.nodes.map (·.step)) := by
  rw [(buildEnterpriseRunPlan_ok hplan).1, flattenPlanNodes, visitPlanNode_planned]
  have hempty : Numbered [] := rfl
  exact ⟨numbered_visitPlanNode _ none hempty _, parentsFirst_plannedSteps _ (by simp) _⟩

end ClawWorks
