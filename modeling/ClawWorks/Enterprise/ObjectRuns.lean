import ClawWorks.Enterprise.ActionTransaction
import ClawWorks.Enterprise.TreeCatalog

/-!
# The object store over runs of a tree

The store grows by the successful actions of a tree's runs, from any of its steps (`StoreReached`). An action keeps the
links attached: it drops every link of an object it deletes, and links only what exists after it.
-/

namespace ClawWorks

open KeyedTable Option

variable {ν : Type} [JsNumber ν] {args : OntologyRecord ν}

theorem invokeActionTool_ok {runs : ActiveRuns} {runId actionId : JsString} {now : Nat}
    {database after : ObjectStore ν} {outcome : OntologyActionOutcome ν}
    (h : invokeActionTool runs runId actionId args now database = (.ok outcome, after)) :
    ∃ scope action plan, resolveActiveOntologyScope runs runId = some scope ∧
      scope.actions.get (trim actionId) = some action ∧
      planOntologyAction database scope action args = .ok plan ∧ after = plan.apply database now := by
  unfold invokeActionTool at h
  rcases hscope : resolveActiveOntologyScope runs runId with _ | scope <;> simp only [hscope] at h
  · cases (Prod.mk.inj h).1
  by_cases hblank : trim actionId = [] <;> simp only [hblank, if_true, if_false] at h
  · cases (Prod.mk.inj h).1
  rcases haction : scope.actions.get (trim actionId) with _ | action <;> simp only [haction] at h
  · cases (Prod.mk.inj h).1
  rw [invokeOntologyActionIn_eq] at h
  rcases invokeOntologyAction_cases database scope action args now with
    ⟨error, hrefused⟩ | ⟨plan, reported, hplan, hran⟩
  · rw [hrefused] at h
    cases (Prod.mk.inj h).1
  · rw [hran] at h
    exact ⟨scope, action, plan, rfl, haction, hplan, (Prod.mk.inj h).2.symm⟩

/-- The stores reached by successful actions of runs of the tree, from the empty one. `Meets` is what the actions are
asked to meet where they are invoked. -/
inductive StoreReached [RunEnvironment] (tree : WorkflowTreeDefinition)
    (Meets : NodeOntologyScope → OntologyAction → Prop) : ObjectStore ν → Prop
  | empty : StoreReached tree Meets .empty
  | action {database after : ObjectStore ν} {runs : ActiveRuns} {runId actionId : JsString} {run : EnterpriseActiveRun}
      {args : OntologyRecord ν} {now : Nat} {outcome : OntologyActionOutcome ν} :
      StoreReached tree Meets database → runs runId = some run → RunOf tree run →
      (∀ scope action, resolveActiveOntologyScope runs runId = some scope →
        scope.actions.get (trim actionId) = some action → Meets scope action) →
      invokeActionTool runs runId actionId args now database = (.ok outcome, after) → StoreReached tree Meets after

variable {Meets : NodeOntologyScope → OntologyAction → Prop} {tree : WorkflowTreeDefinition}

theorem StoreReached.induct [RunEnvironment] {Keeps : ObjectStore ν → Prop} (hempty : Keeps .empty)
    (hstep : ∀ {database scope action args plan} (now : Nat), ScopeOf tree scope → Meets scope action →
      planOntologyAction database scope action args = .ok plan → Keeps database → Keeps (plan.apply database now))
    {database : ObjectStore ν} (h : StoreReached tree Meets database) : Keeps database := by
  induction h with
  | empty => exact hempty
  | @action database after runs runId actionId run args now outcome _ hrun hof hmeets hcall ih =>
    obtain ⟨scope, action, plan, hscope, haction, hplan, rfl⟩ := invokeActionTool_ok hcall
    exact hstep now (scopeOf_of_run hrun hof hscope) (hmeets scope action hscope haction) hplan ih

/-- The separator between the type and the id of a target. -/
def SLASH : UInt16 := 47

theorem slash_not_mem_of_isEnterpriseId {id : JsString} (h : isEnterpriseId id) : SLASH ∉ id :=
  fun hmem => absurd (units_of_isEnterpriseId h SLASH hmem) (by decide)

theorem targetOf_injective {a b : ObjectKey} (ha : SLASH ∉ a.entity) (hb : SLASH ∉ b.entity)
    (htree : a.treeId = b.treeId) (h : targetOf a = targetOf b) : a = b := by
  obtain ⟨tree, entity, objectId⟩ := a
  obtain ⟨tree', entity', objectId'⟩ := b
  simp only [targetOf, List.append_assoc] at h
  have hslash : js "/" = [SLASH] := by decide
  rw [hslash] at h
  obtain ⟨hentity, hobjectId⟩ := List.append_cons_inj_of_first ha hb h
  obtain rfl : tree = tree' := htree
  exact congrArg₂ (ObjectKey.mk tree) hentity hobjectId

structure InScope (scope : NodeOntologyScope) (object : ObjectKey) : Prop where
  treeId : object.treeId = scope.treeId
  declared : ∃ entity, scope.entities.get object.entity = some entity

variable {scope : NodeOntologyScope}

theorem namedObjectId_declared {entityId : EnterpriseId} {parameter : Option JsString} {objectId : JsString}
    (h : namedObjectId scope args entityId parameter = some objectId) :
    ∃ entity, scope.entities.get entityId = some entity := by
  obtain ⟨entity, hentity, -⟩ := bind_eq_some_iff.mp h
  exact ⟨entity, hentity⟩

variable {object : ObjectKey}

theorem effectObject_inScope {effect : ObjectWriteEffect}
    (h : effectObject scope args effect = some object) : InScope scope object := by
  obtain ⟨objectId, hnamed, rfl⟩ := map_eq_some_iff.mp h
  exact ⟨rfl, namedObjectId_declared hnamed⟩

theorem effectEdge_inScope {effect : OntologyLinkEffect}
    {edge : OntologyEdge} (h : effectEdge scope args effect = some edge) :
    InScope scope edge.fromObject ∧ InScope scope edge.toObject := by
  obtain ⟨relationship, -, h⟩ := bind_eq_some_iff.mp h
  obtain ⟨fromObjectId, hfrom, h⟩ := bind_eq_some_iff.mp h
  obtain ⟨toObjectId, hto, rfl⟩ := map_eq_some_iff.mp h
  exact ⟨⟨rfl, namedObjectId_declared hfrom⟩, ⟨rfl, namedObjectId_declared hto⟩⟩

theorem InScope.eq_of_targetOf (haccepted : workflowTreeIssues tree = []) (hscope : ScopeOf tree scope)
    {a b : ObjectKey} (ha : InScope scope a) (hb : InScope scope b) (h : targetOf a = targetOf b) : a = b := by
  obtain ⟨entity, hentity⟩ := ha.declared
  obtain ⟨entity', hentity'⟩ := hb.declared
  exact targetOf_injective (slash_not_mem_of_isEnterpriseId (hscope.entity_id_accepted haccepted hentity))
    (slash_not_mem_of_isEnterpriseId (hscope.entity_id_accepted haccepted hentity')) (ha.treeId.trans hb.treeId.symm) h

def LinksAttached (database : ObjectStore ν) : Prop :=
  ∀ row ∈ database.links,
    (database.objects.get? row.edge.fromObject).isSome ∧ (database.objects.get? row.edge.toObject).isSome

section Step

variable {tree : WorkflowTreeDefinition} (haccepted : workflowTreeIssues tree = []) {scope : NodeOntologyScope}
  (hscope : ScopeOf tree scope) {database : ObjectStore ν} {action : OntologyAction} {args : OntologyRecord ν}
  {plan : ActionPlan ν} (hplan : planOntologyAction database scope action args = .ok plan) (now : Nat)

include hplan

theorem object_survives (hexists : (database.objects.get? object).isSome)
    (hkept : ∀ write ∈ plan.writes, write.object = object → write.kind ≠ .delete) :
    ((plan.apply database now).objects.get? object).isSome := by
  have hp := planOntologyAction_follows hplan
  rw [objects_apply]
  by_cases hwritten : ∃ write ∈ plan.writes, write.object = object
  · obtain ⟨write, hwrite, rfl⟩ := hwritten
    rw [get?_foldl_of_nodup (actsAt_writeObjects now) hp.distinct hwrite, writtenRow]
    have hkind := hkept write hwrite rfl
    cases hcase : write.kind with
    | delete => exact absurd hcase hkind
    | create | update => rfl
  · push Not at hwritten
    rwa [get?_foldl_of_forall_ne (actsAt_writeObjects now) hwritten]

include haccepted hscope

theorem endpoint_exists (hobject : InScope scope object)
    (h : endpointError database action plan.targets object = none) :
    ((plan.apply database now).objects.get? object).isSome := by
  obtain ⟨-, consumed, hwrites, -, -⟩ := planOntologyAction_ok hplan
  obtain ⟨hwell, -⟩ := planWrites_ok ⟨by simp, by simp⟩ hwrites
  have hp := planOntologyAction_follows hplan
  have hwriteScope : ∀ write ∈ plan.writes, InScope scope write.object := fun write hwrite => by
    obtain ⟨effect, -, hplanned⟩ := hp.writes.exists_left hwrite
    exact effectObject_inScope hplanned.object
  have hnamed : ∀ write ∈ plan.writes, write.object = object → plan.targets.get (targetOf object) ≠ none := by
    rintro write hwrite rfl hnone
    obtain ⟨entry, hentry, rfl⟩ := List.mem_map.mp hwrite
    exact JsMap.get_eq_none_iff.mp hnone (hwell.named entry hentry ▸ List.mem_map_of_mem hentry)
  unfold endpointError at h
  cases htarget : plan.targets.get (targetOf object) with
  | none =>
    simp only [htarget] at h
    have hexists : (database.objects.get? object).isSome := by
      by_contra hnone
      simp [getOntologyObjectIn, not_isSome_iff_eq_none.mp hnone] at h
    exact object_survives hplan now hexists fun write hwrite hsame => absurd htarget (hnamed write hwrite hsame)
  | some write =>
    simp only [htarget] at h
    have hkind : write.kind ≠ .delete := fun hdelete => by simp [hdelete] at h
    have hentry := JsMap.mem_of_get htarget
    have hwrite : write ∈ plan.writes := List.mem_map_of_mem hentry
    obtain rfl : object = write.object :=
      hobject.eq_of_targetOf haccepted hscope (hwriteScope write hwrite) (hwell.named _ hentry)
    rw [objects_apply, get?_foldl_of_nodup (actsAt_writeObjects now) hp.distinct hwrite, writtenRow]
    cases hcase : write.kind with
    | delete => exact absurd hcase hkind
    | create | update => rfl

omit hplan haccepted hscope [JsNumber ν] in
theorem linkAfter_cases {links : List PlannedLink} {before : Option LinkRow} {row : LinkRow}
    (h : links.foldl (fun row link => linkedRow now link row) before = some row) :
    before = some row ∨ ∃ link ∈ links, link.kind = .link ∧ link.edge = row.edge := by
  induction links generalizing before with
  | nil => exact .inl h
  | cons link links ih =>
    rcases ih h with hold | ⟨later, hlater, hlinked⟩
    · unfold linkedRow at hold
      cases hkind : link.kind with
      | unlink => simp [hkind] at hold
      | link =>
        simp only [hkind, some.injEq] at hold
        cases before with
        | none => exact .inr ⟨link, List.mem_cons_self, hkind, by rw [← hold]; rfl⟩
        | some old => exact .inl (congrArg some hold)
    · exact .inr ⟨later, List.mem_cons_of_mem _ hlater, hlinked⟩

theorem linksAttached_apply (h : LinksAttached database) : LinksAttached (plan.apply database now) := by
  have hp := planOntologyAction_follows hplan
  obtain ⟨-, -, -, -, hends⟩ := planOntologyAction_ok hplan
  intro row hrow
  have hafter := mem_iff_get?.mp hrow
  rw [links_apply] at hafter
  rcases linkAfter_cases now hafter with hold | ⟨link, hlink, hkind, hedge⟩
  · obtain ⟨hbefore, hundeleted⟩ := filter_eq_some_iff.mp hold
    obtain ⟨hfrom, hto⟩ := h row (mem_iff_get?.mpr hbefore)
    have hkept : ∀ object, row.edge.touches object → ∀ write ∈ plan.writes, write.object = object →
        write.kind ≠ .delete := by
      rintro object htouches write hwrite rfl hdelete
      have hdeletes : deletesEndOf plan.writes row.edge :=
        List.any_eq_true.mpr ⟨write, hwrite, by simp [hdelete, htouches]⟩
      simp [hdeletes] at hundeleted
    exact ⟨object_survives hplan now hfrom (hkept _ (by simp [OntologyEdge.touches])),
      object_survives hplan now hto (hkept _ (by simp [OntologyEdge.touches]))⟩
  · have hplanned := List.mem_of_mem_filter hlink
    have hend := List.findSome?_eq_none_iff.mp hends link hplanned
    simp only [hkind, or_eq_none_iff] at hend
    obtain ⟨effect, -, -, heffect⟩ := hp.links.exists_left hplanned
    obtain ⟨hfromScope, htoScope⟩ := effectEdge_inScope heffect
    rw [← hedge]
    exact ⟨endpoint_exists haccepted hscope hplan now hfromScope hend.1,
      endpoint_exists haccepted hscope hplan now htoScope hend.2⟩

end Step

/-- **No link dangles**, in any store reached by successful actions of runs of an accepted tree. -/
theorem linksAttached_of_reached [RunEnvironment] {tree : WorkflowTreeDefinition}
    (haccepted : workflowTreeIssues tree = []) {database : ObjectStore ν}
    (h : StoreReached tree (fun _ _ => True) database) : LinksAttached database :=
  h.induct (fun row hrow => absurd hrow (not_mem_empty row)) fun now hscope _ hplan hattached =>
    linksAttached_apply haccepted hscope hplan now hattached

def wholePlan [RunEnvironment] (tree : WorkflowTreeDefinition) : EnterpriseRunPlan :=
  match buildEnterpriseRunPlan { runId := js "run", mode := .enforce, tree } with
  | .ok plan => plan
  | .error _ => { runId := js "run", treeId := tree.id, nodes := [], activeNodeId := tree.root.id }

theorem buildEnterpriseRunPlan_whole [RunEnvironment] (tree : WorkflowTreeDefinition) :
    buildEnterpriseRunPlan { runId := js "run", mode := .enforce, tree } = .ok (wholePlan tree) :=
  rfl

def runOn [RunEnvironment] (tree : WorkflowTreeDefinition) (nodeId : EnterpriseId) : EnterpriseActiveRun where
  plan := { wholePlan tree with activeNodeId := nodeId }
  treeRequiredProperties := collectTreeRequiredProperties tree

theorem runOf_runOn [RunEnvironment] (tree : WorkflowTreeDefinition) (nodeId : EnterpriseId) :
    RunOf tree (runOn tree nodeId) :=
  ⟨⟨_, wholePlan tree, rfl, buildEnterpriseRunPlan_whole tree, rfl⟩, rfl⟩

theorem storeReached_sold :
    letI := plainEnvironment
    (∀ scope action, ScopeOf ownsTree scope → Meets scope action) →
      StoreReached ownsTree Meets (invokeActionTool (fun _ => some (runOn ownsTree (js "sell"))) (js "run") (js "open")
        (holderArgs "customerid" "1" "9") 0 .empty).2 := by
  let _ := plainEnvironment
  intro hmeets
  let sold := invokeActionTool (fun _ => some (runOn ownsTree (js "sell"))) (js "run") (js "open")
    (holderArgs "customerid" "1" "9") 0 .empty
  let outcome : OntologyActionOutcome Int := ⟨[.object (js "customer") (js "1") .create,
    .object (js "account") (js "9") .create, .edge (js "owns") (js "1") (js "9") .link], []⟩
  have houtcome : sold.1 = .ok outcome := by decide
  have hrun := runOf_runOn ownsTree (js "sell")
  exact .action .empty rfl hrun (fun scope action hscope _ => hmeets scope action (scopeOf_of_run rfl hrun hscope))
    (Prod.ext houtcome rfl)

theorem linksAttached_sold :
    letI := plainEnvironment
    LinksAttached (invokeActionTool (fun _ => some (runOn ownsTree (js "sell"))) (js "run") (js "open")
      (holderArgs "customerid" "1" "9") 0 .empty).2 := by
  let _ := plainEnvironment
  exact linksAttached_of_reached (by decide) (storeReached_sold fun _ _ _ => trivial)

end ClawWorks
