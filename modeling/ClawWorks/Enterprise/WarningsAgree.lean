import ClawWorks.Enterprise.ChosenCall
import Mathlib.Data.List.Pairwise

/-!
# The warnings of a tree against its runs

An action that is not warned for is one whose effects can be named and whose created objects can be supplied
(`warningsIn_eq_nil_iff`), which is nearly what a call needs to succeed (`Performable`). A required property that
objects inherit can be warned for in vain, and a parameter that no property takes is not warned for.
-/

namespace ClawWorks

open JsMap List

section Folds

variable {σ α ι : Type*} (Has : σ → ι → Prop) (Adds : α → ι → Prop) {step : σ → α → σ} {items : List α}

theorem has_foldl (h : ∀ s a i, Has s i ∨ Adds a i → Has (step s a) i) {s : σ} {i : ι}
    (hi : Has s i ∨ ∃ a ∈ items, Adds a i) : Has (items.foldl step s) i := by
  induction items generalizing s with
  | nil => exact hi.resolve_right (by simp)
  | cons a items ih =>
    refine ih ?_
    rcases hi with hold | ⟨b, hb, hadds⟩
    · exact .inl (h s a i (.inl hold))
    · rcases mem_cons.mp hb with rfl | hrest
      · exact .inl (h s b i (.inr hadds))
      · exact .inr ⟨b, hrest, hadds⟩

theorem of_has_foldl (h : ∀ s a i, Has (step s a) i → Has s i ∨ Adds a i) {s : σ} {i : ι}
    (hi : Has (items.foldl step s) i) : Has s i ∨ ∃ a ∈ items, Adds a i := by
  induction items generalizing s with
  | nil => exact .inl hi
  | cons a items ih =>
    rcases ih hi with hold | ⟨b, hb, hadds⟩
    · exact (h s a i hold).imp_right fun hadds => ⟨a, mem_cons_self, hadds⟩
    · exact .inr ⟨b, mem_cons_of_mem _ hb, hadds⟩

end Folds

/-! ## What the steps of an accepted tree declare -/

mutual

theorem nodesAt_nodes (path : JsString) :
    (node : WorkflowNodeDefinition) → (nodesAt path node).map (·.2) = treeNodes node
  | ⟨id, _, _, children⟩ => by
    rw [nodesAt, treeNodes, map_cons, nodesBelow_nodes path 0 children]

theorem nodesBelow_nodes (path : JsString) (index : Nat) :
    (children : List WorkflowNodeDefinition) → (nodesBelow path index children).map (·.2) = treesNodes children
  | [] => rfl
  | child :: children => by
    rw [nodesBelow, treesNodes, map_append, nodesAt_nodes, nodesBelow_nodes path (index + 1) children]

end

/-- The property is among those gathered for the object type. -/
def Gathered (required : JsMap EnterpriseId (List EnterpriseId)) (property : EnterpriseId × EnterpriseId) : Prop :=
  property.2 ∈ (required.get property.1).getD []

def Requires (entity : OntologyEntity) (property : EnterpriseId × EnterpriseId) : Prop :=
  property.1 = entity.id ∧ ∃ declared ∈ entity.properties, declared.required = true ∧ declared.id = property.2

theorem gathered_entity {required : JsMap EnterpriseId (List EnterpriseId)} {entity : OntologyEntity}
    {property : EnterpriseId × EnterpriseId} (h : Gathered required property ∨ Requires entity property) :
    Gathered ((entity.properties.filter (·.required)).foldl (fun required property =>
      required.set entity.id ((required.get entity.id).getD [] ++ [property.id])) required) property := by
  refine has_foldl Gathered (fun declared property => property = (entity.id, declared.id)) ?_ (h.imp_right ?_)
  · rintro required declared ⟨entityId, id⟩ hhas
    unfold Gathered at hhas ⊢
    rw [get_set]
    split_ifs with hid
    · simp only at hid
      rw [Option.getD_some, mem_append, mem_singleton]
      rcases hhas with hold | hnew
      · exact .inl (hid ▸ hold)
      · exact .inr (Prod.mk.inj hnew).2
    · rcases hhas with hold | hnew
      · exact hold
      · exact absurd (Prod.mk.inj hnew).1.symm hid
  · rintro ⟨hentity, declared, hdeclared, hrequired, hid⟩
    exact ⟨declared, mem_filter.mpr ⟨hdeclared, hrequired⟩, Prod.ext hentity hid.symm⟩

mutual

theorem gathered_node (required : JsMap EnterpriseId (List EnterpriseId)) (property : EnterpriseId × EnterpriseId) :
    (node : WorkflowNodeDefinition) → (Gathered required property ∨
      ∃ below ∈ treeNodes node, ∃ entity ∈ below.ontology.entities, Requires entity property) →
    Gathered (requiredPropertiesOf required node) property
  | ⟨id, title, ontology, children⟩ => by
    intro h
    unfold requiredPropertiesOf
    refine gathered_nodes _ property children ?_
    have hown : (Gathered required property ∨ ∃ entity ∈ ontology.entities, Requires entity property) ∨
        ∃ below ∈ treesNodes children, ∃ entity ∈ below.ontology.entities, Requires entity property := by
      rcases h with hold | ⟨below, hbelow, hrequires⟩
      · exact .inl (.inl hold)
      · unfold treeNodes at hbelow
        rcases mem_cons.mp hbelow with rfl | hchild
        · exact .inl (.inr hrequires)
        · exact .inr ⟨below, hchild, hrequires⟩
    exact hown.imp_left (has_foldl Gathered Requires fun _ _ _ => gathered_entity)

theorem gathered_nodes (required : JsMap EnterpriseId (List EnterpriseId)) (property : EnterpriseId × EnterpriseId) :
    (nodes : List WorkflowNodeDefinition) → (Gathered required property ∨
      ∃ below ∈ treesNodes nodes, ∃ entity ∈ below.ontology.entities, Requires entity property) →
    Gathered (requiredPropertiesOfAll required nodes) property
  | [] => fun h => h.resolve_right (by simp [treesNodes])
  | child :: children => by
    intro h
    unfold requiredPropertiesOfAll
    refine gathered_nodes _ property children ?_
    rcases h with hold | ⟨below, hbelow, hrequires⟩
    · exact .inl (gathered_node required property child (.inl hold))
    · unfold treesNodes at hbelow
      rcases mem_append.mp hbelow with hfirst | hrest
      · exact .inl (gathered_node required property child (.inr ⟨below, hfirst, hrequires⟩))
      · exact .inr ⟨below, hrest, hrequires⟩

end

/-- The catalog has a shape for the object type. -/
def TreeCatalog.Knows (catalog : TreeCatalog) (entityId : EnterpriseId) : Prop :=
  (catalog.entityShapes.get entityId).isSome = true

variable {entityId : EnterpriseId}

theorem declared_of_shape {nodes : List (JsString × WorkflowNodeDefinition)}
    (h : (nodes.foldl declareNode {}).Knows entityId) :
    ∃ entry ∈ nodes, ∃ entity ∈ entry.2.ontology.entities, entity.id = entityId := by
  have hknown := of_has_foldl TreeCatalog.Knows (fun entry entityId =>
    ∃ entity ∈ entry.2.ontology.entities, entity.id = entityId) ?_ h
  · exact hknown.resolve_left (by simp [TreeCatalog.Knows])
  intro catalog entry entityId hnode
  have hrelationships := of_has_foldl TreeCatalog.Knows (fun _ _ => False) ?_ hnode
  · have hentities := of_has_foldl TreeCatalog.Knows (fun added entityId => added.1.id = entityId) ?_
      (hrelationships.resolve_right (by simp))
    · refine hentities.imp_right ?_
      rintro ⟨added, hadded, hid⟩
      exact ⟨added.1, mem_of_getElem? (mem_zipIdx_iff_getElem?.mp hadded), hid⟩
    · intro catalog added entityId hdeclared
      simp only [TreeCatalog.Knows, declareEntity, get_set] at hdeclared
      split_ifs at hdeclared with hid
      · exact .inr hid
      · exact .inl hdeclared
  · intro catalog added entityId hdeclared
    refine .inl ?_
    unfold TreeCatalog.Knows declareRelationship at hdeclared
    simp only at hdeclared
    split at hdeclared <;> exact hdeclared

section Step

variable {tree : WorkflowTreeDefinition} {node : WorkflowNodeDefinition} (hnode : node ∈ treeNodes tree.root)

include hnode

theorem scopeOf_stepScope (enforce : Bool) : ScopeOf tree (stepScope tree node enforce) := by
  rw [← nodesAt_nodes (js "root")] at hnode
  obtain ⟨entry, hentry, rfl⟩ := mem_map.mp hnode
  exact ⟨rfl, rfl, entry, hentry, fun _ _ hentity => entities_declare rfl hentity⟩

theorem requiresDeclared_stepScope (enforce : Bool) : RequiresDeclared (stepScope tree node enforce) := by
  intro entityId entity hentity property hproperty hrequired
  have hdeclared := (forall_declare (P := fun id property => property.required →
    ∃ source ∈ node.ontology.entities, Requires source (id, property.id)) ?_ rfl ?_ hentity).2 property hproperty
    hrequired
  · obtain ⟨source, hsource, hrequires⟩ := hdeclared
    exact gathered_node [] (entityId, property.id) tree.root (.inr ⟨node, hnode, source, hsource, hrequires⟩)
  · intro id existing property hexisting hproperty hid hmerged
    rcases Bool.or_eq_true_iff.mp hmerged with hold | hnew
    · exact hid ▸ hexisting hold
    · exact hproperty hnew
  · exact fun source hsource property hproperty hrequired => ⟨source, hsource, rfl, property, hproperty, hrequired, rfl⟩

variable {action : OntologyAction}

omit hnode in
theorem mem_actions_of_get {enforce : Bool} {actionId : EnterpriseId}
    (h : (stepScope tree node enforce).actions.get actionId = some action) : action ∈ node.ontology.actions := by
  have hget : JsMap.get (node.ontology.actions.foldl (fun (actions : JsMap EnterpriseId OntologyAction) action =>
      JsMap.set actions action.id action) []) actionId = some action := h
  have hfound := of_has_foldl (fun (actions : JsMap EnterpriseId OntologyAction) entry =>
    JsMap.get actions entry.1 = some entry.2) (fun added entry => added = entry.2) ?_ (i := (actionId, action)) hget
  · obtain ⟨added, hadded, rfl⟩ := hfound.resolve_left nofun
    exact hadded
  · intro actions added entry hget
    simp only [get_set] at hget
    split_ifs at hget with hid
    · exact .inr (Option.some.inj hget)
    · exact .inl hget

variable (haccepted : workflowTreeIssues tree = [])

include haccepted

theorem parameter_id_of_accepted (haction : action ∈ node.ontology.actions)
    {parameter : OntologyActionParameter} (hparameter : parameter ∈ action.parameters) :
    isEnterpriseId parameter.id := by
  rw [← nodesAt_nodes (js "root")] at hnode
  obtain ⟨entry, hentry, rfl⟩ := mem_map.mp hnode
  simp only [workflowTreeIssues, append_eq_nil_iff, flatMap_eq_nil_iff] at haccepted
  have hissues := haccepted.1.1.2 entry hentry
  simp only [nodeIssues, bindingIssues, append_eq_nil_iff, itemIssues, flatMap_eq_nil_iff] at hissues
  obtain ⟨index, hindex⟩ := mem_iff_getElem?.mp haction
  have hactionIssues := hissues.2.1.1.1.2 (action, index) (mem_zipIdx_iff_getElem?.mpr hindex)
  simp only [actionIssues, append_eq_nil_iff, itemIssues, flatMap_eq_nil_iff] at hactionIssues
  obtain ⟨index', hindex'⟩ := mem_iff_getElem?.mp hparameter
  exact issueUnless_eq_nil (hactionIssues.1.2 (parameter, index') (mem_zipIdx_iff_getElem?.mpr hindex'))

theorem declared_of_accepted (haction : action ∈ node.ontology.actions)
    {effect : ObjectWriteEffect} (heffect : effect ∈ writeEffects action) : effect.entity ∈ treeEntities tree := by
  rw [← nodesAt_nodes (js "root")] at hnode
  obtain ⟨entry, hentry, rfl⟩ := mem_map.mp hnode
  simp only [workflowTreeIssues, append_eq_nil_iff, flatMap_eq_nil_iff] at haccepted
  have hissues := haccepted.2 entry hentry
  simp only [itemIssues, flatMap_eq_nil_iff] at hissues
  obtain ⟨index, hindex⟩ := mem_iff_getElem?.mp haction
  have hreferences := hissues (action, index) (mem_zipIdx_iff_getElem?.mpr hindex)
  simp only [effectReferenceIssues, append_eq_nil_iff, itemIssues, flatMap_eq_nil_iff] at hreferences
  obtain ⟨source, hsource, hwrites⟩ := mem_filterMap.mp heffect
  obtain ⟨index', hindex'⟩ := mem_iff_getElem?.mp hsource
  have hreference := hreferences.2 (source, index') (mem_zipIdx_iff_getElem?.mpr hindex')
  cases source with
  | call tool | graph kind relationship fromParam toParam => cases hwrites
  | object entity kind =>
    obtain ⟨write, -, rfl⟩ := Option.map_eq_some_iff.mp hwrites
    obtain ⟨below, hbelow, declared, hdeclared, hid⟩ := declared_of_shape (issueUnless_eq_nil hreference)
    rw [treeEntities, mem_flatMap]
    refine ⟨below.2, ?_, mem_map.mpr ⟨declared, hdeclared, hid⟩⟩
    rw [← nodesAt_nodes (js "root")]
    exact mem_map_of_mem hbelow

end Step

/-! ## What an action is not warned for -/

theorem warnUnless_eq_nil_iff {ok : Bool} {path message : JsString} : warnUnless ok path message = [] ↔ ok := by
  unfold warnUnless
  cases ok <;> simp

def OntologyActionEffect.isLocalWrite : OntologyActionEffect → Bool
  | .object _ kind => kind ≠ .read
  | .call _ => false
  | .graph _ _ _ _ => true

theorem repeatedParameterWarnings_eq_nil_iff {node : WorkflowNodeDefinition} {action : OntologyAction} :
    repeatedParameterWarnings node action = [] ↔ (action.parameters.map (·.id)).Nodup := by
  have hkeys : (action.parameters.map fun parameter => (parameter.id, parameter)).map (·.1) =
      action.parameters.map (·.id) := by
    rw [map_map]
    rfl
  rw [repeatedParameterWarnings, warnUnless_eq_nil_iff, decide_eq_true_eq, ← hkeys]
  constructor
  · intro hlength
    refine nodup_of_length_setAll (m := []) nodup_nil ?_
    rw [length_map, length_nil, Nat.zero_add]
    exact hlength
  · intro hnodup
    have hall := setAll_of_nodup (m := ([] : JsMap JsString OntologyActionParameter)) hnodup
    rw [parametersById, hall, nil_append, length_map]

theorem readOnlyWarnings_eq_nil_iff {node : WorkflowNodeDefinition} {action : OntologyAction}
    (hlocal : ∀ effect ∈ action.effects, effect.isLocalWrite) :
    readOnlyWarnings node action = [] ↔ writeEffects action ≠ [] ∨ linkEffects action ≠ [] := by
  have hother : action.effects.any (·.isOther) ↔ linkEffects action ≠ [] := by
    rw [any_eq_true, ne_eq, eq_nil_iff_forall_not_mem]
    simp only [linkEffects, mem_filterMap, not_forall, not_not]
    constructor
    · rintro ⟨effect, heffect, hkind⟩
      have hallowed := hlocal effect heffect
      cases effect with
      | object entity kind => cases hkind
      | call tool => cases hallowed
      | graph kind relationship fromParam toParam =>
        exact ⟨⟨kind, relationship, fromParam, toParam⟩, _, heffect, rfl⟩
    · rintro ⟨link, effect, heffect, hlink⟩
      refine ⟨effect, heffect, ?_⟩
      cases effect with
      | object entity kind => cases hlink
      | call tool => rfl
      | graph kind relationship fromParam toParam => rfl
  rw [readOnlyWarnings, warnUnless_eq_nil_iff, Bool.or_eq_true, hother]
  simp

section Warnings

variable {scope : NodeOntologyScope} {action : OntologyAction} (hnodup : (action.parameters.map (·.id)).Nodup)

include hnodup

theorem get_parametersById_iff {name : JsString} {parameter : OntologyActionParameter} :
    (parametersById action).get name = some parameter ↔ parameter ∈ action.parameters ∧ parameter.id = name := by
  have hkeys : ((action.parameters.map fun parameter => (parameter.id, parameter)).map (·.1)).Nodup := by
    rw [map_map]
    exact hnodup
  have hall := setAll_of_nodup (m := ([] : JsMap JsString OntologyActionParameter)) hkeys
  rw [parametersById, hall, nil_append]
  constructor
  · intro hget
    obtain ⟨found, hfound, heq⟩ := mem_map.mp (mem_of_get hget)
    obtain ⟨rfl, rfl⟩ := Prod.mk.inj heq
    exact ⟨hfound, rfl⟩
  · rintro ⟨hparameter, rfl⟩
    exact get_of_mem hkeys (mem_map_of_mem hparameter)

theorem identifies_iff {name : JsString} {key : OntologyProperty} :
    Identifies action name key ↔ ∃ parameter, (parametersById action).get name = some parameter ∧
      (key.type ≠ .boolean && expressionTypeOf parameter.type = expressionTypeOf key.type : Bool) := by
  simp only [get_parametersById_iff hnodup, Bool.and_eq_true, decide_eq_true_eq]
  constructor
  · rintro ⟨htype, parameter, hparameter, hid, hspelled⟩
    exact ⟨parameter, ⟨hparameter, hid⟩, htype, hspelled⟩
  · rintro ⟨parameter, ⟨hparameter, hid⟩, htype, hspelled⟩
    exact ⟨htype, parameter, hparameter, hid, hspelled⟩

theorem endResolves_iff {name : Option JsString} : endResolves scope (parametersById action) entityId name ↔
      ∃ source, linkEnd scope entityId name = some source ∧ Identifies action source.name source.key := by
  unfold endResolves linkEnd
  cases keyProperty scope entityId with
  | none => simp
  | some key =>
    simp only [Option.map_some, Option.some.injEq, exists_eq_left', identifies_iff hnodup]
    cases (parametersById action).get (name.getD key.id) with
    | none => simp
    | some parameter => simp

theorem linkEffectResolves_iff {effect : OntologyLinkEffect} :
    linkEffectResolves scope effect (parametersById action) ↔ Linkable scope action effect := by
  have hor : ∀ (name : Option JsString) (id : JsString), name.or (some id) = some (name.getD id) := by
    intro name id
    cases name <;> rfl
  unfold linkEffectResolves Linkable
  cases hrelationship : scope.relationships.get effect.relationship with
  | none => simp [linkEnds, hrelationship]
  | some relationship =>
    simp only [Bool.and_eq_true, decide_eq_true_eq]
    constructor
    · intro h
      split_ifs at h with hsame
      obtain ⟨hfrom, hto⟩ := Bool.and_eq_true_iff.mp h
      obtain ⟨source, hsource, hsourceIdentifies⟩ := (endResolves_iff hnodup).mp hfrom
      obtain ⟨target, htarget, htargetIdentifies⟩ := (endResolves_iff hnodup).mp hto
      refine ⟨(source, target), linkEnds_eq_some_iff.mpr ⟨relationship, hrelationship, hsource, htarget⟩,
        hsourceIdentifies, htargetIdentifies, fun hentity hname => hsame ?_⟩
      obtain ⟨hsourceEntity, hsourceKey, hsourceName⟩ := linkEnd_eq_some_iff.mp hsource
      obtain ⟨htargetEntity, htargetKey, htargetName⟩ := linkEnd_eq_some_iff.mp htarget
      refine ⟨by rw [← hsourceEntity, ← htargetEntity]; exact hentity, ?_⟩
      rw [hsourceKey, htargetKey, Option.map_some, Option.map_some, hor, hor, ← hsourceName, ← htargetName]
      exact congrArg some hname
    · rintro ⟨ends, hends, hfrom, hto, hdistinct⟩
      obtain ⟨relationship', hrelationship', hsource, htarget⟩ := linkEnds_eq_some_iff.mp hends
      obtain rfl : relationship = relationship' := Option.mem_unique hrelationship hrelationship'
      obtain ⟨hsourceEntity, hsourceKey, hsourceName⟩ := linkEnd_eq_some_iff.mp hsource
      obtain ⟨htargetEntity, htargetKey, htargetName⟩ := linkEnd_eq_some_iff.mp htarget
      rw [if_neg]
      · exact Bool.and_eq_true_iff.mpr ⟨(endResolves_iff hnodup).mpr ⟨ends.1, hsource, hfrom⟩,
          (endResolves_iff hnodup).mpr ⟨ends.2, htarget, hto⟩⟩
      · rintro ⟨hsame, hname⟩
        rw [hsourceKey, htargetKey, Option.map_some, Option.map_some, hor, hor, ← hsourceName, ← htargetName] at hname
        exact hdistinct (by rw [hsourceEntity, htargetEntity, hsame]) (Option.some.inj hname)

variable (honce : TypedOnce scope)

include honce

theorem canSupplyRequired_iff {entity : OntologyEntity} (hentity : scope.entities.get entityId = some entity) :
    canSupplyRequired scope action entityId entity ↔
      ∀ id ∈ requiredIds scope entityId, Supplied scope action entityId id := by
  have htypes : ∀ id type, JsMap.get (JsMap.setAll ([] : JsMap EnterpriseId OntologyValueType)
      (entity.properties.map fun property => (property.id, property.type))) id = some type ↔
      ∃ property ∈ entity.properties, property.id = id ∧ property.type = type := by
    intro id type
    have hmem : ∀ {type}, get (setAll ([] : JsMap EnterpriseId OntologyValueType)
        (entity.properties.map fun property => (property.id, property.type))) id = some type →
        ∃ property ∈ entity.properties, property.id = id ∧ property.type = type := by
      intro type hget
      obtain ⟨property, hproperty, heq⟩ := mem_map.mp ((mem_of_get_setAll hget).resolve_right nofun)
      exact ⟨property, hproperty, (Prod.mk.inj heq).1, (Prod.mk.inj heq).2⟩
    refine ⟨hmem, ?_⟩
    rintro ⟨property, hproperty, rfl, rfl⟩
    have hkeys : property.id ∈ (entity.properties.map fun property => (property.id, property.type)).map (·.1) :=
      mem_map.mpr ⟨(property.id, property.type), mem_map_of_mem hproperty, rfl⟩
    obtain ⟨type, htype⟩ := Option.isSome_iff_exists.mp
      (isSome_get_setAll (m := ([] : JsMap EnterpriseId OntologyValueType)) (.inl hkeys))
    obtain ⟨other, hother, hid, rfl⟩ := hmem htype
    rw [htype, honce entityId entity hentity other hother property hproperty hid]
  unfold canSupplyRequired
  simp only [all_eq_true]
  refine forall₂_congr fun id _ => ?_
  constructor
  · intro h
    split at h
    · rename_i propertyType parameter hproperty hparameter
      obtain ⟨property, hmem, hid, rfl⟩ := (htypes id propertyType).mp hproperty
      obtain ⟨hparameterMem, hparameterId⟩ := (get_parametersById_iff hnodup).mp hparameter
      exact ⟨entity, hentity, property, hmem, hid, parameter, hparameterMem, hparameterId, of_decide_eq_true h⟩
    · cases h
  · rintro ⟨entity', hentity', property, hproperty, hid, parameter, hparameter, hparameterId, hspelled⟩
    obtain rfl : entity' = entity := Option.mem_unique hentity' hentity
    rw [(htypes id property.type).mpr ⟨property, hproperty, hid, rfl⟩,
      (get_parametersById_iff hnodup).mpr ⟨hparameter, hparameterId⟩]
    exact decide_eq_true hspelled

theorem writeWarnings_eq_nil_iff {declared : List EnterpriseId} {node : WorkflowNodeDefinition}
    {effect : ObjectWriteEffect} (hdeclared : effect.entity ∈ declared) :
    writeWarnings scope declared true node action effect = [] ↔ Writable scope action effect ∧
      (effect.kind = .create → ∀ id ∈ requiredIds scope effect.entity, Supplied scope action effect.entity id) := by
  unfold writeWarnings Writable
  cases hentity : scope.entities.get effect.entity with
  | none => simp [hdeclared, keyProperty, hentity]
  | some entity =>
    cases hkey : entity.properties.find? (·.primaryKey) with
    | none => simp [keyProperty, hentity, hkey]
    | some key =>
      have hidentity : identityWarnings node action effect key = [] ↔ Identifies action key.id key := by
        rw [identifies_iff hnodup]
        unfold identityWarnings
        cases (parametersById action).get key.id with
        | none => simp
        | some parameter => simp only [warnUnless_eq_nil_iff, Option.some.injEq, exists_eq_left']
      have hrequired : (if effect.kind = .create then requiredWarnings scope node action effect entity else []) = [] ↔
          (effect.kind = .create → ∀ id ∈ requiredIds scope effect.entity, Supplied scope action effect.entity id) := by
        split_ifs with hcreate
        · rw [requiredWarnings, warnUnless_eq_nil_iff, canSupplyRequired_iff hnodup honce hentity]
          simp [hcreate]
        · simp [hcreate]
      simp only [append_eq_nil_iff, hidentity, hrequired, keyProperty, hentity, hkey, Option.bind_some,
        Option.some.injEq, exists_eq_left']

end Warnings

/-- **An action is not warned for** when its effects can be named and its created objects supplied. -/
theorem warningsIn_eq_nil_iff {scope : NodeOntologyScope} (honce : TypedOnce scope) {action : OntologyAction}
    (hlocal : ∀ effect ∈ action.effects, effect.isLocalWrite) {declared : List EnterpriseId}
    (hdeclared : ∀ effect ∈ writeEffects action, effect.entity ∈ declared) {node : WorkflowNodeDefinition} :
    warningsIn scope declared true node action = [] ↔ Addressable scope action ∧ SuppliesRequired scope action := by
  simp only [warningsIn, append_eq_nil_iff, flatMap_eq_nil_iff, repeatedParameterWarnings_eq_nil_iff,
    readOnlyWarnings_eq_nil_iff hlocal]
  constructor
  · rintro ⟨⟨⟨heffects, hnodup⟩, hlinks⟩, hwrites⟩
    have hwrite := fun effect heffect =>
      (writeWarnings_eq_nil_iff hnodup honce (hdeclared effect heffect)).mp (hwrites effect heffect)
    exact ⟨⟨hnodup, heffects, fun effect heffect => (hwrite effect heffect).1, fun effect heffect =>
      (linkEffectResolves_iff hnodup).mp (warnUnless_eq_nil_iff.mp (hlinks effect heffect))⟩,
      fun effect heffect => (hwrite effect heffect).2⟩
  · rintro ⟨h, hsupplies⟩
    exact ⟨⟨⟨h.effects, h.parameters⟩, fun effect heffect =>
      warnUnless_eq_nil_iff.mpr ((linkEffectResolves_iff h.parameters).mpr (h.links effect heffect))⟩,
      fun effect heffect => (writeWarnings_eq_nil_iff h.parameters honce (hdeclared effect heffect)).mpr
        ⟨h.writes effect heffect, hsupplies effect heffect⟩⟩

/-! ## Where warnings and runs agree -/

def effectTypes (scope : NodeOntologyScope) : OntologyActionEffect → List EnterpriseId
  | .object entity _ => [entity]
  | .call _ => []
  | .graph _ relationship _ _ =>
    (scope.relationships.get relationship).elim [] fun relationship => [relationship.fromEntity, relationship.toEntity]

/-- No two effects concern the same object type. -/
def DistinctTypes (scope : NodeOntologyScope) (action : OntologyAction) : Prop :=
  action.effects.Pairwise fun a b => ∀ entityId ∈ effectTypes scope a, entityId ∉ effectTypes scope b

theorem performable_of_distinct {scope : NodeOntologyScope} {action : OntologyAction} (h : Addressable scope action)
    (hsupplies : SuppliesRequired scope action) (hdistinct : DistinctTypes scope action)
    (hfit : PropertiesFit scope action) : Performable scope action where
  toAddressable := h
  supplied := fun effect heffect hcreate id hid => .inl (hsupplies effect heffect hcreate id hid)
  fit := hfit
  once := by
    rw [List.Nodup, pairwise_map, writeEffects, pairwise_filterMap]
    refine hdistinct.imp fun {a b} hab => ?_
    cases a with
    | object entity kind =>
      cases b with
      | object entity' kind' =>
        intro write hwrite write' hwrite' hsame
        obtain ⟨_, -, rfl⟩ := Option.map_eq_some_iff.mp hwrite
        obtain ⟨_, -, rfl⟩ := Option.map_eq_some_iff.mp hwrite'
        obtain rfl : entity = entity' := hsame
        exact hab entity mem_cons_self mem_cons_self
      | call tool | graph kind relationship fromParam toParam => exact fun _ _ _ hwrite => nomatch hwrite
    | call tool | graph kind relationship fromParam toParam => exact fun _ hwrite => nomatch hwrite
  kept := by
    intro link hlink hkind ends hends effect heffect hdelete
    obtain ⟨a, ha, hlinkOf⟩ := mem_filterMap.mp hlink
    obtain ⟨b, hb, hwriteOf⟩ := mem_filterMap.mp heffect
    obtain ⟨relationship, hrelationship, hsource, htarget⟩ := linkEnds_eq_some_iff.mp hends
    cases a with
    | object entity kind | call tool => cases hlinkOf
    | graph kind relationshipId fromParam toParam =>
      cases b with
      | call tool | graph kind' relationshipId' fromParam' toParam' => cases hwriteOf
      | object entity kind' =>
        obtain ⟨_, -, rfl⟩ := Option.map_eq_some_iff.mp hwriteOf
        obtain rfl := Option.some.inj hlinkOf
        have hsymm : Std.Symm fun a b => ∀ entityId ∈ effectTypes scope a, entityId ∉ effectTypes scope b :=
          ⟨fun a b hab entityId hb ha => hab entityId ha hb⟩
        have happart := List.Pairwise.forall hdistinct ha hb nofun
        simp only [effectTypes, hrelationship, Option.elim_some] at happart
        rw [(linkEnd_eq_some_iff.mp hsource).1, (linkEnd_eq_some_iff.mp htarget).1]
        exact ⟨fun hsame => absurd (hsame ▸ mem_cons_self) (happart relationship.fromEntity mem_cons_self),
          fun hsame => absurd (hsame ▸ mem_cons_self)
            (happart relationship.toEntity (mem_cons_of_mem _ mem_cons_self))⟩

section Agree

variable {ν : Type} [JsNumber ν]

theorem performable_iff {tree : WorkflowTreeDefinition} (haccepted : workflowTreeIssues tree = [])
    {node : WorkflowNodeDefinition} (hnode : node ∈ treeNodes tree.root) {enforce : Bool} {actionId : EnterpriseId}
    {action : OntologyAction} (haction : (stepScope tree node enforce).actions.get actionId = some action)
    (hnumbers : EnoughNumbers ν action.parameters.length) :
    Performable (stepScope tree node enforce) action ↔
      ∃ (database : ObjectStore ν) (args : OntologyRecord ν) (plan : ActionPlan ν),
        planOntologyAction database (stepScope tree node enforce) action args = .ok plan := by
  have hscope := scopeOf_stepScope hnode enforce
  constructor
  · intro h
    exact exists_planned haccepted hscope (requiresDeclared_stepScope hnode enforce) (fun parameter hparameter =>
      parameter_id_of_accepted hnode haccepted (mem_actions_of_get haction) hparameter) h hnumbers
  · rintro ⟨database, args, plan, hplan⟩
    exact performable_of_planned (hscope.typedOnce haccepted) hplan

/-- The warnings of an action agree with its runs: where it is warned for every call fails, and where it is not, and no
two effects concern one object type, some call succeeds. -/
def WarningsAgree (ν : Type) [JsNumber ν] [LowerCase] (tree : WorkflowTreeDefinition) (node : WorkflowNodeDefinition)
    (enforce : Bool) (action : OntologyAction) : Prop :=
  (actionWarnings tree node action ≠ [] → ∀ (database : ObjectStore ν) (args : OntologyRecord ν) (now : Nat),
    ∃ error, (invokeOntologyAction database (stepScope tree node enforce) action args now).2 = .error error) ∧
  (actionWarnings tree node action = [] → DistinctTypes (stepScope tree node enforce) action →
    ∃ (database : ObjectStore ν) (args : OntologyRecord ν), ∀ now,
      ∃ outcome, (invokeOntologyAction database (stepScope tree node enforce) action args now).2 = .ok outcome)

/-- **The warnings of a tree against its runs.** On a step that may write, the warnings of an action agree with its runs
exactly when a performable action declares the inherited names its objects are required to have, and the parameters of
an action that nothing is wrong with otherwise fit the properties they would be written to. -/
theorem warningsAgree_iff [LowerCase] {tree : WorkflowTreeDefinition} (haccepted : workflowTreeIssues tree = [])
    {node : WorkflowNodeDefinition} (hnode : node ∈ treeNodes tree.root)
    (hwritable : canWrite node tree.isExplicit = true) {enforce : Bool} {actionId : EnterpriseId}
    {action : OntologyAction} (haction : (stepScope tree node enforce).actions.get actionId = some action)
    (hlocal : ∀ effect ∈ action.effects, effect.isLocalWrite = true)
    (hnumbers : EnoughNumbers ν action.parameters.length) :
    WarningsAgree ν tree node enforce action ↔
      (Performable (stepScope tree node enforce) action → DeclaresInherited (stepScope tree node enforce) action) ∧
        (Addressable (stepScope tree node enforce) action → SuppliesRequired (stepScope tree node enforce) action →
          DistinctTypes (stepScope tree node enforce) action → PropertiesFit (stepScope tree node enforce) action) := by
  have hwarned : actionWarnings tree node action = [] ↔ Addressable (stepScope tree node enforce) action ∧
      SuppliesRequired (stepScope tree node enforce) action := by
    have hsame : actionWarnings tree node action =
        warningsIn (stepScope tree node enforce) (treeEntities tree) true node action := by
      rw [actionWarnings, hwritable]
      rfl
    rw [hsame]
    exact warningsIn_eq_nil_iff ((scopeOf_stepScope hnode enforce).typedOnce haccepted) hlocal fun effect heffect =>
      declared_of_accepted hnode haccepted (mem_actions_of_get haction) heffect
  have hruns := performable_iff haccepted hnode haction hnumbers
  constructor
  · rintro ⟨hfails, hsucceeds⟩
    refine ⟨fun hperformable => ?_, fun haddressable hsupplies hdistinct => ?_⟩
    · have hsupplies : SuppliesRequired (stepScope tree node enforce) action := by
        by_contra hmissing
        obtain ⟨database, args, plan, hplan⟩ := hruns.mp hperformable
        obtain ⟨error, herror⟩ := hfails (fun hnone => hmissing (hwarned.mp hnone).2) database args 0
        simp [invokeOntologyAction, hplan] at herror
      intro effect heffect hcreate id hid _
      obtain ⟨entity, hentity, property, hproperty, rfl, -⟩ := hsupplies effect heffect hcreate id hid
      exact ⟨entity, hentity, mem_map_of_mem hproperty⟩
    · obtain ⟨database, args, hcalls⟩ := hsucceeds (hwarned.mpr ⟨haddressable, hsupplies⟩) hdistinct
      obtain ⟨outcome, hcall⟩ := hcalls 0
      rcases invokeOntologyAction_cases database (stepScope tree node enforce) action args 0 with
        ⟨error, hrefused⟩ | ⟨plan, -, hplan, -⟩
      · rw [hrefused] at hcall
        cases hcall
      · exact (hruns.mpr ⟨database, args, plan, hplan⟩).fit
  · rintro ⟨hdeclares, hfits⟩
    refine ⟨fun hwarnings database args now => ?_, fun hnone hdistinct => ?_⟩
    · rcases invokeOntologyAction_cases database (stepScope tree node enforce) action args now with
        ⟨error, hrefused⟩ | ⟨plan, -, hplan, -⟩
      · exact ⟨error, by rw [hrefused]⟩
      · have hperformable := hruns.mpr ⟨database, args, plan, hplan⟩
        refine absurd (hwarned.mpr ⟨hperformable.toAddressable, fun effect heffect hcreate id hid => ?_⟩) hwarnings
        refine (hperformable.supplied effect heffect hcreate id hid).resolve_right ?_
        rintro ⟨hinherited, habsent⟩
        obtain ⟨entity, hentity, hlocal⟩ := hdeclares hperformable effect heffect hcreate id hid hinherited
        exact habsent entity hentity hlocal
    · obtain ⟨haddressable, hsupplies⟩ := hwarned.mp hnone
      obtain ⟨database, args, plan, hplan⟩ := hruns.mp
        (performable_of_distinct haddressable hsupplies hdistinct (hfits haddressable hsupplies hdistinct))
      exact ⟨database, args, fun now => ⟨_, by rw [invokeOntologyAction, hplan]⟩⟩

end Agree

section Invoices

attribute [local instance] asciiLowerCase

def fileInvoice (amount : OntologyValueType) : OntologyAction where
  id := js "file"
  parameters := [{ id := js "id", type := .id, required := true },
    { id := js "amount", type := amount, required := true }]
  effects := [.object (js "invoice") .create]

def filingStep (amount : OntologyValueType) : WorkflowNodeDefinition where
  id := js "filing"
  title := js "Filing"
  ontology := {
    entities := [{
      id := js "invoice"
      properties := [{ id := js "id", type := .id, primaryKey := true, required := true },
        { id := js "amount", type := .number }] }]
    actions := [fileInvoice amount]
    allowedTools := [js "invoke_action"] }

def filingTree (amount : OntologyValueType) : WorkflowTreeDefinition where
  id := js "filing"
  version := js "1.0.0"
  name := js "Filing"
  root := filingStep amount

/-- Where the amount is passed as a number. -/
theorem warningsAgree_filing :
    WarningsAgree Int (filingTree .number) (filingStep .number) true (fileInvoice .number) ↔
      (Performable (stepScope (filingTree .number) (filingStep .number) true) (fileInvoice .number) →
          DeclaresInherited (stepScope (filingTree .number) (filingStep .number) true) (fileInvoice .number)) ∧
        (Addressable (stepScope (filingTree .number) (filingStep .number) true) (fileInvoice .number) →
          SuppliesRequired (stepScope (filingTree .number) (filingStep .number) true) (fileInvoice .number) →
          DistinctTypes (stepScope (filingTree .number) (filingStep .number) true) (fileInvoice .number) →
          PropertiesFit (stepScope (filingTree .number) (filingStep .number) true) (fileInvoice .number)) :=
  have hwritable : canWrite (filingStep .number) (filingTree .number).isExplicit = true := by decide
  have hnumbers : EnoughNumbers Int 2 := ⟨Int.ofNat, by decide⟩
  have haction : (stepScope (filingTree .number) (filingStep .number) true).actions.get (js "file") =
      some (fileInvoice .number) := rfl
  warningsAgree_iff (by decide) mem_cons_self hwritable haction (by decide) hnumbers

/-- Where it has to be passed as a text, nothing is warned for and every call fails. -/
theorem warnings_disagree :
    workflowTreeIssues (filingTree .string) = [] ∧
      canWrite (filingStep .string) (filingTree .string).isExplicit = true ∧
      ¬ WarningsAgree Int (filingTree .string) (filingStep .string) true (fileInvoice .string) := by
  refine ⟨by decide, by decide, fun hagree => ?_⟩
  have hdistinct : DistinctTypes (stepScope (filingTree .string) (filingStep .string) true) (fileInvoice .string) :=
    pairwise_singleton _ _
  obtain ⟨database, args, hcalls⟩ := hagree.2 (by decide) hdistinct
  obtain ⟨outcome, hcall⟩ := hcalls 0
  rcases invokeOntologyAction_cases database (stepScope (filingTree .string) (filingStep .string) true)
    (fileInvoice .string) args 0 with ⟨error, hrefused⟩ | ⟨plan, -, hplan, -⟩
  · rw [hrefused] at hcall
    cases hcall
  · have hstep : filingStep .string ∈ treeNodes (filingTree .string).root := mem_cons_self
    have hscope := scopeOf_stepScope hstep true
    have hperformable := performable_of_planned (hscope.typedOnce (by decide)) hplan
    have hfit := hperformable.fit ⟨js "invoice", .create⟩ mem_cons_self nofun _ rfl
      { id := js "amount", type := .number } (mem_cons_of_mem _ mem_cons_self)
    have hamount := mem_cons_of_mem { id := js "id", type := .id, required := true }
      (mem_singleton_self ({ id := js "amount", type := .string, required := true } : OntologyActionParameter))
    exact absurd (hfit.1 _ hamount rfl (.required _ hamount rfl rfl)) (by decide)

end Invoices

end ClawWorks
