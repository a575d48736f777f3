import ClawWorks.Enterprise.OntologyActions
import ClawWorks.Enterprise.Schema

/-!
# The catalog of an accepted tree

Object types are scoped to the tree, and every node may declare part of one. What the nodes declare agrees:

- `ScopeOf.declaredAs`: what a step's scope says of an object type, the tree declares;
- `scopeOf_of_run`: the steps of a run have scopes of its tree.
-/

namespace ClawWorks

open List

def Declares (tree : WorkflowTreeDefinition) (entityId : EnterpriseId) (property : OntologyProperty) : Prop :=
  ∃ entry ∈ nodesAt (js "root") tree.root, ∃ entity ∈ entry.2.ontology.entities,
    entity.id = entityId ∧ property ∈ entity.properties

/-! ## Shapes -/

/-- The shape of an object type knows the type of every property declared, and the primary key. -/
structure EntityShape.Covers (shape : EntityShape) (declared : Set OntologyProperty) : Prop where
  types : ∀ property ∈ declared, shape.propertyTypes.get property.id = some property.type
  key : ∀ property ∈ declared, property.primaryKey = true → shape.primaryKey = some property.id

theorem EntityShape.Covers.mono {shape : EntityShape} {declared fewer : Set OntologyProperty}
    (h : shape.Covers declared) (hsubset : fewer ⊆ declared) : shape.Covers fewer :=
  ⟨fun property hproperty => h.types property (hsubset hproperty),
    fun property hproperty => h.key property (hsubset hproperty)⟩

variable {a b : OntologyProperty}

theorem EntityShape.Covers.type_eq {shape : EntityShape} {declared : Set OntologyProperty} (h : shape.Covers declared)
    (ha : a ∈ declared) (hb : b ∈ declared) (hid : a.id = b.id) : a.type = b.type := by
  have htype := h.types a ha
  rw [hid, h.types b hb] at htype
  exact (Option.some.inj htype).symm

theorem EntityShape.Covers.key_eq {shape : EntityShape} {declared : Set OntologyProperty} (h : shape.Covers declared)
    (ha : a ∈ declared) (hb : b ∈ declared) (hakey : a.primaryKey) (hbkey : b.primaryKey) : a.id = b.id :=
  Option.mem_unique (h.key a ha hakey) (h.key b hb hbkey)

variable {entityId : EnterpriseId} {property : OntologyProperty}

variable {path : JsString} {state : EntityShape × List WorkflowTreeValidationIssue}

theorem declareProperty_covers
    {declared : Set OntologyProperty} (hcovers : state.1.Covers declared)
    (h : (declareProperty path entityId state property).2 = []) :
    (declareProperty path entityId state property).1.Covers (insert property declared) := by
  unfold declareProperty at h ⊢
  simp only [append_eq_nil_iff] at h ⊢
  obtain ⟨⟨-, htype⟩, hkey⟩ := h
  constructor
  · rintro other (rfl | hother)
    · simp [JsMap.get_set]
    · rw [JsMap.get_set]
      split
      · rename_i hid
        have hknown := hcovers.types other hother
        rw [← hid] at hknown
        simp only [hknown] at htype
        simpa using Eq.symm (of_decide_eq_true (issueUnless_eq_nil htype))
      · exact hcovers.types other hother
  · rintro other (rfl | hother) hprimary
    · rw [if_pos hprimary]
    · have hknown := hcovers.key other hother hprimary
      simp only [hknown] at hkey
      have hsame := issueUnless_eq_nil hkey
      split
      · rename_i hproperty
        simp only [hproperty, Bool.not_true, Bool.false_or, decide_eq_true_eq] at hsame
        rw [hsame]
      · exact hknown

theorem declareProperty_issues (path : JsString) (entityId : EnterpriseId)
    (state : EntityShape × List WorkflowTreeValidationIssue) (property : OntologyProperty) :
    state.2 <+: (declareProperty path entityId state property).2 :=
  (prefix_append _ _).trans (prefix_append _ _)

theorem foldl_declareProperty_issues (path : JsString) (entityId : EnterpriseId) (properties : List OntologyProperty)
    (state : EntityShape × List WorkflowTreeValidationIssue) :
    state.2 <+: (properties.foldl (declareProperty path entityId) state).2 := by
  induction properties generalizing state with
  | nil => exact prefix_rfl
  | cons property properties ih => exact (declareProperty_issues path entityId state property).trans (ih _)

theorem foldl_declareProperty_covers {properties : List OntologyProperty} {declared : Set OntologyProperty}
    (hcovers : state.1.Covers declared) (h : (properties.foldl (declareProperty path entityId) state).2 = []) :
    (properties.foldl (declareProperty path entityId) state).1.Covers
      (declared ∪ {property | property ∈ properties}) := by
  induction properties generalizing state declared with
  | nil => simpa using hcovers
  | cons property properties ih =>
    rw [foldl_cons] at h ⊢
    have hprefix := foldl_declareProperty_issues path entityId properties (declareProperty path entityId state property)
    rw [h] at hprefix
    have hnone := prefix_nil.mp hprefix
    refine (ih (declareProperty_covers hcovers hnone) h).mono ?_
    rintro other (hold | hother)
    · exact .inl (.inr hold)
    · rcases mem_cons.mp hother with rfl | hrest
      · exact .inl (.inl rfl)
      · exact .inr hrest

/-! ## The catalog -/

def TreeCatalog.shape (catalog : TreeCatalog) (entityId : EnterpriseId) : EntityShape :=
  (catalog.entityShapes.get entityId).getD {}

def TreeCatalog.Covers (catalog : TreeCatalog) (declared : EnterpriseId → Set OntologyProperty) : Prop :=
  ∀ entityId, (catalog.shape entityId).Covers (declared entityId)

/-- What an object type declares, by object type. -/
def OntologyEntity.declared (entity : OntologyEntity) (entityId : EnterpriseId) : Set OntologyProperty :=
  {property | entity.id = entityId ∧ property ∈ entity.properties}

variable {declared : EnterpriseId → Set OntologyProperty} {entity : OntologyEntity}

variable {catalog : TreeCatalog}

theorem declareEntity_covers (hcovers : catalog.Covers declared)
    (h : (declareEntity catalog path entity).issues = []) :
    (declareEntity catalog path entity).Covers fun entityId => declared entityId ∪ entity.declared entityId := by
  have hissues : (entity.properties.foldl (declareProperty path entity.id) (catalog.shape entity.id, [])).2 = [] :=
    (append_eq_nil_iff.mp h).2
  have hnew := foldl_declareProperty_covers (hcovers entity.id) hissues
  intro entityId
  by_cases hid : entity.id = entityId
  · subst hid
    have hshape : (declareEntity catalog path entity).shape entity.id =
        (entity.properties.foldl (declareProperty path entity.id) (catalog.shape entity.id, [])).1 := by
      simp [TreeCatalog.shape, declareEntity, JsMap.get_set]
    rw [hshape]
    simpa [OntologyEntity.declared] using hnew
  · have hshape : (declareEntity catalog path entity).shape entityId = catalog.shape entityId := by
      simp [TreeCatalog.shape, declareEntity, JsMap.get_set, hid]
    rw [hshape]
    simpa [OntologyEntity.declared, hid] using hcovers entityId

theorem declareRelationship_covers {relationship : OntologyRelationship} (hcovers : catalog.Covers declared) :
    (declareRelationship catalog path relationship).Covers declared := by
  have hshapes : (declareRelationship catalog path relationship).entityShapes = catalog.entityShapes := by
    unfold declareRelationship
    simp only
    split <;> rfl
  intro entityId
  rw [TreeCatalog.shape, hshapes]
  exact hcovers entityId

theorem foldl_covers {α : Type} {declare : TreeCatalog → α → TreeCatalog}
    (adds : α → EnterpriseId → Set OntologyProperty)
    (hissues : ∀ catalog a, catalog.issues <+: (declare catalog a).issues)
    (hstep : ∀ catalog a (declared : EnterpriseId → Set OntologyProperty), catalog.Covers declared →
      (declare catalog a).issues = [] → (declare catalog a).Covers fun entityId => declared entityId ∪ adds a entityId)
    {items : List α} (hcovers : catalog.Covers declared) (h : (items.foldl declare catalog).issues = []) :
    (items.foldl declare catalog).Covers fun entityId =>
      declared entityId ∪ {property | ∃ a ∈ items, property ∈ adds a entityId} := by
  have hprefix : ∀ (items : List α) (catalog : TreeCatalog),
      catalog.issues <+: (items.foldl declare catalog).issues := by
    intro items
    induction items with
    | nil => exact fun _ => prefix_rfl
    | cons a items ih => exact fun catalog => (hissues catalog a).trans (ih _)
  induction items generalizing catalog declared with
  | nil => simpa using hcovers
  | cons a items ih =>
    rw [foldl_cons] at h ⊢
    have hrest := hprefix items (declare catalog a)
    rw [h] at hrest
    refine fun entityId => (ih (hstep catalog a declared hcovers (prefix_nil.mp hrest)) h entityId).mono ?_
    rintro property (hold | ⟨b, hb, hadded⟩)
    · exact .inl (.inl hold)
    · rcases mem_cons.mp hb with rfl | hrest
      · exact .inl (.inr hadded)
      · exact .inr ⟨b, hrest, hadded⟩

variable {ontology : OntologyBinding}

theorem declareOntology_covers (hcovers : catalog.Covers declared)
    (h : (declareOntology catalog path ontology).issues = []) :
    (declareOntology catalog path ontology).Covers fun entityId =>
      declared entityId ∪ {property | ∃ entity ∈ ontology.entities, property ∈ entity.declared entityId} := by
  have hprefix := (extends_foldl (fun catalog (entry : OntologyRelationship × Nat) =>
    extends_declareRelationship catalog (itemPath path "relationships" entry.2) entry.1) ontology.relationships.zipIdx
    (ontology.entities.zipIdx.foldl
      (fun catalog entry => declareEntity catalog (itemPath path "entities" entry.2) entry.1) catalog)).2
  have hentities := foldl_covers (fun entry => entry.1.declared) (fun catalog (entry : OntologyEntity × Nat) =>
      (extends_declareEntity catalog (itemPath path "entities" entry.2) entry.1).2)
    (fun _ _ _ hcovers hnone => declareEntity_covers hcovers hnone) hcovers
    (prefix_nil.mp (h ▸ hprefix))
  have hall := foldl_covers (fun _ _ => ∅) (fun catalog (entry : OntologyRelationship × Nat) =>
      (extends_declareRelationship catalog (itemPath path "relationships" entry.2) entry.1).2)
    (fun _ _ _ hcovers _ => by simpa using declareRelationship_covers hcovers) hentities h
  refine fun entityId => (hall entityId).mono ?_
  rintro property (hold | ⟨entity, hentity, hdeclared⟩)
  · exact .inl (.inl hold)
  · obtain ⟨index, hindex⟩ := mem_iff_getElem?.mp hentity
    exact .inl (.inr ⟨(entity, index), mem_zipIdx_iff_getElem?.mpr hindex, hdeclared⟩)

theorem declareNode_covers {entry : JsString × WorkflowNodeDefinition} (hcovers : catalog.Covers declared)
    (h : (declareNode catalog entry).issues = []) : (declareNode catalog entry).Covers fun entityId =>
      declared entityId ∪ {property | ∃ entity ∈ entry.2.ontology.entities, property ∈ entity.declared entityId} :=
  have hentered : (enterNode catalog entry.1 entry.2).Covers declared := hcovers
  declareOntology_covers hentered h

section Accepted

variable {tree : WorkflowTreeDefinition} (h : workflowTreeIssues tree = [])

include h

theorem catalog_covers (entityId : EnterpriseId) :
    ∃ shape : EntityShape, shape.Covers {property | Declares tree entityId property} := by
  simp only [workflowTreeIssues, append_eq_nil_iff] at h
  have hstart : (({} : TreeCatalog)).Covers fun _ => ∅ := fun _ => ⟨by simp, by simp⟩
  have hissues : ∀ catalog entry, catalog.issues <+: (declareNode catalog entry).issues := fun catalog entry =>
    foldl_declareNode_issues [entry] catalog
  have hall := foldl_covers
    (fun entry entityId => {property | ∃ entity ∈ entry.2.ontology.entities, property ∈ entity.declared entityId})
    hissues (fun _ _ _ hcovers hnone => declareNode_covers hcovers hnone) hstart h.1.2
  refine ⟨_, (hall entityId).mono ?_⟩
  rintro property ⟨entry, hentry, entity, hentity, hid, hproperty⟩
  exact .inr ⟨entry, hentry, entity, hentity, hid, hproperty⟩

theorem Declares.type_eq {entityId : EnterpriseId} (ha : Declares tree entityId a)
    (hb : Declares tree entityId b) (hid : a.id = b.id) : a.type = b.type := by
  obtain ⟨shape, hcovers⟩ := catalog_covers h entityId
  exact hcovers.type_eq ha hb hid

theorem Declares.key_eq {entityId : EnterpriseId} (ha : Declares tree entityId a)
    (hb : Declares tree entityId b) (hakey : a.primaryKey) (hbkey : b.primaryKey) : a.id = b.id := by
  obtain ⟨shape, hcovers⟩ := catalog_covers h entityId
  exact hcovers.key_eq ha hb hakey hbkey

theorem entity_id_of_accepted {entry : JsString × WorkflowNodeDefinition}
    (hentry : entry ∈ nodesAt (js "root") tree.root) {entity : OntologyEntity}
    (hentity : entity ∈ entry.2.ontology.entities) : isEnterpriseId entity.id := by
  simp only [workflowTreeIssues, append_eq_nil_iff, flatMap_eq_nil_iff] at h
  have hissues := h.1.1.2 entry hentry
  simp only [nodeIssues, bindingIssues, append_eq_nil_iff, itemIssues, flatMap_eq_nil_iff] at hissues
  obtain ⟨index, hindex⟩ := mem_iff_getElem?.mp hentity
  have hentityIssues := hissues.2.1.1.1.1.1 (entity, index) (mem_zipIdx_iff_getElem?.mpr hindex)
  simp only [entityIssues, append_eq_nil_iff] at hentityIssues
  exact issueUnless_eq_nil hentityIssues.1.1.1

end Accepted

/-! ## What a step's scope declares -/

/-- Some of the object types declare the property as it is: under its type, and as primary key when it is one. -/
structure DeclaredAs (declared : Set OntologyProperty) (property : OntologyProperty) : Prop where
  type : ∃ source ∈ declared, source.id = property.id ∧ source.type = property.type
  key : property.primaryKey = true → ∃ source ∈ declared, source.id = property.id ∧ source.primaryKey = true

theorem DeclaredAs.mono {declared more : Set OntologyProperty}
    (h : DeclaredAs declared property) (hsubset : declared ⊆ more) : DeclaredAs more property where
  type := h.type.imp fun _ hsource => ⟨hsubset hsource.1, hsource.2⟩
  key := fun hkey => (h.key hkey).imp fun _ hsource => ⟨hsubset hsource.1, hsource.2⟩

theorem declaredAs_self {declared : Set OntologyProperty} (h : property ∈ declared) : DeclaredAs declared property :=
  ⟨⟨property, h, rfl, rfl⟩, fun hkey => ⟨property, h, rfl, hkey⟩⟩

theorem DeclaredAs.merge {declared : Set OntologyProperty} {existing property : OntologyProperty}
    (hexisting : DeclaredAs declared existing) (hproperty : DeclaredAs declared property)
    (hid : existing.id = property.id) : DeclaredAs declared (mergeProperty existing property) where
  type := hproperty.type
  key := fun hkey => by
    rcases Bool.or_eq_true_iff.mp hkey with hexistingKey | hpropertyKey
    · obtain ⟨source, hsource, hsourceId, hsourceKey⟩ := hexisting.key hexistingKey
      exact ⟨source, hsource, hsourceId.trans hid, hsourceKey⟩
    · exact hproperty.key hpropertyKey

section Merge

variable {P : OntologyProperty → Prop} (hmerge : ∀ {existing property : OntologyProperty}, P existing → P property →
  existing.id = property.id → P (mergeProperty existing property))

include hmerge

theorem forall_mergeProperties {extension : List OntologyProperty} (hextension : ∀ property ∈ extension, P property)
    {properties : JsMap EnterpriseId OntologyProperty}
    (hproperties : ∀ entry ∈ properties, entry.2.id = entry.1 ∧ P entry.2) :
    ∀ entry ∈ mergeProperties properties extension, entry.2.id = entry.1 ∧ P entry.2 := by
  unfold mergeProperties
  induction extension generalizing properties with
  | nil => exact hproperties
  | cons property extension ih =>
    have hproperty := hextension property mem_cons_self
    refine ih (fun p hp => hextension p (mem_cons_of_mem _ hp)) fun entry hentry => ?_
    simp only at hentry
    split at hentry
    · rcases JsMap.mem_set hentry with rfl | hold
      · exact ⟨rfl, hproperty⟩
      · exact hproperties entry hold
    · rename_i existing hfound
      rcases JsMap.mem_set hentry with rfl | hold
      · obtain ⟨hid, hexisting⟩ := hproperties _ (JsMap.mem_of_get hfound)
        exact ⟨rfl, hmerge hexisting hproperty hid⟩
      · exact hproperties entry hold

theorem forall_mergeEntity {base : Option OntologyEntity} {extension : OntologyEntity}
    (hbase : ∀ entity, base = some entity → ∀ p ∈ entity.properties, P p)
    (hextension : ∀ property ∈ extension.properties, P property) :
    ∀ property ∈ (mergeEntity base extension).properties, P property := by
  cases base with
  | none => exact hextension
  | some entity =>
    have hstart : ∀ (items : List OntologyProperty) (properties : JsMap EnterpriseId OntologyProperty),
        (∀ p ∈ items, P p) → (∀ entry ∈ properties, entry.2.id = entry.1 ∧ P entry.2) →
        ∀ entry ∈ items.foldl (fun properties property => properties.set property.id property) properties,
          entry.2.id = entry.1 ∧ P entry.2 := by
      intro items
      induction items with
      | nil => exact fun _ _ hproperties => hproperties
      | cons item items ih =>
        refine fun properties hitems hproperties => ih _ (fun p hp => hitems p (mem_cons_of_mem _ hp)) ?_
        intro entry hentry
        rcases JsMap.mem_set hentry with rfl | hold
        · exact ⟨rfl, hitems item mem_cons_self⟩
        · exact hproperties entry hold
    intro property hproperty
    obtain ⟨entry, hentry, rfl⟩ := mem_map.mp hproperty
    exact (forall_mergeProperties hmerge hextension (hstart _ [] (hbase entity rfl) (by simp)) entry hentry).2

end Merge

variable {scope : NodeOntologyScope}

theorem forall_declare {P : EnterpriseId → OntologyProperty → Prop}
    (hmerge : ∀ id {existing property : OntologyProperty}, P id existing → P id property →
      existing.id = property.id → P id (mergeProperty existing property)) (hscope : scope.entities = [])
    (hdeclared : ∀ source ∈ ontology.entities, ∀ property ∈ source.properties, P source.id property)
    (h : (scope.declare ontology).entities.get entityId = some entity) :
    (∃ source ∈ ontology.entities, source.id = entityId) ∧ ∀ property ∈ entity.properties, P entityId property := by
  have hfold : ∀ (items : List OntologyEntity) (entities : JsMap EnterpriseId OntologyEntity),
      (∀ source ∈ items, source ∈ ontology.entities) →
      (∀ id e, entities.get id = some e →
        (∃ source ∈ ontology.entities, source.id = id) ∧ ∀ property ∈ e.properties, P id property) →
      ∀ id e, (items.foldl (fun entities entity =>
        entities.set entity.id (mergeEntity (entities.get entity.id) entity)) entities).get id = some e →
          (∃ source ∈ ontology.entities, source.id = id) ∧ ∀ property ∈ e.properties, P id property := by
    intro items
    induction items with
    | nil => exact fun _ _ hentities => hentities
    | cons item items ih =>
      refine fun entities hitems hentities => ih _ (fun s hs => hitems s (mem_cons_of_mem _ hs)) ?_
      intro id e hget
      rw [JsMap.get_set] at hget
      split at hget
      · rename_i hid
        subst hid
        obtain rfl := Option.some.inj hget
        have hitem := hitems item mem_cons_self
        exact ⟨⟨item, hitem, rfl⟩, forall_mergeEntity (hmerge item.id)
          (fun base hbase => (hentities _ base hbase).2) (hdeclared item hitem)⟩
      · exact hentities id e hget
  have hempty : ∀ id e, scope.entities.get id = some e →
      (∃ source ∈ ontology.entities, source.id = id) ∧ ∀ property ∈ e.properties, P id property := by
    rw [hscope]
    exact fun _ _ hget => nomatch hget
  exact hfold ontology.entities scope.entities (fun _ hs => hs) hempty entityId entity h

def DeclaredBy (ontology : OntologyBinding) (entityId : EnterpriseId) (entity : OntologyEntity) : Prop :=
  (∃ source ∈ ontology.entities, source.id = entityId) ∧ ∀ property ∈ entity.properties,
    DeclaredAs {property | ∃ source ∈ ontology.entities, property ∈ source.declared entityId} property

theorem entities_declare (hscope : scope.entities = [])
    (h : (scope.declare ontology).entities.get entityId = some entity) : DeclaredBy ontology entityId entity :=
  forall_declare (P := fun id property =>
      DeclaredAs {property | ∃ source ∈ ontology.entities, property ∈ source.declared id} property)
    (fun _ => DeclaredAs.merge) hscope
    (fun source hsource _ hproperty => declaredAs_self ⟨source, hsource, rfl, hproperty⟩) h

/-- What a step's scope says, for a step of the tree. -/
structure ScopeOf (tree : WorkflowTreeDefinition) (scope : NodeOntologyScope) : Prop where
  treeId : scope.treeId = tree.id
  required : scope.treeRequiredProperties = collectTreeRequiredProperties tree
  declares : ∃ entry ∈ nodesAt (js "root") tree.root, ∀ entityId entity,
    scope.entities.get entityId = some entity → DeclaredBy entry.2.ontology entityId entity

theorem ScopeOf.entity_id_accepted {tree : WorkflowTreeDefinition} (haccepted : workflowTreeIssues tree = [])
    (h : ScopeOf tree scope) (hentity : scope.entities.get entityId = some entity) : isEnterpriseId entityId := by
  obtain ⟨entry, hentry, hdeclares⟩ := h.declares
  obtain ⟨⟨source, hsource, rfl⟩, -⟩ := hdeclares entityId entity hentity
  exact entity_id_of_accepted haccepted hentry hsource

theorem ScopeOf.declaredAs {tree : WorkflowTreeDefinition} (h : ScopeOf tree scope)
    (hentity : scope.entities.get entityId = some entity) (hproperty : property ∈ entity.properties) :
    DeclaredAs {property | Declares tree entityId property} property := by
  obtain ⟨entry, hentry, hdeclares⟩ := h.declares
  refine ((hdeclares entityId entity hentity).2 property hproperty).mono ?_
  rintro declared ⟨source, hsource, hid, hdeclared⟩
  exact ⟨entry, hentry, source, hsource, hid, hdeclared⟩

/-- A run of the tree: it was planned on the whole tree or on a route of it, and may have moved its cursor since. -/
structure RunOf [RunEnvironment] (tree : WorkflowTreeDefinition) (run : EnterpriseActiveRun) : Prop where
  planned : ∃ params plan, params.tree = tree ∧ buildEnterpriseRunPlan params = .ok plan ∧
    run.plan = { plan with activeNodeId := run.plan.activeNodeId }
  required : run.treeRequiredProperties = collectTreeRequiredProperties tree

theorem scopeOf_of_run [RunEnvironment] {tree : WorkflowTreeDefinition} {runs : ActiveRuns} {runId : JsString}
    {run : EnterpriseActiveRun} (hrun : runs runId = some run) (hof : RunOf tree run)
    (hscope : resolveActiveOntologyScope runs runId = some scope) : ScopeOf tree scope := by
  obtain ⟨params, plan, rfl, hplan, hsame⟩ := hof.planned
  obtain ⟨node, hnode, rfl⟩ : ∃ node, findPlanNode run.plan run.plan.activeNodeId = some node ∧
      nodeOntologyScope run node = scope := by
    simpa [resolveActiveOntologyScope, hrun] using hscope
  have hmem : node ∈ plan.nodes := by
    have hfound := mem_of_find?_eq_some hnode
    rwa [hsame] at hfound
  rw [(buildEnterpriseRunPlan_ok hplan).1] at hmem
  obtain ⟨entry, hentry, hontology⟩ :=
    (visitPlanNode_ontology _ none (js "root") [] params.tree.root node hmem).resolve_left (by simp)
  refine ⟨?_, hof.required, entry, hentry, fun entityId entity hentity => ?_⟩
  · change run.plan.treeId = _
    rw [hsame]
    exact (buildEnterpriseRunPlan_ok hplan).2.1
  · rw [hontology]
    exact entities_declare rfl hentity

end ClawWorks
