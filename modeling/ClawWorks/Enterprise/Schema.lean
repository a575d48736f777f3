import ClawWorks.Enterprise.Plan
import ClawWorks.Js.Object

/-!
# Validation of workflow trees

The issues an imported definition is refused for (`workflowTreeIssues`): fields of the wrong form, duplicate node ids,
object types and link types whose declarations disagree, and action effects that resolve to nothing.

Link types are told apart by both ends as well as by their id, so two nodes may declare one id between different object
types.
-/

namespace ClawWorks

open List

/-- One reason a definition is refused. -/
structure WorkflowTreeValidationIssue where
  path : JsString
  message : JsString

/-! ## Fields -/

/-- `[a-z0-9]`. -/
def isIdCharacter (u : UInt16) : Bool :=
  (97 ≤ u && u ≤ 122) || (48 ≤ u && u ≤ 57)

/-- Segments of `[a-z0-9-]` separated by dots; `fresh` while a segment has no character yet. -/
def matchesIdPattern (fresh : Bool) : JsString → Bool
  | [] => !fresh
  | u :: s =>
    if isIdCharacter u then matchesIdPattern false s
    else if fresh then false
    else if u = 45 then matchesIdPattern false s
    else if u = 46 then matchesIdPattern true s
    else false

/-- Dotted stable id: lowercase segments separated by dots. -/
def isEnterpriseId (id : JsString) : Bool :=
  matchesIdPattern true id

example : isEnterpriseId (js "assist.respond-2") = true ∧ isEnterpriseId (js "assist..x") = false := by decide

/-- Report an issue where a check fails. -/
def issueUnless (ok : Bool) (path message : JsString) : List WorkflowTreeValidationIssue :=
  if ok then [] else [⟨path, message⟩]

variable (path : JsString)

def idIssues (id : JsString) : List WorkflowTreeValidationIssue :=
  issueUnless (isEnterpriseId id) path
    (js "must be a dotted lowercase id (e.g. \"assist.respond\"): segments of [a-z0-9-] separated by dots")

def nonBlankIssues (value : JsString) : List WorkflowTreeValidationIssue :=
  issueUnless (!(trim value).isEmpty) path (js "must not be blank")

def nonEmptyIssues (value : JsString) : List WorkflowTreeValidationIssue :=
  issueUnless (!value.isEmpty) path (js "Too small: expected string to have >=1 characters")

def fieldPath (field : String) : JsString :=
  path ++ js "." ++ js field

def itemPath (field : String) (index : Nat) : JsString :=
  fieldPath path field ++ js "." ++ js (toString index)

def itemIssues {α : Type} (field : String) (items : List α)
    (check : JsString → α → List WorkflowTreeValidationIssue) : List WorkflowTreeValidationIssue :=
  items.zipIdx.flatMap fun entry => check (itemPath path field entry.2) entry.1

/-- An object type by itself: its ids, distinct properties, at most one primary key. -/
def entityIssues (entity : OntologyEntity) : List WorkflowTreeValidationIssue :=
  idIssues (fieldPath path "id") entity.id ++
    itemIssues path "properties" entity.properties (fun path property => idIssues (fieldPath path "id") property.id) ++
    (entity.properties.zipIdx.flatMap fun entry =>
      issueUnless (entry.1.id ∉ (entity.properties.take entry.2).map (·.id))
        (fieldPath (itemPath path "properties" entry.2) "id")
        (js "duplicate property id " ++ quoted entry.1.id)) ++
    issueUnless ((entity.properties.filter (·.primaryKey)).length ≤ 1) (fieldPath path "properties")
      (js "an object type may declare at most one primaryKey property")

def relationshipIssues (relationship : OntologyRelationship) : List WorkflowTreeValidationIssue :=
  idIssues (fieldPath path "id") relationship.id ++ idIssues (fieldPath path "from") relationship.fromEntity ++
    idIssues (fieldPath path "to") relationship.toEntity ++
    relationship.inverse.toList.flatMap (nonBlankIssues (fieldPath path "inverse"))

def effectIssues : OntologyActionEffect → List WorkflowTreeValidationIssue
  | .object entity _ => idIssues (fieldPath path "entity") entity
  | .call tool => nonBlankIssues (fieldPath path "tool") tool
  | .graph _ relationship fromParam toParam =>
    idIssues (fieldPath path "relationship") relationship ++
      fromParam.toList.flatMap (idIssues (fieldPath path "from")) ++
      toParam.toList.flatMap (idIssues (fieldPath path "to"))

def actionIssues (action : OntologyAction) : List WorkflowTreeValidationIssue :=
  idIssues (fieldPath path "id") action.id ++ itemIssues path "tools" (action.tools.getD []) nonBlankIssues ++
    itemIssues path "parameters" action.parameters
      (fun path parameter => idIssues (fieldPath path "id") parameter.id) ++
    itemIssues path "effects" action.effects effectIssues

def bindingIssues (ontology : OntologyBinding) : List WorkflowTreeValidationIssue :=
  itemIssues path "entities" ontology.entities entityIssues ++
    itemIssues path "relationships" ontology.relationships relationshipIssues ++
    itemIssues path "actions" ontology.actions actionIssues ++
    itemIssues path "allowedTools" ontology.allowedTools nonBlankIssues ++
    itemIssues path "deniedTools" ontology.deniedTools nonBlankIssues ++
    itemIssues path "mcpServers" (ontology.mcpServers.getD []) nonBlankIssues

mutual

def nodesAt (path : JsString) : WorkflowNodeDefinition → List (JsString × WorkflowNodeDefinition)
  | ⟨id, title, ontology, children⟩ => (path, ⟨id, title, ontology, children⟩) :: nodesBelow path 0 children

def nodesBelow (path : JsString) (index : Nat) : List WorkflowNodeDefinition → List (JsString × WorkflowNodeDefinition)
  | [] => []
  | child :: children => nodesAt (itemPath path "children" index) child ++ nodesBelow path (index + 1) children

end

def nodeIssues (path : JsString) (node : WorkflowNodeDefinition) : List WorkflowTreeValidationIssue :=
  idIssues (fieldPath path "id") node.id ++ nonEmptyIssues (fieldPath path "title") node.title ++
    bindingIssues (fieldPath path "ontology") node.ontology

/-! ## Agreement across the tree -/

/-- Merged shape of a tree-scoped object type. -/
structure EntityShape where
  primaryKey : Option EnterpriseId := none
  propertyTypes : JsMap EnterpriseId OntologyValueType := []

/-- What a link type was declared with. -/
structure RelationshipShape where
  cardinality : Option OntologyCardinality := none
  inverse : Option JsString := none

/-- The catalog gathered so far. -/
structure TreeCatalog where
  seen : List EnterpriseId := []
  entityShapes : JsMap EnterpriseId EntityShape := []
  relationshipShapes : JsMap (EnterpriseId × EnterpriseId × EnterpriseId) RelationshipShape := []
  declaredRelationships : List EnterpriseId := []
  issues : List WorkflowTreeValidationIssue := []

variable (catalog : TreeCatalog)

def TreeCatalog.report (issues : List WorkflowTreeValidationIssue) : TreeCatalog :=
  { catalog with issues := catalog.issues ++ issues }

def declareProperty (path : JsString) (entityId : EnterpriseId)
    (state : EntityShape × List WorkflowTreeValidationIssue) (property : OntologyProperty) :
    EntityShape × List WorkflowTreeValidationIssue :=
  let (shape, issues) := state
  let typeIssues :=
    match shape.propertyTypes.get property.id with
    | some known =>
      issueUnless (known = property.type) (fieldPath path "properties")
        (js "object type " ++ quoted entityId ++ js " declares property " ++ quoted property.id ++ js " as both " ++
          quoted known.text ++ js " and " ++ quoted property.type.text)
    | none => []
  let keyIssues :=
    match shape.primaryKey with
    | some known =>
      issueUnless (!property.primaryKey || known = property.id) (fieldPath path "properties")
        (js "object type " ++ quoted entityId ++ js " declares two primary keys across the tree (" ++ quoted known ++
          js " and " ++ quoted property.id ++ js "); its identity would be ambiguous")
    | none => []
  ({ primaryKey := if property.primaryKey then some property.id else shape.primaryKey
     propertyTypes := shape.propertyTypes.set property.id property.type }, issues ++ typeIssues ++ keyIssues)

def declareEntity (path : JsString) (entity : OntologyEntity) : TreeCatalog :=
  let known := (catalog.entityShapes.get entity.id).getD {}
  let (shape, issues) := entity.properties.foldl (declareProperty path entity.id) (known, [])
  { catalog with
    entityShapes := catalog.entityShapes.set entity.id shape
    issues := catalog.issues ++ issues }

/-- A field two declarations of a link type give differently. -/
def disagreement (path : JsString) (relationship : EnterpriseId) (field : String) (known now : Option JsString) :
    List WorkflowTreeValidationIssue :=
  match known, now with
  | some known, some now =>
    issueUnless (known = now) (fieldPath path field)
      (js "link " ++ quoted relationship ++ js " declares " ++ js field ++ js " as both " ++ quoted known ++
        js " and " ++ quoted now)
  | _, _ => []

/-- One declaration of a link type: its ends and its id tell it apart. -/
def declareRelationship (path : JsString) (relationship : OntologyRelationship) : TreeCatalog :=
  let key := (relationship.fromEntity, relationship.toEntity, relationship.id)
  let declared := catalog.declaredRelationships ++ [relationship.id]
  match catalog.relationshipShapes.get key with
  | none =>
    { catalog with
      declaredRelationships := declared
      relationshipShapes := catalog.relationshipShapes.set key ⟨relationship.cardinality, relationship.inverse⟩ }
  | some known =>
    { catalog with
      declaredRelationships := declared
      relationshipShapes := catalog.relationshipShapes.set key
        ⟨known.cardinality.or relationship.cardinality, known.inverse.or relationship.inverse⟩
      issues := catalog.issues ++
        disagreement path relationship.id "cardinality" (known.cardinality.map (·.text))
          (relationship.cardinality.map (·.text)) ++
        disagreement path relationship.id "inverse" known.inverse relationship.inverse }

def enterNode (path : JsString) (node : WorkflowNodeDefinition) : TreeCatalog :=
  { catalog with
    seen := catalog.seen ++ [node.id]
    issues := catalog.issues ++ issueUnless (node.id ∉ catalog.seen) (fieldPath path "id")
      (js "duplicate workflow node id " ++ quoted node.id) }

/-- The declarations of a node: its object types, then its link types. -/
def declareOntology (path : JsString) (ontology : OntologyBinding) : TreeCatalog :=
  ontology.relationships.zipIdx.foldl
    (fun catalog entry => declareRelationship catalog (itemPath path "relationships" entry.2) entry.1)
    (ontology.entities.zipIdx.foldl
      (fun catalog entry => declareEntity catalog (itemPath path "entities" entry.2) entry.1) catalog)

def declareNode (entry : JsString × WorkflowNodeDefinition) : TreeCatalog :=
  declareOntology (enterNode catalog entry.1 entry.2) (fieldPath entry.1 "ontology") entry.2.ontology

def effectReferenceIssues (path : JsString) (action : OntologyAction) : List WorkflowTreeValidationIssue :=
  let outward : OntologyActionEffect → Bool
    | .call _ => true
    | _ => false
  issueUnless (!(action.effects.any outward && action.effects.any (!outward ·))) (fieldPath path "effects")
      (js "action " ++ quoted action.id ++
        js " mixes an outward call with local effects; split it into one action per side, because a call that has " ++
        js "left cannot join the local transaction") ++
    itemIssues path "effects" action.effects fun path effect =>
      match effect with
      | .object entity _ =>
        issueUnless (catalog.entityShapes.get entity).isSome (fieldPath path "entity")
          (js "action " ++ quoted action.id ++ js " effect references undeclared object type " ++ quoted entity)
      | .call _ => []
      | .graph _ relationship _ _ =>
        issueUnless (relationship ∈ catalog.declaredRelationships) (fieldPath path "relationship")
          (js "action " ++ quoted action.id ++ js " effect references undeclared relationship " ++ quoted relationship)

def workflowTreeIssues (tree : WorkflowTreeDefinition) : List WorkflowTreeValidationIssue :=
  let nodes := nodesAt (js "root") tree.root
  let catalog := nodes.foldl declareNode {}
  idIssues (js "id") tree.id ++ nonEmptyIssues (js "version") tree.version ++ nonEmptyIssues (js "name") tree.name ++
    nodes.flatMap (fun entry => nodeIssues entry.1 entry.2) ++ catalog.issues ++
    nodes.flatMap fun entry =>
      itemIssues (fieldPath entry.1 "ontology") "actions" entry.2.ontology.actions (effectReferenceIssues catalog)

/-! ## What is accepted -/

/-- What declarations do to the rest of the catalog: they visit no node, and only add issues. -/
def CatalogExtends (catalog catalog' : TreeCatalog) : Prop :=
  catalog'.seen = catalog.seen ∧ catalog.issues <+: catalog'.issues

theorem CatalogExtends.trans {a b c : TreeCatalog} (hab : CatalogExtends a b) (hbc : CatalogExtends b c) :
    CatalogExtends a c :=
  ⟨hbc.1.trans hab.1, hab.2.trans hbc.2⟩

theorem extends_declareEntity (path : JsString) (entity : OntologyEntity) :
    CatalogExtends catalog (declareEntity catalog path entity) :=
  ⟨rfl, prefix_append _ _⟩

theorem extends_declareRelationship (path : JsString) (relationship : OntologyRelationship) :
    CatalogExtends catalog (declareRelationship catalog path relationship) := by
  unfold declareRelationship
  simp only
  split
  · exact ⟨rfl, prefix_rfl⟩
  · exact ⟨rfl, (prefix_append _ _).trans (prefix_append _ _)⟩

theorem extends_foldl {α : Type} {declare : TreeCatalog → α → TreeCatalog}
    (h : ∀ catalog a, CatalogExtends catalog (declare catalog a)) (items : List α) (catalog : TreeCatalog) :
    CatalogExtends catalog (items.foldl declare catalog) := by
  induction items generalizing catalog with
  | nil => exact ⟨rfl, prefix_rfl⟩
  | cons a items ih => exact (h catalog a).trans (ih (declare catalog a))

theorem extends_declareOntology (path : JsString) (ontology : OntologyBinding) :
    CatalogExtends catalog (declareOntology catalog path ontology) :=
  (extends_foldl (fun _ _ => extends_declareEntity _ _ _) _ _).trans
    (extends_foldl (fun _ _ => extends_declareRelationship _ _ _) _ _)

theorem issueUnless_eq_nil {ok : Bool} {path message : JsString} (h : issueUnless ok path message = []) : ok := by
  unfold issueUnless at h
  split at h
  · assumption
  · cases h

theorem foldl_declareNode_issues (nodes : List (JsString × WorkflowNodeDefinition)) (catalog : TreeCatalog) :
    catalog.issues <+: (nodes.foldl declareNode catalog).issues := by
  induction nodes generalizing catalog with
  | nil => exact prefix_rfl
  | cons entry nodes ih =>
    have hentered : catalog.issues <+: (enterNode catalog entry.1 entry.2).issues := prefix_append _ _
    exact (hentered.trans (extends_declareOntology _ _ _).2).trans (ih (declareNode catalog entry))

theorem truthy_of_isEnterpriseId {id : JsString} (h : isEnterpriseId id) : Truthy id := by
  rintro rfl
  cases h

theorem units_of_isEnterpriseId {id : JsString} (h : isEnterpriseId id) :
    ∀ u ∈ id, isIdCharacter u ∨ u = 45 ∨ u = 46 := by
  have hpattern : ∀ (id : JsString) (fresh : Bool), matchesIdPattern fresh id →
      ∀ u ∈ id, isIdCharacter u ∨ u = 45 ∨ u = 46 := by
    intro id
    induction id with
    | nil => exact fun _ _ _ hu => absurd hu not_mem_nil
    | cons first id ih =>
      intro fresh hmatch u hu
      unfold matchesIdPattern at hmatch
      rcases mem_cons.mp hu with rfl | hrest
      · split at hmatch
        · rename_i hcharacter
          exact .inl hcharacter
        split at hmatch
        · cases hmatch
        split at hmatch
        · rename_i hdash
          exact .inr (.inl hdash)
        split at hmatch
        · rename_i hdot
          exact .inr (.inr hdot)
        · cases hmatch
      · split at hmatch
        · exact ih false hmatch u hrest
        split at hmatch
        · cases hmatch
        split at hmatch
        · exact ih false hmatch u hrest
        split at hmatch
        · exact ih true hmatch u hrest
        · cases hmatch
  exact hpattern id true h

theorem trim_of_isEnterpriseId {id : JsString} (h : isEnterpriseId id) : trim id = id := by
  refine trim_eq_self fun u hu => ?_
  rcases units_of_isEnterpriseId h u hu with hcharacter | rfl | rfl
  · simp only [isIdCharacter, Bool.or_eq_true, Bool.and_eq_true, decide_eq_true_eq,
      UInt16.le_iff_toNat_le] at hcharacter
    simp at hcharacter
    exact isWhiteSpace_of_printable (by omega) (by omega)
  · decide
  · decide

mutual

theorem visitPlanNode_ontology (keep : Option (Finset EnterpriseId)) (parentId : Option EnterpriseId) (path : JsString)
    (nodes : List EnterprisePlanNode) : (definition : WorkflowNodeDefinition) →
    ∀ node ∈ visitPlanNode keep parentId nodes definition,
      node ∈ nodes ∨ ∃ entry ∈ nodesAt path definition, entry.2.ontology = node.ontology
  | ⟨id, title, ontology, children⟩ => by
    intro node hnode
    unfold visitPlanNode at hnode
    unfold nodesAt
    split at hnode
    · rcases visitPlanNodes_ontology keep (some id) path 0 _ children node hnode with hknown | ⟨entry, hentry, hsame⟩
      · rcases mem_append.mp hknown with hold | hnew
        · exact .inl hold
        · exact .inr ⟨_, mem_cons_self, by rw [mem_singleton.mp hnew]⟩
      · exact .inr ⟨entry, mem_cons_of_mem _ hentry, hsame⟩
    · exact .inl hnode

theorem visitPlanNodes_ontology (keep : Option (Finset EnterpriseId)) (parentId : Option EnterpriseId) (path : JsString)
    (index : Nat) (nodes : List EnterprisePlanNode) : (children : List WorkflowNodeDefinition) →
    ∀ node ∈ visitPlanNodes keep parentId nodes children,
      node ∈ nodes ∨ ∃ entry ∈ nodesBelow path index children, entry.2.ontology = node.ontology
  | [] => fun _ hnode => .inl hnode
  | child :: children => by
    intro node hnode
    unfold visitPlanNodes at hnode
    unfold nodesBelow
    rcases visitPlanNodes_ontology keep parentId path (index + 1) _ children node hnode with
      hfirst | ⟨entry, hentry, hsame⟩
    · rcases visitPlanNode_ontology keep parentId (itemPath path "children" index) nodes child node hfirst with
        hold | ⟨entry, hentry, hsame⟩
      · exact .inl hold
      · exact .inr ⟨entry, mem_append_left _ hentry, hsame⟩
    · exact .inr ⟨entry, mem_append_right _ hentry, hsame⟩

end

theorem mcpServers_nonblank_of_accepted [RunEnvironment] {params : RunPlanParams} {plan : EnterpriseRunPlan}
    (h : workflowTreeIssues params.tree = []) (hplan : buildEnterpriseRunPlan params = .ok plan)
    {node : EnterprisePlanNode} (hnode : node ∈ plan.nodes) {server : JsString}
    (hserver : server ∈ node.ontology.mcpServers.getD []) : trim server ≠ [] := by
  rw [(buildEnterpriseRunPlan_ok hplan).1] at hnode
  obtain ⟨entry, hentry, hsame⟩ :=
    (visitPlanNode_ontology _ none (js "root") [] params.tree.root node hnode).resolve_left (by simp)
  simp only [workflowTreeIssues, append_eq_nil_iff, flatMap_eq_nil_iff] at h
  have hissues := h.1.1.2 entry hentry
  simp only [nodeIssues, bindingIssues, append_eq_nil_iff, itemIssues, flatMap_eq_nil_iff] at hissues
  rw [← hsame] at hserver
  obtain ⟨index, hindex⟩ := mem_iff_getElem?.mp hserver
  have hblank := hissues.2.2 (server, index) (mem_zipIdx_iff_getElem?.mpr hindex)
  simpa using issueUnless_eq_nil hblank

end ClawWorks
