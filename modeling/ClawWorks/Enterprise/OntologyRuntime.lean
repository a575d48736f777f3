import ClawWorks.Enterprise.Runtime
import ClawWorks.Js.Object

/-!
# The ontology a workflow step sees

Declarations are maps by id: a link type declared twice keeps the last declaration, an object type merges them
(`mergeEntity`). Required properties are gathered over the whole tree (`collectTreeRequiredProperties`).
-/

namespace ClawWorks

/-- The declarations of a step, and what its tree requires. -/
structure NodeOntologyScope where
  treeId : EnterpriseId
  nodeId : EnterpriseId
  /-- Enforce mode blocks; observe mode records and lets the call through. -/
  enforce : Bool
  entities : JsMap EnterpriseId OntologyEntity
  relationships : JsMap EnterpriseId OntologyRelationship
  actions : JsMap EnterpriseId OntologyAction
  treeRequiredProperties : JsMap EnterpriseId (List EnterpriseId)

/-! ## Merging declarations -/

/-- A later declaration of one property: it only adds to what the earlier one marked. -/
def mergeProperty (existing property : OntologyProperty) : OntologyProperty where
  id := property.id
  type := property.type
  primaryKey := existing.primaryKey || property.primaryKey
  required := existing.required || property.required

def mergeProperties (properties : JsMap EnterpriseId OntologyProperty) (extension : List OntologyProperty) :
    JsMap EnterpriseId OntologyProperty :=
  extension.foldl (fun properties property =>
    match properties.get property.id with
    | none => properties.set property.id property
    | some existing => properties.set property.id (mergeProperty existing property)) properties

/-- A later declaration of an object type extends the earlier one. -/
def mergeEntity (base : Option OntologyEntity) (extension : OntologyEntity) : OntologyEntity :=
  match base with
  | none => extension
  | some base =>
    let properties : JsMap EnterpriseId OntologyProperty :=
      base.properties.foldl (fun properties property => properties.set property.id property) []
    { id := extension.id, properties := (mergeProperties properties extension.properties).map (·.2) }

/-- Add the declarations of one node. -/
def NodeOntologyScope.declare (scope : NodeOntologyScope) (ontology : OntologyBinding) : NodeOntologyScope :=
  { scope with
    entities := ontology.entities.foldl (fun entities entity =>
      entities.set entity.id (mergeEntity (entities.get entity.id) entity)) scope.entities
    relationships := ontology.relationships.foldl (fun relationships relationship =>
      relationships.set relationship.id relationship) scope.relationships
    actions := ontology.actions.foldl (fun actions action => actions.set action.id action) scope.actions }

mutual

def requiredPropertiesOf (required : JsMap EnterpriseId (List EnterpriseId)) :
    WorkflowNodeDefinition → JsMap EnterpriseId (List EnterpriseId)
  | ⟨_, _, ontology, children⟩ =>
    requiredPropertiesOfAll (ontology.entities.foldl (fun required entity =>
        (entity.properties.filter (·.required)).foldl (fun required property =>
          required.set entity.id ((required.get entity.id).getD [] ++ [property.id])) required) required) children

/-- The same over several subtrees in order. -/
def requiredPropertiesOfAll (required : JsMap EnterpriseId (List EnterpriseId)) :
    List WorkflowNodeDefinition → JsMap EnterpriseId (List EnterpriseId)
  | [] => required
  | child :: children => requiredPropertiesOfAll (requiredPropertiesOf required child) children

end

def collectTreeRequiredProperties (tree : WorkflowTreeDefinition) : JsMap EnterpriseId (List EnterpriseId) :=
  requiredPropertiesOf [] tree.root

def nodeOntologyScope (run : EnterpriseActiveRun) (node : EnterprisePlanNode) : NodeOntologyScope :=
  NodeOntologyScope.declare
    { treeId := run.plan.treeId
      nodeId := node.nodeId
      enforce := run.plan.mode = .enforce
      entities := []
      relationships := []
      actions := []
      treeRequiredProperties := run.treeRequiredProperties } node.ontology

def resolveActiveOntologyScope (runs : ActiveRuns) (runId : JsString) : Option NodeOntologyScope :=
  (runs runId).bind fun run =>
    (findPlanNode run.plan run.plan.activeNodeId).map (nodeOntologyScope run)

/-- The object type's identifying property, when it declares one. -/
def primaryKeyOf (entity : OntologyEntity) : Option EnterpriseId :=
  (entity.properties.find? (·.primaryKey)).map (·.id)

end ClawWorks
