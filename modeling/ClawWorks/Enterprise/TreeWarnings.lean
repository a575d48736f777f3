import ClawWorks.Agents.ToolPolicy
import ClawWorks.Enterprise.OntologyActions

/-!
# Warnings about a workflow tree

An importer is told which declarations a step cannot use locally: actions on a step that may not write, and actions
that every call would fail on (`actionWarnings`). A warning refuses nothing.
-/

namespace ClawWorks

/-- A declaration a step cannot use, with the path to it. -/
structure WorkflowTreeWarning where
  path : JsString
  message : JsString

/-! ## The declarations of a step -/

mutual

/-- The nodes of a subtree in depth-first order. -/
def treeNodes : WorkflowNodeDefinition → List WorkflowNodeDefinition
  | ⟨id, title, ontology, children⟩ => ⟨id, title, ontology, children⟩ :: treesNodes children

/-- The same over several subtrees in order. -/
def treesNodes : List WorkflowNodeDefinition → List WorkflowNodeDefinition
  | [] => []
  | child :: children => treeNodes child ++ treesNodes children

end

def stepScope (tree : WorkflowTreeDefinition) (node : WorkflowNodeDefinition) (enforce : Bool) : NodeOntologyScope :=
  NodeOntologyScope.declare
    { treeId := tree.id
      nodeId := node.id
      enforce
      entities := []
      relationships := []
      actions := []
      treeRequiredProperties := collectTreeRequiredProperties tree } node.ontology

/-- The object types that some node of the tree declares. -/
def treeEntities (tree : WorkflowTreeDefinition) : List EnterpriseId :=
  (treeNodes tree.root).flatMap fun node => node.ontology.entities.map (·.id)

section Writes

variable [LowerCase]

/-- The literal opt-ins that let a step perform an ontology write. Set membership, not glob matching. -/
def WRITE_OPT_INS : List JsString :=
  [js "invoke_action", js "group:enterprise-write"]

def canUseTool (node : WorkflowNodeDefinition) (toolName : JsString) (isExplicit : Bool) : Bool :=
  let allow := node.ontology.allowedTools
  let deny := node.ontology.deniedTools
  if isExplicit && allow.isEmpty then false else isToolAllowedByPolicyName toolName { allow, deny }

def canWrite (node : WorkflowNodeDefinition) (isExplicit : Bool) : Bool :=
  let optedIn := node.ontology.allowedTools.any fun tool => toLowerCase (trim tool) ∈ WRITE_OPT_INS
  optedIn && canUseTool node (js "invoke_action") isExplicit

end Writes

def WorkflowTreeDefinition.isExplicit (tree : WorkflowTreeDefinition) : Bool :=
  tree.capabilityGrants = some .explicit

variable (scope : NodeOntologyScope)

def keyProperty (entityId : EnterpriseId) : Option OntologyProperty :=
  (scope.entities.get entityId).bind fun entity => entity.properties.find? (·.primaryKey)

def parametersById (action : OntologyAction) : JsMap JsString OntologyActionParameter :=
  JsMap.setAll [] (action.parameters.map fun parameter => (parameter.id, parameter))

/-- One end of a link effect: its parameter can carry the key of its object type. -/
def endResolves (parameters : JsMap JsString OntologyActionParameter)
    (entityId : EnterpriseId) (name : Option JsString) : Bool :=
  match keyProperty scope entityId with
  | none => false
  | some key =>
    match parameters.get (name.getD key.id) with
    | none => false
    | some parameter => key.type ≠ .boolean && expressionTypeOf parameter.type = expressionTypeOf key.type

def linkEffectResolves (effect : OntologyLinkEffect) (parameters : JsMap JsString OntologyActionParameter) : Bool :=
  match scope.relationships.get effect.relationship with
  | none => false
  | some relationship =>
    let fromParameterId := effect.fromParam.or ((keyProperty scope relationship.fromEntity).map (·.id))
    let toParameterId := effect.toParam.or ((keyProperty scope relationship.toEntity).map (·.id))
    if relationship.fromEntity = relationship.toEntity && fromParameterId = toParameterId then false
    else
      endResolves scope parameters relationship.fromEntity effect.fromParam &&
        endResolves scope parameters relationship.toEntity effect.toParam

/-! ## The warnings of an action -/

variable (node : WorkflowNodeDefinition) (action : OntologyAction)

def actionPath (field : String) : JsString :=
  js "node." ++ node.id ++ js ".ontology.actions." ++ action.id ++ js "." ++ js field

def actionOnStep : JsString :=
  js "action " ++ quoted action.id ++ js " on step " ++ quoted node.id

/-- Warn where a check fails. -/
def warnUnless (ok : Bool) (path message : JsString) : List WorkflowTreeWarning :=
  if ok then [] else [⟨path, message⟩]

def OntologyActionEffect.isOther : OntologyActionEffect → Bool
  | .object _ _ => false
  | .call _ => true
  | .graph _ _ _ _ => true

/-- An action that changes no object and has no other effect. -/
def readOnlyWarnings : List WorkflowTreeWarning :=
  let hasOtherEffect := action.effects.any (·.isOther)
  warnUnless (!(writeEffects action).isEmpty || hasOtherEffect) (actionPath node action "effects")
    (actionOnStep node action ++ js " declares no write effects, so invoke_action cannot change any object with it. " ++
      js "Give it a create/update/delete effect, or describe the work in the step's description instead of as an " ++
      js "action.")

def repeatedParameterWarnings : List WorkflowTreeWarning :=
  warnUnless ((parametersById action).length = action.parameters.length) (actionPath node action "parameters")
    (actionOnStep node action ++ js " declares a parameter id more than once, so every invocation fails validation. " ++
      js "Keep one declaration per parameter id.")

def linkWarnings (effect : OntologyLinkEffect) : List WorkflowTreeWarning :=
  warnUnless (linkEffectResolves scope effect (parametersById action)) (actionPath node action "effects")
    (actionOnStep node action ++ js " cannot resolve both ends of relationship " ++ quoted effect.relationship ++
      js " on this step. Keep the relationship and both keyed object types on the same step, and declare distinct " ++
      js "string/number endpoint parameters when needed.")

/-- A written object that no call can name, or only by a value of another type. -/
def identityWarnings (effect : ObjectWriteEffect) (primaryKey : OntologyProperty) : List WorkflowTreeWarning :=
  match (parametersById action).get primaryKey.id with
  | none =>
    [⟨actionPath node action "parameters",
      actionOnStep node action ++ js " " ++ effect.kind.text ++ js "s a " ++ quoted effect.entity ++
        js " but takes no " ++ quoted primaryKey.id ++ js " parameter, so no call can name the object it writes and " ++
        js "every invocation fails validation. Add \x7b id: " ++ primaryKey.id ++ js ", type: " ++
        primaryKey.type.text ++ js ", required: true \x7d."⟩]
  | some parameter =>
    warnUnless (primaryKey.type ≠ .boolean && expressionTypeOf parameter.type = expressionTypeOf primaryKey.type)
      (actionPath node action "parameters")
      (actionOnStep node action ++ js " cannot use parameter " ++ quoted primaryKey.id ++ js " (" ++
        parameter.type.text ++ js ") as the " ++ primaryKey.type.text ++ js " primaryKey of " ++
        quoted effect.entity ++ js ". Object identities must be strings or numbers and the parameter must match the " ++
        js "property type.")

/-- Each property that the tree requires of a created object is declared here and has a parameter of its type. -/
def canSupplyRequired (entityId : EnterpriseId) (entity : OntologyEntity) : Bool :=
  let properties : JsMap EnterpriseId OntologyValueType :=
    JsMap.setAll [] (entity.properties.map fun property => (property.id, property.type))
  ((scope.treeRequiredProperties.get entityId).getD []).all fun id =>
    match properties.get id, (parametersById action).get id with
    | some propertyType, some parameter => expressionTypeOf parameter.type = expressionTypeOf propertyType
    | _, _ => false

def requiredWarnings (effect : ObjectWriteEffect) (entity : OntologyEntity) : List WorkflowTreeWarning :=
  warnUnless (canSupplyRequired scope action effect.entity entity) (actionPath node action "parameters")
    (actionOnStep node action ++ js " cannot supply every required property of " ++ quoted effect.entity ++
      js " on this step. Declare compatible parameters for its required properties.")

/-- What a write effect is warned for. The target's key is resolved before the kind of the write matters. -/
def writeWarnings (declared : List EnterpriseId) (writable : Bool)
    (node : WorkflowNodeDefinition) (action : OntologyAction) (effect : ObjectWriteEffect) :
    List WorkflowTreeWarning :=
  let writes := actionOnStep node action ++ js " " ++ effect.kind.text ++ js "s a " ++ quoted effect.entity ++
    js ", but this step does not declare that object type "
  match scope.entities.get effect.entity with
  | none =>
    -- the schema reports undeclared types, and a step that may not write has been warned about
    if !writable || effect.entity ∉ declared then []
    else
      [⟨actionPath node action "effects",
        writes ++ js "locally, so every invocation fails. Declare " ++ quoted effect.entity ++
          js " on the same step as the write grant, or move the action to a step where the type is in scope."⟩]
  | some entity =>
    match entity.properties.find? (·.primaryKey) with
    | none =>
      [⟨actionPath node action "effects",
        writes ++ js "with a primaryKey, so every invocation fails. Give " ++ quoted effect.entity ++
          js " a primaryKey property on the same step as the write grant."⟩]
    | some primaryKey =>
      identityWarnings node action effect primaryKey ++
        (if effect.kind = .create then requiredWarnings scope node action effect entity else [])

def warningsIn (declared : List EnterpriseId) (writable : Bool)
    (node : WorkflowNodeDefinition) (action : OntologyAction) : List WorkflowTreeWarning :=
  readOnlyWarnings node action ++ repeatedParameterWarnings node action ++
    (linkEffects action).flatMap (linkWarnings scope node action) ++
    (writeEffects action).flatMap (writeWarnings scope declared writable node action)

section Tree

variable [LowerCase] (tree : WorkflowTreeDefinition)

def actionWarnings (node : WorkflowNodeDefinition) (action : OntologyAction) : List WorkflowTreeWarning :=
  warningsIn (stepScope tree node true) (treeEntities tree) (canWrite node tree.isExplicit) node action

def writeOptInWarnings (node : WorkflowNodeDefinition) (actions : List OntologyAction) : List WorkflowTreeWarning :=
  let localActions := actions.filter fun action =>
    !canWrite node tree.isExplicit && action.effects.any fun
      | .call _ => false
      | _ => true
  warnUnless localActions.isEmpty (js "node." ++ node.id ++ js ".ontology.actions")
    (js "step " ++ quoted node.id ++ js " declares " ++
      (if localActions.length = 1 then js "action" else js "actions") ++ js " " ++
      joinNames (localActions.map fun action => quoted action.id) ++
      js " but cannot perform an ontology write. Name invoke_action literally in this step's ontology.allowedTools " ++
      js "(invoke_* alone does not opt into writes), and do not deny it — or drop the declaration.")

/-- A knowledge foundation on a step that cannot search it. -/
def knowledgeWarnings (node : WorkflowNodeDefinition) : List WorkflowTreeWarning :=
  warnUnless (node.ontology.knowledgeFoundations.isEmpty || canUseTool node (js "knowledge_search") tree.isExplicit)
    (js "node." ++ node.id ++ js ".ontology.knowledgeFoundations")
    (js "step " ++ quoted node.id ++ js " attaches a knowledge foundation but cannot reach knowledge_search, so " ++
      js "nothing there can retrieve from it.")

/-- Every warning of a tree. The functions of a node are no part of its modelled binding: `functionWarnings` is what
they are warned for. -/
def collectWorkflowTreeWarnings (functionWarnings : WorkflowNodeDefinition → List WorkflowTreeWarning) :
    List WorkflowTreeWarning :=
  (treeNodes tree.root).flatMap fun node =>
    let actions := (stepScope tree node true).actions.map (·.2)
    writeOptInWarnings tree node actions ++ actions.flatMap (actionWarnings tree node) ++ functionWarnings node ++
      knowledgeWarnings tree node

end Tree

end ClawWorks
