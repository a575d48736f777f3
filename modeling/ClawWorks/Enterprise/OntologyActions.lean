import ClawWorks.Enterprise.ActionParameters
import ClawWorks.Enterprise.OntologyRuntime

/-!
# Running an ontology action

An action's effects are resolved and checked against the store before any of them writes (`planEffect`,
`planLinkEffect`, `linkEndpointError`), then applied in order: the objects first, the edges after them.
-/

namespace ClawWorks

/-! ## Planned writes -/

inductive ObjectWriteKind
  | create
  | update
  | delete
  deriving DecidableEq, Repr

/-- A `read` is no write. -/
def OntologyObjectEffectKind.write? : OntologyObjectEffectKind → Option ObjectWriteKind
  | .read => none
  | .create => some .create
  | .update => some .update
  | .delete => some .delete

/-- A write effect, as an error words it. -/
def ObjectWriteKind.text : ObjectWriteKind → JsString
  | .create => js "create"
  | .update => js "update"
  | .delete => js "delete"

structure ObjectWriteEffect where
  entity : EnterpriseId
  kind : ObjectWriteKind

/-- An effect that relates two objects, with the parameters that name its ends. -/
structure OntologyLinkEffect where
  kind : OntologyLinkEffectKind
  relationship : EnterpriseId
  fromParam : Option JsString := none
  toParam : Option JsString := none
  deriving DecidableEq

/-- The object-write effects of an action, selected positively: a `read` must not survive into a write. -/
def writeEffects (action : OntologyAction) : List ObjectWriteEffect :=
  action.effects.filterMap fun
    | .object entity kind => kind.write?.map fun kind => ⟨entity, kind⟩
    | _ => none

def linkEffects (action : OntologyAction) : List OntologyLinkEffect :=
  action.effects.filterMap fun
    | .graph kind relationship fromParam toParam => some ⟨kind, relationship, fromParam, toParam⟩
    | _ => none

/-- One write an action performed, as the audit trail records it. -/
inductive OntologyWrite
  | object (entity : EnterpriseId) (objectId : JsString) (kind : ObjectWriteKind)
  | edge (relationship : EnterpriseId) (fromId toId : JsString) (kind : OntologyLinkEffectKind)
  deriving DecidableEq

/-- A single resolved, fully-checked edge write. -/
structure PlannedLink where
  kind : OntologyLinkEffectKind
  edge : OntologyEdge

/-- A single resolved, fully-checked write: the property set to persist, absent for a delete. -/
structure PlannedWrite (ν : Type) where
  object : ObjectKey
  kind : ObjectWriteKind
  properties : OntologyRecord ν := []

structure OntologyActionOutcome (ν : Type) where
  writes : List OntologyWrite
  unmappedParameters : OntologyRecord ν
  deriving DecidableEq

variable {ν : Type}

/-- Check the call against the action's declared parameters. -/
def validateParameters (action : OntologyAction) (args : OntologyRecord ν) : Option JsString :=
  declaredArgumentsError action args fun parameter =>
    argumentError args parameter
      (js "action " ++ quoted action.id ++ js " requires the parameter " ++ quoted parameter.id)
      (fun got => js "parameter " ++ quoted parameter.id ++ js " of action " ++ quoted action.id ++
        js " is declared " ++ quoted parameter.type.text ++ js " but got " ++ got)

/-- Keep every object identity in the exact form the lookup tools can address. -/
def validateStringIdentity (parameterId identity : JsString) : Option JsString :=
  if identity ≠ trim identity then
    some (quoted parameterId ++
      js " must not have leading or trailing whitespace: the ontology tools would trim it and lose the object")
  else if identity = [] then
    some (quoted parameterId ++ js " must not be blank: a blank identity cannot be addressed or traversed")
  else none

def OntologyValue.identity? [JsNumber ν] : OntologyValue ν → Option JsString
  | .string s => some s
  | .number n => some (JsNumber.toJsString n)
  | .boolean _ => none
  | .null => none
  | .structured => none

def identityError (action : OntologyAction) (entity : OntologyEntity) (entityId primaryKey parameterId : JsString)
    (value : OntologyValue ν) : Option JsString :=
  let formError :=
    match value with
    | .string s => validateStringIdentity parameterId s
    | _ => none
  match formError with
  | some error => some error
  | none =>
    match entity.properties.find? (·.id = primaryKey) with
    | none => none
    | some property =>
      if ontologyValueMatchesType value property.type then none
      else some (js "property " ++ quoted primaryKey ++ js " of " ++ quoted entityId ++ js " is declared " ++
        quoted property.type.text ++ js ", but action " ++ quoted action.id ++ js " passed " ++ value.typeOf)

/-- Write each argument named like a property to that property; `consumed` collects the names used. -/
def assignProperties (action : OntologyAction) (entityId : EnterpriseId) (args : OntologyRecord ν) :
    List OntologyProperty → OntologyRecord ν → List JsString → Except JsString (OntologyRecord ν × List JsString)
  | [], properties, consumed => .ok (properties, consumed)
  | property :: rest, properties, consumed =>
    let mismatch (got : JsString) :=
      js "property " ++ quoted property.id ++ js " of " ++ quoted entityId ++ js " is declared " ++
        quoted property.type.text ++ js ", but action " ++ quoted action.id ++ js " would write " ++ got
    match args.read property.id with
    | .undefined => assignProperties action entityId args rest properties consumed
    | .inherited member => .error (mismatch member.typeOf)
    | .own value =>
      if ontologyValueMatchesType value property.type = false then .error (mismatch value.typeOrNull)
      else if value.isNull && property.required then
        .error (js "property " ++ quoted property.id ++ js " of " ++ quoted entityId ++
          js " is required, so action " ++ quoted action.id ++ js " cannot clear it")
      else
        assignProperties action entityId args rest (properties.set property.id value) (consumed ++ [property.id])

/-- The required properties a property set leaves unset, of this step's declaration and of the whole tree's. -/
def missingProperties (scope : NodeOntologyScope) (entity : OntologyEntity) (entityId : EnterpriseId)
    (properties : OntologyRecord ν) : List EnterpriseId :=
  let requiredIds := distinct
    ((entity.properties.filter (·.required)).map (·.id) ++ (scope.treeRequiredProperties.get entityId).getD [])
  toSorted (requiredIds.filter fun id => isUnset (properties.read id))

def planEffect [JsNumber ν] (database : ObjectStore ν) (scope : NodeOntologyScope) (action : OntologyAction)
    (args : OntologyRecord ν) (effect : ObjectWriteEffect) (consumed : List JsString) :
    Except JsString (PlannedWrite ν × List JsString) :=
  let entityId := effect.entity
  match scope.entities.get entityId with
  | none =>
    .error (js "action " ++ quoted action.id ++ js " writes object type " ++ quoted entityId ++
      js ", which this workflow step does not declare")
  | some entity =>
  match primaryKeyOf entity with
  | none =>
    .error (js "object type " ++ quoted entityId ++
      js " declares no primaryKey, so an action cannot address an instance of it")
  | some primaryKey =>
  let unidentified :=
    js "action " ++ quoted action.id ++ js " must pass " ++ quoted primaryKey ++ js " to identify the " ++
      quoted entityId ++ js " object it " ++ effect.kind.text ++ js "s"
  match args.read primaryKey with
  | .undefined => .error unidentified
  | .inherited _ => .error unidentified
  | .own identity =>
  match identity.identity? with
  | none => .error unidentified
  | some objectId =>
  match identityError action entity entityId primaryKey primaryKey identity with
  | some error => .error error
  | none =>
  let object : ObjectKey := ⟨scope.treeId, entityId, objectId⟩
  let existing := getOntologyObjectIn database object
  match effect.kind, existing with
  | .delete, none => .error (js "no " ++ quoted entityId ++ js " object with id " ++ quoted objectId)
  | .delete, some _ => .ok (⟨object, .delete, []⟩, consumed ++ [primaryKey])
  | .update, none => .error (js "no " ++ quoted entityId ++ js " object with id " ++ quoted objectId ++ js " to update")
  | .create, some _ => .error (js "a " ++ quoted entityId ++ js " object with id " ++ quoted objectId ++
      js " already exists")
  | kind, existing =>
    let before := existing.elim [] (·.properties)
    match assignProperties action entityId args entity.properties before (consumed ++ [primaryKey]) with
    | .error error => .error error
    | .ok (assigned, consumed) =>
      let properties := assigned.set primaryKey identity
      let missing := missingProperties scope entity entityId properties
      if missing.isEmpty then .ok (⟨object, kind, properties⟩, consumed)
      else
        .error (match kind with
          | .create => js "creating a " ++ quoted entityId ++ js " needs its required properties: " ++
              joinNames missing
          | _ => js "updating this " ++ quoted entityId ++ js " would leave its required properties unset: " ++
              joinNames missing)

/-- Resolve one end of an edge: the parameter it is read from and the object's id. -/
def resolveEndpoint [JsNumber ν] (scope : NodeOntologyScope) (action : OntologyAction) (args : OntologyRecord ν)
    (relationship : EnterpriseId) (runs : JsString) (entityId : EnterpriseId) (parameter : Option JsString)
    (endpointParameters : List JsString) : Except JsString (JsString × JsString) :=
  match scope.entities.get entityId with
  | none =>
    .error (js "relationship " ++ quoted relationship ++ js " " ++ runs ++ js " object type " ++ quoted entityId ++
      js ", which this workflow step does not declare")
  | some entity =>
  match primaryKeyOf entity with
  | none =>
    .error (js "object type " ++ quoted entityId ++
      js " declares no primaryKey, so an action cannot address an instance of it")
  | some primaryKey =>
  let parameterId := parameter.getD primaryKey
  if parameterId ∈ endpointParameters then
    .error (js "action " ++ quoted action.id ++
      js " must use distinct endpoint parameters for same-type relationship " ++ quoted relationship ++
      js "; set \"from\" or \"to\" to another declared parameter")
  else
  let unusable (got : JsString) :=
    js "action " ++ quoted action.id ++ js " passed " ++ got ++ js " as " ++ quoted parameterId ++
      js ", which cannot identify an object"
  match args.read parameterId with
  | .undefined =>
    .error (js "action " ++ quoted action.id ++ js " must pass " ++ quoted parameterId ++ js " to identify the " ++
      quoted entityId ++ js " it relates")
  | .inherited member => .error (unusable member.typeOf)
  | .own value =>
  match value.identity? with
  | none => .error (unusable value.typeOrNull)
  | some objectId =>
  match identityError action entity entityId primaryKey parameterId value with
  | some error => .error error
  | none => .ok (parameterId, objectId)

/-- Resolve one graph effect into a checked edge: each end is read from the parameter the effect names for it, else
from the one named after that end's primary key. -/
def planLinkEffect [JsNumber ν] (scope : NodeOntologyScope) (action : OntologyAction) (args : OntologyRecord ν)
    (effect : OntologyLinkEffect) (consumed : List JsString) : Except JsString (PlannedLink × List JsString) :=
  match scope.relationships.get effect.relationship with
  | none =>
    .error (js "action " ++ quoted action.id ++ js " relates over " ++ quoted effect.relationship ++
      js ", which this workflow step does not declare")
  | some relationship =>
  match resolveEndpoint scope action args effect.relationship (js "starts at") relationship.fromEntity
    effect.fromParam [] with
  | .error error => .error error
  | .ok (fromParameter, fromObjectId) =>
  -- only a relationship between objects of one type could read both ends from one parameter
  let taken := if relationship.fromEntity = relationship.toEntity then [fromParameter] else []
  match resolveEndpoint scope action args effect.relationship (js "ends at") relationship.toEntity
    effect.toParam taken with
  | .error error => .error error
  | .ok (toParameter, toObjectId) =>
    .ok (⟨effect.kind, ⟨scope.treeId, effect.relationship, relationship.fromEntity, fromObjectId, relationship.toEntity,
      toObjectId⟩⟩, consumed ++ [fromParameter, toParameter])

/-! ## Invoking an action -/

def targetOf (object : ObjectKey) : JsString :=
  object.entity ++ js "/" ++ object.objectId

def planWrites [JsNumber ν] (database : ObjectStore ν) (scope : NodeOntologyScope) (action : OntologyAction)
    (args : OntologyRecord ν) :
    List ObjectWriteEffect → JsMap JsString (PlannedWrite ν) → List JsString →
      Except JsString (JsMap JsString (PlannedWrite ν) × List JsString)
  | [], targets, consumed => .ok (targets, consumed)
  | effect :: effects, targets, consumed =>
    match planEffect database scope action args effect consumed with
    | .error error => .error error
    | .ok (write, consumed) =>
      let target := targetOf write.object
      if (targets.get target).isSome then
        .error (js "action " ++ quoted action.id ++ js " declares more than one effect on " ++ quoted target ++
          js "; effects are not ordered, so one object may be written once")
      else planWrites database scope action args effects (targets.set target write) consumed

def planLinks [JsNumber ν] (scope : NodeOntologyScope) (action : OntologyAction) (args : OntologyRecord ν) :
    List OntologyLinkEffect → List PlannedLink → List JsString → Except JsString (List PlannedLink × List JsString)
  | [], links, consumed => .ok (links, consumed)
  | effect :: effects, links, consumed =>
    match planLinkEffect scope action args effect consumed with
    | .error error => .error error
    | .ok (link, consumed) => planLinks scope action args effects (links ++ [link]) consumed

/-- Why an object cannot be linked: it must exist after this action. -/
def endpointError (database : ObjectStore ν) (action : OntologyAction) (targets : JsMap JsString (PlannedWrite ν))
    (object : ObjectKey) : Option JsString :=
  match targets.get (targetOf object) with
  | some write =>
    if write.kind = .delete then
      some (js "action " ++ quoted action.id ++ js " cannot link deleted " ++ quoted object.entity ++ js " object " ++
        quoted object.objectId)
    else none
  | none =>
    if (getOntologyObjectIn database object).isNone then
      some (js "action " ++ quoted action.id ++ js " cannot link missing " ++ quoted object.entity ++ js " object " ++
        quoted object.objectId)
    else none

/-- The first link that would point at nothing. An unlink may still clean up a dangling edge. -/
def linkEndpointError (database : ObjectStore ν) (action : OntologyAction)
    (targets : JsMap JsString (PlannedWrite ν)) (links : List PlannedLink) : Option JsString :=
  links.findSome? fun link =>
    match link.kind with
    | .unlink => none
    | .link =>
      (endpointError database action targets link.edge.fromObject).or
        (endpointError database action targets link.edge.toObject)

/-- Every effect of an action, resolved and checked. -/
structure ActionPlan (ν : Type) where
  targets : JsMap JsString (PlannedWrite ν)
  links : List PlannedLink
  consumed : List JsString

/-- The planned object writes, in the order of the effects. -/
def ActionPlan.writes (plan : ActionPlan ν) : List (PlannedWrite ν) :=
  plan.targets.map (·.2)

/-- Why an action without write effects cannot run here. -/
def readOnlyError (action : OntologyAction) : JsString :=
  match outwardTools action with
  | [] => js "action " ++ quoted action.id ++ js " declares no write effects, so it cannot change any object"
  | tools =>
    js "action " ++ quoted action.id ++ js " happens outside this workflow: call " ++
      List.intercalate (js " or ") (tools.map quoted) ++ js " directly with the action's parameters"

/-- Resolve and check every effect before any of them writes. -/
def planOntologyAction [JsNumber ν] (database : ObjectStore ν) (scope : NodeOntologyScope) (action : OntologyAction)
    (args : OntologyRecord ν) : Except JsString (ActionPlan ν) :=
  match validateParameters action args with
  | some error => .error error
  | none =>
  if (writeEffects action).isEmpty && (linkEffects action).isEmpty then .error (readOnlyError action)
  else
  match planWrites database scope action args (writeEffects action) [] [] with
  | .error error => .error error
  | .ok (targets, consumed) =>
  match planLinks scope action args (linkEffects action) [] consumed with
  | .error error => .error error
  | .ok (links, consumed) =>
  match linkEndpointError database action targets links with
  | some error => .error error
  | none => .ok ⟨targets, links, consumed⟩

def applyWrite (now : Nat) (database : ObjectStore ν) (write : PlannedWrite ν) : ObjectStore ν :=
  match write.kind with
  | .delete => deleteOntologyObject database write.object
  | _ => upsertOntologyObject database write.object write.properties now

/-- Perform one edge write. -/
def applyLink (now : Nat) (database : ObjectStore ν) (link : PlannedLink) : ObjectStore ν :=
  match link.kind with
  | .unlink => deleteOntologyLink database link.edge.key
  | .link => upsertOntologyLink database link.edge now

def ActionPlan.apply (plan : ActionPlan ν) (database : ObjectStore ν) (now : Nat) : ObjectStore ν :=
  plan.links.foldl (applyLink now) (plan.writes.foldl (applyWrite now) database)

/-- Apply one action's declared effects to the object store. Every failure is a result, and leaves the store alone. -/
def invokeOntologyAction [JsNumber ν] (database : ObjectStore ν) (scope : NodeOntologyScope) (action : OntologyAction)
    (args : OntologyRecord ν) (now : Nat) : ObjectStore ν × Except JsString (OntologyActionOutcome ν) :=
  match planOntologyAction database scope action args with
  | .error error => (database, .error error)
  | .ok plan =>
    (plan.apply database now, .ok {
      writes := plan.writes.map (fun write => .object write.object.entity write.object.objectId write.kind) ++
        plan.links.map fun link =>
          .edge link.edge.relationship link.edge.fromObjectId link.edge.toObjectId link.kind
      unmappedParameters := args.filter (·.1 ∉ plan.consumed) })

theorem invokeOntologyAction_cases [JsNumber ν] (database : ObjectStore ν) (scope : NodeOntologyScope)
    (action : OntologyAction) (args : OntologyRecord ν) (now : Nat) :
    (∃ error, invokeOntologyAction database scope action args now = (database, .error error)) ∨
      ∃ plan outcome, planOntologyAction database scope action args = .ok plan ∧
        invokeOntologyAction database scope action args now = (plan.apply database now, .ok outcome) := by
  unfold invokeOntologyAction
  cases h : planOntologyAction database scope action args with
  | error error => exact Or.inl ⟨error, rfl⟩
  | ok plan => exact Or.inr ⟨plan, _, rfl, rfl⟩

theorem planOntologyAction_ok [JsNumber ν] {database : ObjectStore ν} {scope : NodeOntologyScope}
    {action : OntologyAction} {args : OntologyRecord ν} {plan : ActionPlan ν}
    (h : planOntologyAction database scope action args = .ok plan) :
    validateParameters action args = none ∧
      ∃ consumed, planWrites database scope action args (writeEffects action) [] [] = .ok (plan.targets, consumed) ∧
        planLinks scope action args (linkEffects action) [] consumed = .ok (plan.links, plan.consumed) ∧
        linkEndpointError database action plan.targets plan.links = none := by
  unfold planOntologyAction at h
  split at h
  · cases h
  rename_i hvalid
  split at h
  · cases h
  split at h
  · cases h
  rename_i hwrites
  split at h
  · cases h
  rename_i hlinks
  split at h
  · cases h
  · rename_i hends
    cases h
    exact ⟨hvalid, _, hwrites, hlinks, hends⟩

end ClawWorks
