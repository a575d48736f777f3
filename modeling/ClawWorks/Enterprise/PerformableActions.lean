import ClawWorks.Enterprise.ObjectShape
import ClawWorks.Enterprise.TreeWarnings

/-!
# Which actions can be performed

Whether some call of an action succeeds on some store is decided by its step's declarations alone (`Performable`): its
effects can be named, every parameter that has to be passed (`MustPass`) fits the properties it would be written to,
no object type is written twice, and no link ends at what is deleted.
-/

namespace ClawWorks

open JsMap List

open Option (bind_eq_some_iff map_eq_some_iff mem_unique)

/-! ## What the effects need of the declarations -/

/-- One end of a link effect: its object type, the key of the type, and the parameter that names the object. -/
structure LinkEnd where
  entity : EnterpriseId
  key : OntologyProperty
  name : JsString

variable (scope : NodeOntologyScope)

def linkEnd (entityId : EnterpriseId) (parameter : Option JsString) : Option LinkEnd :=
  (keyProperty scope entityId).map fun key => ⟨entityId, key, parameter.getD key.id⟩

def linkEnds (effect : OntologyLinkEffect) : Option (LinkEnd × LinkEnd) :=
  (scope.relationships.get effect.relationship).bind fun relationship =>
    (linkEnd scope relationship.fromEntity effect.fromParam).bind fun source =>
      (linkEnd scope relationship.toEntity effect.toParam).map fun target => (source, target)

/-- The parameter under a name carries values of the key's type. -/
structure Identifies (action : OntologyAction) (name : JsString) (key : OntologyProperty) : Prop where
  type : key.type ≠ .boolean
  parameter : ∃ parameter ∈ action.parameters, parameter.id = name ∧
    expressionTypeOf parameter.type = expressionTypeOf key.type

variable (action : OntologyAction)

/-- Both ends of a link effect can be named, two of one type by different parameters. -/
def Linkable (effect : OntologyLinkEffect) : Prop :=
  ∃ ends, linkEnds scope effect = some ends ∧ Identifies action ends.1.name ends.1.key ∧
    Identifies action ends.2.name ends.2.key ∧ (ends.1.entity = ends.2.entity → ends.1.name ≠ ends.2.name)

def Writable (effect : ObjectWriteEffect) : Prop :=
  ∃ key, keyProperty scope effect.entity = some key ∧ Identifies action key.id key

/-- An action has effects, every one can be named, and no parameter is declared twice. -/
structure Addressable (scope : NodeOntologyScope) (action : OntologyAction) : Prop where
  parameters : (action.parameters.map (·.id)).Nodup
  effects : writeEffects action ≠ [] ∨ linkEffects action ≠ []
  writes : ∀ effect ∈ writeEffects action, Writable scope action effect
  links : ∀ effect ∈ linkEffects action, Linkable scope action effect

/-- The properties of an object type that a scope's tree requires. -/
def requiredIds (entityId : EnterpriseId) : List EnterpriseId :=
  (scope.treeRequiredProperties.get entityId).getD []

/-- The step declares the property on the object type, and the action a parameter of its type. -/
def Supplied (entityId id : EnterpriseId) : Prop :=
  ∃ entity, scope.entities.get entityId = some entity ∧ ∃ property ∈ entity.properties, property.id = id ∧
    ∃ parameter ∈ action.parameters, parameter.id = id ∧
      expressionTypeOf parameter.type = expressionTypeOf property.type

def SuppliesRequired : Prop :=
  ∀ effect ∈ writeEffects action, effect.kind = .create →
    ∀ id ∈ requiredIds scope effect.entity, Supplied scope action effect.entity id

/-- A parameter that no call can leave out: it is required, it names an object, or a created object lacks it. A property
named like a member that every object inherits is read even where no argument is passed for it. -/
inductive MustPass (scope : NodeOntologyScope) (action : OntologyAction) (name : JsString) : Prop
  | required (parameter : OntologyActionParameter) : parameter ∈ action.parameters → parameter.id = name →
      parameter.required = true → MustPass scope action name
  | key (effect : ObjectWriteEffect) (key : OntologyProperty) : effect ∈ writeEffects action →
      keyProperty scope effect.entity = some key → key.id = name → MustPass scope action name
  | linkFrom (effect : OntologyLinkEffect) (ends : LinkEnd × LinkEnd) : effect ∈ linkEffects action →
      linkEnds scope effect = some ends → ends.1.name = name → MustPass scope action name
  | linkTo (effect : OntologyLinkEffect) (ends : LinkEnd × LinkEnd) : effect ∈ linkEffects action →
      linkEnds scope effect = some ends → ends.2.name = name → MustPass scope action name
  | property (effect : ObjectWriteEffect) (entity : OntologyEntity) : effect ∈ writeEffects action →
      effect.kind ≠ .delete → scope.entities.get effect.entity = some entity →
      name ∈ entity.properties.map (·.id) → name ∈ requiredIds scope effect.entity →
      (effect.kind = .create ∨ (inheritedMember? name).isSome) → MustPass scope action name

/-- Every parameter that has to be passed has the type of the properties it would be written to, and a property named
like an inherited member has a parameter. -/
def PropertiesFit : Prop :=
  ∀ effect ∈ writeEffects action, effect.kind ≠ .delete → ∀ entity, scope.entities.get effect.entity = some entity →
    ∀ property ∈ entity.properties,
      (∀ parameter ∈ action.parameters, parameter.id = property.id → MustPass scope action parameter.id →
        expressionTypeOf parameter.type = expressionTypeOf property.type) ∧
      ((inheritedMember? property.id).isSome → property.id ∈ action.parameters.map (·.id))

/-- The declarations allow a call that succeeds. -/
structure Performable (scope : NodeOntologyScope) (action : OntologyAction) : Prop
    extends Addressable scope action where
  /-- A required property that the step does not declare is missed only where no object inherits its name. -/
  supplied : ∀ effect ∈ writeEffects action, effect.kind = .create → ∀ id ∈ requiredIds scope effect.entity,
    Supplied scope action effect.entity id ∨
      ((inheritedMember? id).isSome ∧ ∀ entity, scope.entities.get effect.entity = some entity →
        id ∉ entity.properties.map (·.id))
  fit : PropertiesFit scope action
  once : ((writeEffects action).map (·.entity)).Nodup
  kept : ∀ link ∈ linkEffects action, link.kind = .link → ∀ ends, linkEnds scope link = some ends →
    ∀ effect ∈ writeEffects action, effect.kind = .delete →
      (ends.1.entity = effect.entity → ends.1.name ≠ ends.1.key.id) ∧
        (ends.2.entity = effect.entity → ends.2.name ≠ ends.2.key.id)

variable {entityId : EnterpriseId} {key : OntologyProperty}

theorem keyProperty_eq_some_iff {scope : NodeOntologyScope} : keyProperty scope entityId = some key ↔
      ∃ entity, scope.entities.get entityId = some entity ∧ entity.properties.find? (·.primaryKey) = some key :=
  bind_eq_some_iff

variable {parameter : Option JsString} {source : LinkEnd}

theorem linkEnd_eq_some_iff {scope : NodeOntologyScope} : linkEnd scope entityId parameter = some source ↔
      source.entity = entityId ∧ keyProperty scope entityId = some source.key ∧
        source.name = parameter.getD source.key.id := by
  obtain ⟨entity, key, name⟩ := source
  simp only [linkEnd, map_eq_some_iff, LinkEnd.mk.injEq]
  constructor
  · rintro ⟨key', hkey, rfl, rfl, rfl⟩
    exact ⟨rfl, hkey, rfl⟩
  · rintro ⟨rfl, hkey, rfl⟩
    exact ⟨key, hkey, rfl, rfl, rfl⟩

theorem linkEnds_eq_some_iff {scope : NodeOntologyScope} {effect : OntologyLinkEffect} {ends : LinkEnd × LinkEnd} :
    linkEnds scope effect = some ends ↔
      ∃ relationship, scope.relationships.get effect.relationship = some relationship ∧
        linkEnd scope relationship.fromEntity effect.fromParam = some ends.1 ∧
        linkEnd scope relationship.toEntity effect.toParam = some ends.2 := by
  obtain ⟨source, target⟩ := ends
  simp only [linkEnds, bind_eq_some_iff, map_eq_some_iff, Prod.mk.injEq]
  constructor
  · rintro ⟨relationship, hrelationship, source', hsource, target', htarget, rfl, rfl⟩
    exact ⟨relationship, hrelationship, hsource, htarget⟩
  · rintro ⟨relationship, hrelationship, hsource, htarget⟩
    exact ⟨relationship, hrelationship, source, hsource, target, htarget, rfl, rfl⟩

def TypedOnce : Prop :=
  ∀ entityId entity, scope.entities.get entityId = some entity →
    ∀ a ∈ entity.properties, ∀ b ∈ entity.properties, a.id = b.id → a.type = b.type

theorem ScopeOf.typedOnce {tree : WorkflowTreeDefinition} (haccepted : workflowTreeIssues tree = [])
    {scope : NodeOntologyScope} (h : ScopeOf tree scope) : TypedOnce scope := by
  intro entityId entity hentity a ha b hb hid
  obtain ⟨sourceA, hsourceA, hidA, htypeA⟩ := (h.declaredAs hentity ha).type
  obtain ⟨sourceB, hsourceB, hidB, htypeB⟩ := (h.declaredAs hentity hb).type
  rw [← htypeA, ← htypeB]
  exact Declares.type_eq haccepted hsourceA hsourceB (hidA.trans (hid.trans hidB.symm))

variable {ν : Type} [JsNumber ν]

variable {value : OntologyValue ν}

omit [JsNumber ν] in
theorem identityError_eq_none_iff {scope : NodeOntologyScope} (honce : TypedOnce scope) {action : OntologyAction}
    {entity : OntologyEntity} (hentity : scope.entities.get entityId = some entity)
    (hkey : entity.properties.find? (·.primaryKey) = some key) {parameterId : JsString} :
    identityError action entity entityId key.id parameterId value = none ↔
      (∀ s, value = .string s → validateStringIdentity parameterId s = none) ∧
        ontologyValueMatchesType value key.type := by
  have hmem := mem_of_find?_eq_some hkey
  obtain ⟨property, hproperty⟩ := Option.isSome_iff_exists.mp
    (find?_isSome.mpr ⟨key, hmem, by simp⟩ : (entity.properties.find? (·.id = key.id)).isSome)
  have htype : property.type = key.type :=
    honce entityId entity hentity property (mem_of_find?_eq_some hproperty) key hmem
      (by simpa using find?_some hproperty)
  unfold identityError
  simp only [hproperty, htype]
  cases value with
  | string s =>
    simp only [OntologyValue.string.injEq, forall_eq']
    cases validateStringIdentity parameterId s <;> simp
  | number | boolean | null | structured => simp

variable {type : OntologyValueType}

omit [JsNumber ν] in
theorem typeOf_of_matches (hnull : value.isNull = false)
    (h : ontologyValueMatchesType value type) : value.typeOf = expressionTypeOf type := by
  cases value with
  | null => cases hnull
  | string | number | boolean | structured => simpa [ontologyValueMatchesType] using h

variable {objectId : JsString}

theorem isNull_of_identity (h : value.identity? = some objectId) : value.isNull = false := by
  cases value with
  | null => cases h
  | string | number | boolean | structured => rfl

theorem ne_boolean_of_identity (h : value.identity? = some objectId)
    (htype : ontologyValueMatchesType value type) : type ≠ .boolean := by
  rintro rfl
  cases value with
  | string s => exact (by decide : js "string" ≠ js "boolean") (of_decide_eq_true htype)
  | number n => exact (by decide : js "number" ≠ js "boolean") (of_decide_eq_true htype)
  | boolean | null | structured => cases h

def Names (args : OntologyRecord ν) (name : JsString) (key : OntologyProperty) (objectId : JsString) : Prop :=
  ∃ value, get args name = some value ∧ value.identity? = some objectId ∧
    ontologyValueMatchesType value key.type = true

variable {args : OntologyRecord ν}

theorem namedObjectId_of_linkEnd {scope : NodeOntologyScope} (h : linkEnd scope entityId parameter = some source) :
    namedObjectId scope args entityId parameter = (get args source.name).bind OntologyValue.identity? := by
  obtain ⟨-, hkey, hname⟩ := linkEnd_eq_some_iff.mp h
  obtain ⟨entity, hentity, hfind⟩ := keyProperty_eq_some_iff.mp hkey
  simp [namedObjectId, hentity, primaryKeyOf, hfind, hname]

/-! ## What a planned call shows of its arguments -/

/-- Arguments an action takes: declared ones, of the declared types, none that is required missing. -/
structure ValidArguments (action : OntologyAction) (args : OntologyRecord ν) : Prop where
  nodup : (action.parameters.map (·.id)).Nodup
  declared : ∀ name value, JsMap.get args name = some value → name ∈ action.parameters.map (·.id)
  typed : ∀ parameter ∈ action.parameters, ∀ value, JsMap.get args parameter.id = some value →
    value.isNull = false → ontologyValueMatchesType value parameter.type = true
  required : ∀ parameter ∈ action.parameters, parameter.required = true →
    ∃ value, get args parameter.id = some value ∧ value.isNull = false

omit [JsNumber ν] in
theorem validArguments_of_none {action : OntologyAction}
    (h : validateParameters action args = none) : ValidArguments action args := by
  unfold validateParameters declaredArgumentsError at h
  simp only at h
  split at h
  · rename_i hnodup
    split at h
    · cases h
    rename_i hdeclared
    have hparameters := findSome?_eq_none_iff.mp h
    refine ⟨hnodup, fun name value hvalue => ?_, fun parameter hparameter value hvalue hnull => ?_,
      fun parameter hparameter hrequired => ?_⟩
    · have hname : name ∈ args.map (·.1) := mem_map_of_mem (JsMap.mem_of_get hvalue)
      simpa using find?_eq_none.mp hdeclared name hname
    · have hcheck := hparameters parameter hparameter
      simp only [argumentError, PlainObject.read_eq_own_iff.mpr hvalue, isUnset, hnull] at hcheck
      by_contra hmatch
      simp [hmatch] at hcheck
    · have hcheck := hparameters parameter hparameter
      simp only [argumentError, hrequired, if_true] at hcheck
      cases hread : args.read parameter.id with
      | own value =>
        refine ⟨value, PlainObject.read_eq_own_iff.mp hread, ?_⟩
        by_contra hnull
        rw [Bool.not_eq_false] at hnull
        simp [hread, isUnset, hnull] at hcheck
      | inherited member | undefined => simp [hread, isUnset] at hcheck
  · cases h

omit [JsNumber ν] in
theorem ValidArguments.type_eq {action : OntologyAction} (h : ValidArguments action args)
    {parameter : OntologyActionParameter} (hparameter : parameter ∈ action.parameters)
    (hvalue : JsMap.get args parameter.id = some value) (hnull : value.isNull = false)
    (hmatch : ontologyValueMatchesType value type) :
    expressionTypeOf parameter.type = expressionTypeOf type := by
  rw [← typeOf_of_matches hnull (h.typed parameter hparameter value hvalue hnull), ← typeOf_of_matches hnull hmatch]

variable {name : JsString}

theorem ValidArguments.identifies {action : OntologyAction} (h : ValidArguments action args)
    (hnames : Names args name key objectId) :
    Identifies action name key := by
  obtain ⟨value, hvalue, hid, hmatch⟩ := hnames
  have hnull := isNull_of_identity hid
  obtain ⟨parameter, hparameter, rfl⟩ := mem_map.mp (h.declared name value hvalue)
  exact ⟨ne_boolean_of_identity hid hmatch, parameter, hparameter, rfl, h.type_eq hparameter hvalue hnull hmatch⟩

section Planned

variable {database : ObjectStore ν} {scope : NodeOntologyScope} (honce : TypedOnce scope) {action : OntologyAction}
  {args : OntologyRecord ν}

variable {consumed consumed' : List JsString} {effects : List ObjectWriteEffect}

theorem planWrites_each {targets targets' : JsMap JsString (PlannedWrite ν)}
    (h : planWrites database scope action args effects targets consumed = .ok (targets', consumed')) :
    ∀ effect ∈ effects, ∃ consumed write consumed',
      planEffect database scope action args effect consumed = .ok (write, consumed') := by
  induction effects generalizing targets consumed with
  | nil => exact fun _ heffect => absurd heffect not_mem_nil
  | cons first effects ih =>
    unfold planWrites at h
    simp only at h
    split at h
    · cases h
    next write consumed₁ hplan =>
    split at h
    · cases h
    intro effect heffect
    rcases mem_cons.mp heffect with rfl | hrest
    · exact ⟨consumed, write, consumed₁, hplan⟩
    · exact ih h effect hrest

theorem planLinks_each {effects : List OntologyLinkEffect} {links links' : List PlannedLink}
    (h : planLinks scope action args effects links consumed = .ok (links', consumed')) :
    ∀ effect ∈ effects, ∃ consumed link consumed',
      planLinkEffect scope action args effect consumed = .ok (link, consumed') := by
  induction effects generalizing links consumed with
  | nil => exact fun _ heffect => absurd heffect not_mem_nil
  | cons first effects ih =>
    unfold planLinks at h
    split at h
    · cases h
    next link consumed₁ hplan =>
    intro effect heffect
    rcases mem_cons.mp heffect with rfl | hrest
    · exact ⟨consumed, link, consumed₁, hplan⟩
    · exact ih h effect hrest

include honce

variable {effect : ObjectWriteEffect} {write : PlannedWrite ν}

theorem planEffect_names (h : planEffect database scope action args effect consumed = .ok (write, consumed')) :
    ∃ key objectId, keyProperty scope effect.entity = some key ∧ Names args key.id key objectId := by
  obtain ⟨entity, primaryKey, ⟨hentity, hkey, identity, hread, hid, hidentity⟩, -⟩ := planEffect_cases h
  obtain ⟨key, hfind, rfl⟩ := map_eq_some_iff.mp hkey
  exact ⟨key, _, keyProperty_eq_some_iff.mpr ⟨entity, hentity, hfind⟩, identity, hread, hid,
    ((identityError_eq_none_iff honce hentity hfind).mp hidentity).2⟩

theorem resolveEndpoint_names {relationship runs entityId parameterId objectId : JsString} {taken : List JsString}
    (h : resolveEndpoint scope action args relationship runs entityId parameter taken = .ok (parameterId, objectId)) :
    ∃ source, linkEnd scope entityId parameter = some source ∧ source.name = parameterId ∧ parameterId ∉ taken ∧
      Names args source.name source.key objectId := by
  obtain ⟨entity, primaryKey, ⟨hentity, hkey, value, hread, hid, hidentity⟩, rfl, hfresh⟩ := resolveEndpoint_cases h
  obtain ⟨key, hfind, rfl⟩ := map_eq_some_iff.mp hkey
  have hend : linkEnd scope entityId parameter = some ⟨entityId, key, parameter.getD key.id⟩ :=
    linkEnd_eq_some_iff.mpr ⟨rfl, keyProperty_eq_some_iff.mpr ⟨entity, hentity, hfind⟩, rfl⟩
  exact ⟨_, hend, rfl, hfresh, value, hread, hid, ((identityError_eq_none_iff honce hentity hfind).mp hidentity).2⟩

theorem planLinkEffect_names {effect : OntologyLinkEffect} {link : PlannedLink}
    (h : planLinkEffect scope action args effect consumed = .ok (link, consumed')) :
    ∃ ends, linkEnds scope effect = some ends ∧ (∃ objectId, Names args ends.1.name ends.1.key objectId) ∧
      (∃ objectId, Names args ends.2.name ends.2.key objectId) ∧
      (ends.1.entity = ends.2.entity → ends.1.name ≠ ends.2.name) := by
  unfold planLinkEffect at h
  simp only at h
  split at h
  · cases h
  next relationship hrelationship =>
  split at h
  · cases h
  next fromParameter fromObjectId hfrom =>
  split at h
  · cases h
  next toParameter toObjectId hto =>
  obtain ⟨source, hsource, rfl, -, hsourceNames⟩ := resolveEndpoint_names honce hfrom
  obtain ⟨target, htarget, rfl, htaken, htargetNames⟩ := resolveEndpoint_names honce hto
  refine ⟨(source, target), linkEnds_eq_some_iff.mpr ⟨relationship, hrelationship, hsource, htarget⟩,
    ⟨_, hsourceNames⟩, ⟨_, htargetNames⟩, fun hsame hname => htaken ?_⟩
  obtain ⟨hsourceEntity, -⟩ := linkEnd_eq_some_iff.mp hsource
  obtain ⟨htargetEntity, -⟩ := linkEnd_eq_some_iff.mp htarget
  have hentities : relationship.fromEntity = relationship.toEntity := by
    rw [← hsourceEntity, ← htargetEntity]
    exact hsame
  rw [if_pos hentities]
  exact mem_singleton.mpr hname.symm

omit honce [JsNumber ν] in
theorem read_of_get_none {record : OntologyRecord ν} (h : get record name = none) :
    record.read name = (inheritedMember? name).elim .undefined .inherited := by
  unfold PlainObject.read
  rw [h]
  cases inheritedMember? name <;> rfl

omit honce in
theorem passed_of_property
    (h : planEffect database scope action args effect consumed = .ok (write, consumed')) (hkind : effect.kind ≠ .delete)
    {entity : OntologyEntity} (hentity : scope.entities.get effect.entity = some entity)
    (hproperty : name ∈ entity.properties.map (·.id)) (hrequired : name ∈ requiredIds scope effect.entity)
    (hseen : effect.kind = .create ∨ (inheritedMember? name).isSome) :
    ∃ value, get args name = some value ∧ value.isNull = false := by
  obtain ⟨entity', hchecked⟩ := planEffect_checked h hkind
  obtain rfl : entity' = entity := mem_unique hchecked.declared hentity
  obtain ⟨entity'', hentity'', hvalues⟩ := (planEffect_ok h).properties hkind
  obtain rfl : entity'' = entity' := mem_unique hentity'' hentity
  have hset := hchecked.set name hrequired
  have hget := hvalues name
  rw [evaluatedProperty, if_pos hproperty] at hget
  obtain ⟨property, hmem, rfl⟩ := mem_map.mp hproperty
  cases hargs : get args property.id with
  | some value =>
    rw [hargs, Option.some_or] at hget
    rw [PlainObject.read_eq_own_iff.mpr hget] at hset
    exact ⟨value, rfl, hset⟩
  | none =>
    exfalso
    cases hmember : inheritedMember? property.id with
    | some member =>
      exact hchecked.uninherited property hmem member (by rw [read_of_get_none hargs, hmember]; rfl)
    | none =>
      rcases hseen with hcreate | hinherited
      · have hnone := (planEffect_ok h).existing.mp hcreate
        rw [hargs, hnone] at hget
        rw [read_of_get_none hget, hmember] at hset
        cases hset
      · rw [hmember] at hinherited
        cases hinherited

variable {plan : ActionPlan ν}

theorem passed_of_planned (h : planOntologyAction database scope action args = .ok plan)
    (hmust : MustPass scope action name) :
    ∃ value, get args name = some value ∧ value.isNull = false := by
  obtain ⟨hvalid, consumed, hwrites, hlinks, -⟩ := planOntologyAction_ok h
  have hnamed : ∀ {name key objectId}, Names args name key objectId →
      ∃ value, get args name = some value ∧ value.isNull = false := by
    rintro _ _ _ ⟨value, hvalue, hid, -⟩
    exact ⟨value, hvalue, isNull_of_identity hid⟩
  cases hmust with
  | required parameter hparameter hid hrequired =>
    subst hid
    exact (validArguments_of_none hvalid).required parameter hparameter hrequired
  | key effect key heffect hkey hid =>
    obtain ⟨_, _, _, hplan⟩ := planWrites_each hwrites effect heffect
    obtain ⟨key', objectId, hkey', hnames⟩ := planEffect_names honce hplan
    obtain rfl : key = key' := mem_unique hkey hkey'
    subst hid
    exact hnamed hnames
  | linkFrom effect ends heffect hends hname =>
    obtain ⟨_, _, _, hplan⟩ := planLinks_each hlinks effect heffect
    obtain ⟨ends', hends', ⟨_, hnames⟩, -⟩ := planLinkEffect_names honce hplan
    obtain rfl : ends = ends' := mem_unique hends hends'
    subst hname
    exact hnamed hnames
  | linkTo effect ends heffect hends hname =>
    obtain ⟨_, _, _, hplan⟩ := planLinks_each hlinks effect heffect
    obtain ⟨ends', hends', -, ⟨_, hnames⟩, -⟩ := planLinkEffect_names honce hplan
    obtain rfl : ends = ends' := mem_unique hends hends'
    subst hname
    exact hnamed hnames
  | property effect entity heffect hkind hentity hproperty hrequired hseen =>
    obtain ⟨_, _, _, hplan⟩ := planWrites_each hwrites effect heffect
    exact passed_of_property hplan hkind hentity hproperty hrequired hseen

omit honce in
theorem kept_of_planned (h : planOntologyAction database scope action args = .ok plan)
    {link : PlannedLink} (hlink : link ∈ plan.links) (hkind : link.kind = .link)
    (heffect : effect ∈ writeEffects action) (hdelete : effect.kind = .delete) :
    effectObject scope args effect ≠ some link.edge.fromObject ∧
      effectObject scope args effect ≠ some link.edge.toObject := by
  obtain ⟨-, consumed, hwrites, -, hends⟩ := planOntologyAction_ok h
  obtain ⟨hwell, writes, hall, hplanned⟩ := planWrites_ok ⟨by simp, by simp⟩ hwrites
  obtain ⟨write, hwrite, hfrom⟩ := hplanned.exists_right heffect
  have hmem : write ∈ plan.targets.map (·.2) := by
    rw [hall]
    exact mem_append_right _ hwrite
  obtain ⟨entry, hentry, rfl⟩ := mem_map.mp hmem
  have htarget : plan.targets.get (targetOf entry.2.object) = some entry.2 := by
    have hnamed := hwell.named entry hentry
    exact get_of_mem hwell.distinct (hnamed ▸ hentry)
  have hdeleted : entry.2.kind = .delete := hfrom.kind.trans hdelete
  have hlinkEnds := findSome?_eq_none_iff.mp hends link hlink
  simp only [hkind, Option.or_eq_none_iff] at hlinkEnds
  have hfree : ∀ object, endpointError database action plan.targets object = none → entry.2.object ≠ object := by
    rintro object hnone rfl
    simp [endpointError, htarget, hdeleted] at hnone
  rw [hfrom.object]
  exact ⟨fun heq => hfree _ hlinkEnds.1 (Option.some.inj heq), fun heq => hfree _ hlinkEnds.2 (Option.some.inj heq)⟩

omit honce in
theorem map_effectObject {writes : List (PlannedWrite ν)}
    (h : List.Forall₂ (PlannedFrom database scope args) effects writes) : (effects.map (·.entity)).map (fun entity =>
      (namedObjectId scope args entity none).map fun objectId => (⟨scope.treeId, entity, objectId⟩ : ObjectKey)) =
      (writes.map (·.object)).map some := by
  induction h with
  | nil => rfl
  | cons hfrom _ ih =>
    simp only [map_cons, ih]
    exact congrArg (· :: _) hfrom.object

omit honce in
theorem effectObject_of_linkEnd {entityId : EnterpriseId} (hsource : linkEnd scope entityId parameter = some source)
    (hentity : source.entity = effect.entity) (hname : source.name = source.key.id) {objectId : JsString}
    (hid : namedObjectId scope args entityId parameter = some objectId) :
    effectObject scope args effect = some ⟨scope.treeId, entityId, objectId⟩ := by
  obtain ⟨rfl, hkey, -⟩ := linkEnd_eq_some_iff.mp hsource
  have hown : linkEnd scope effect.entity none = some ⟨effect.entity, source.key, source.key.id⟩ :=
    linkEnd_eq_some_iff.mpr ⟨rfl, hentity ▸ hkey, rfl⟩
  rw [namedObjectId_of_linkEnd hsource, hname] at hid
  rw [effectObject, namedObjectId_of_linkEnd hown, hid, hentity]
  rfl

theorem performable_of_planned (h : planOntologyAction database scope action args = .ok plan) :
    Performable scope action := by
  obtain ⟨hvalid, consumed, hwrites, hlinks, -⟩ := planOntologyAction_ok h
  have hargs := validArguments_of_none hvalid
  refine { parameters := hargs.nodup, effects := ?_, writes := fun effect heffect => ?_,
           links := fun effect heffect => ?_, supplied := fun effect heffect hcreate id hid => ?_,
           fit := fun effect heffect hkind entity hentity property hproperty => ⟨?_, fun hinherited => ?_⟩, once := ?_,
           kept := fun link hlink hkind ends hends effect heffect hdelete => ?_ }
  · by_contra hnone
    simp only [not_or, not_not] at hnone
    simp [planOntologyAction, hvalid, hnone.1, hnone.2] at h
  · obtain ⟨_, _, _, hplan⟩ := planWrites_each hwrites effect heffect
    obtain ⟨key, objectId, hkey, hnames⟩ := planEffect_names honce hplan
    exact ⟨key, hkey, hargs.identifies hnames⟩
  · obtain ⟨_, _, _, hplan⟩ := planLinks_each hlinks effect heffect
    obtain ⟨ends, hends, ⟨_, hfrom⟩, ⟨_, hto⟩, hdistinct⟩ := planLinkEffect_names honce hplan
    exact ⟨ends, hends, hargs.identifies hfrom, hargs.identifies hto, hdistinct⟩
  · obtain ⟨_, _, _, hplan⟩ := planWrites_each hwrites effect heffect
    have hkind : effect.kind ≠ .delete := by rw [hcreate]; exact nofun
    obtain ⟨entity, hchecked⟩ := planEffect_checked hplan hkind
    by_cases hlocal : id ∈ entity.properties.map (·.id)
    · obtain ⟨value, hvalue, hnull⟩ := passed_of_property hplan hkind hchecked.declared hlocal hid (Or.inl hcreate)
      obtain ⟨property, hproperty, rfl⟩ := mem_map.mp hlocal
      obtain ⟨parameter, hparameter, hname⟩ := mem_map.mp (hargs.declared _ value hvalue)
      rw [← hname] at hvalue
      exact Or.inl ⟨entity, hchecked.declared, property, hproperty, rfl, parameter, hparameter, hname,
        hargs.type_eq hparameter hvalue hnull (hchecked.typed property hproperty value (hname ▸ hvalue))⟩
    · right
      refine ⟨?_, fun entity' hentity' => mem_unique hchecked.declared hentity' ▸ hlocal⟩
      obtain ⟨entity', hentity', hvalues⟩ := (planEffect_ok hplan).properties hkind
      obtain rfl : entity' = entity := mem_unique hentity' hchecked.declared
      have hget := hvalues id
      rw [evaluatedProperty, if_neg hlocal, (planEffect_ok hplan).existing.mp hcreate] at hget
      have hset := hchecked.set id hid
      rw [read_of_get_none hget] at hset
      by_contra hnone
      rw [Option.not_isSome_iff_eq_none] at hnone
      rw [hnone] at hset
      cases hset
  · obtain ⟨_, _, _, hplan⟩ := planWrites_each hwrites effect heffect
    obtain ⟨entity', hchecked⟩ := planEffect_checked hplan hkind
    obtain rfl : entity' = entity := mem_unique hchecked.declared hentity
    intro parameter hparameter hname hmust
    obtain ⟨value, hvalue, hnull⟩ := passed_of_planned honce h hmust
    exact hargs.type_eq hparameter hvalue hnull (hchecked.typed property hproperty value (hname ▸ hvalue))
  · obtain ⟨_, _, _, hplan⟩ := planWrites_each hwrites effect heffect
    obtain ⟨entity', hchecked⟩ := planEffect_checked hplan hkind
    obtain rfl : entity' = entity := mem_unique hchecked.declared hentity
    obtain ⟨member, hmember⟩ := Option.isSome_iff_exists.mp hinherited
    cases hget : JsMap.get args property.id with
    | some value => exact hargs.declared _ value hget
    | none =>
        exact absurd (by rw [read_of_get_none hget, hmember]; rfl) (hchecked.uninherited property hproperty member)
  · obtain ⟨hwell, writes, hall, hplanned⟩ := planWrites_ok ⟨by simp, by simp⟩ hwrites
    have hobjects : plan.targets.map (·.2.object) = (plan.targets.map (·.2)).map (·.object) := by
      rw [map_map]
      rfl
    have hnodup := hwell.nodup
    rw [hobjects, hall, map_nil, nil_append] at hnodup
    have heffects := hnodup.map (Option.some_injective _)
    rw [← map_effectObject hplanned] at heffects
    exact heffects.of_map _
  · obtain ⟨planned, hall, hforall⟩ := planLinks_ok hlinks
    obtain ⟨plannedLink, hplannedLink, hsameKind, hedge⟩ := hforall.exists_right hlink
    rw [nil_append] at hall
    have hkept := kept_of_planned h (hall ▸ hplannedLink) (hsameKind.trans hkind) heffect hdelete
    obtain ⟨relationship, hrelationship, hsource, htarget⟩ := linkEnds_eq_some_iff.mp hends
    simp only [effectEdge, hrelationship, Option.bind_some, bind_eq_some_iff, map_eq_some_iff] at hedge
    obtain ⟨fromObjectId, hfrom, toObjectId, hto, hedge⟩ := hedge
    rw [← hedge] at hkept
    exact ⟨fun hentity hname => hkept.1 (effectObject_of_linkEnd hsource hentity hname hfrom),
      fun hentity hname => hkept.2 (effectObject_of_linkEnd htarget hentity hname hto)⟩

end Planned

end ClawWorks
