import ClawWorks.Enterprise.PerformableActions

/-!
# A call of a performable action

A performable action has a call that succeeds. Every parameter that has to be passed gets a value of its own
(`chosenArgs`), and the store has the objects that the effects do not create (`storedObjects`).
-/

namespace ClawWorks

open JsMap Option List PlainObject JsNumber

variable {ν : Type} [JsNumber ν]

/-! ## Values for the parameters -/

variable (number : JsString → ν) (parameter : OntologyActionParameter)

/-- A value of a parameter's type: the name of the parameter, a number of its own, or `true`. -/
def chosenValue : OntologyValue ν :=
  match parameter.type with
  | .number => .number (number parameter.id)
  | .boolean => .boolean true
  | .string | .date | .id => .string parameter.id

/-- The object it names. -/
def chosenId : JsString :=
  match parameter.type with
  | .number => JsNumber.toJsString (number parameter.id)
  | .string | .boolean | .date | .id => parameter.id

omit [JsNumber ν] in
theorem isNull_chosenValue : (chosenValue number parameter).isNull = false := by
  unfold chosenValue
  cases parameter.type <;> rfl

variable {parameter : OntologyActionParameter}

omit [JsNumber ν] in
theorem matches_chosenValue {type : OntologyValueType} (h : expressionTypeOf parameter.type = expressionTypeOf type) :
    ontologyValueMatchesType (chosenValue number parameter) type := by
  unfold chosenValue
  cases hparameter : parameter.type <;> rw [hparameter] at h <;> exact decide_eq_true h

theorem identity_chosenValue {key : OntologyProperty}
    (hkey : key.type ≠ .boolean) (h : expressionTypeOf parameter.type = expressionTypeOf key.type) :
    (chosenValue number parameter).identity? = some (chosenId number parameter) := by
  have hboolean : parameter.type ≠ .boolean := by
    intro hparameter
    rw [hparameter] at h
    revert hkey h
    cases key.type <;> decide
  unfold chosenValue chosenId
  cases hparameter : parameter.type with
  | boolean => exact absurd hparameter hboolean
  | string | number | date | id => rfl

theorem chosenId_injective {number : JsString → ν} {a b : OntologyActionParameter}
    (hnumber : toJsString (number a.id) = toJsString (number b.id) → a.id = b.id)
    (htype : expressionTypeOf a.type = expressionTypeOf b.type) (h : chosenId number a = chosenId number b) :
    a.id = b.id := by
  revert htype h
  unfold chosenId
  cases a.type <;> cases b.type <;> simp only
  all_goals first
    | exact fun _ h => h
    | exact fun _ h => hnumber h
    | exact fun htype => absurd htype (by decide)

/-- There are as many numbers, told apart as text. -/
def EnoughNumbers (ν : Type) [JsNumber ν] (count : Nat) : Prop :=
  ∃ number : Nat → ν, ∀ i < count, ∀ j < count,
    JsNumber.toJsString (number i) = JsNumber.toJsString (number j) → i = j

/-! ## A call that is planned -/

section Call

variable (scope : NodeOntologyScope) (action : OntologyAction) (number : JsString → ν)

open Classical in
/-- What is passed under a name: a value where one has to be passed, `null` where leaving the argument out would be read
as an inherited member, and nothing else. -/
noncomputable def chosenArgument (name : JsString) : Option (OntologyValue ν) :=
  (action.parameters.find? (·.id = name)).bind fun parameter =>
    if MustPass scope action name then some (chosenValue number parameter)
    else if (inheritedMember? name).isSome then some .null else none

/-- The arguments of the call. -/
noncomputable def chosenArgs : OntologyRecord ν :=
  (action.parameters.map (·.id)).filterMap fun name =>
    (chosenArgument scope action number name).map fun value => (name, value)

noncomputable def createdObjects : List ObjectKey :=
  ((writeEffects action).filter (·.kind = .create)).filterMap (effectObject scope (chosenArgs scope action number))

/-- The objects that have to exist before it. -/
noncomputable def storedObjects : List ObjectKey :=
  (((writeEffects action).filter (·.kind ≠ .create)).filterMap (effectObject scope (chosenArgs scope action number)) ++
    ((linkEffects action).filterMap (effectEdge scope (chosenArgs scope action number))).flatMap fun edge =>
      [edge.fromObject, edge.toObject]).filter (· ∉ createdObjects scope action number)

def storedRow (object : ObjectKey) : ObjectRow ν where
  key := object
  properties := (requiredIds scope object.entity).filterMap fun id =>
    (some (.boolean true)).map fun value => (id, value)
  createdAt := 0
  updatedAt := 0

variable {action}

omit [JsNumber ν] in
theorem get_chosenArgs (hnodup : (action.parameters.map (·.id)).Nodup) (hparameter : parameter ∈ action.parameters) :
    (MustPass scope action parameter.id →
      get (chosenArgs scope action number) parameter.id = some (chosenValue number parameter)) ∧
      (¬ MustPass scope action parameter.id → get (chosenArgs scope action number) parameter.id =
        if (inheritedMember? parameter.id).isSome then some .null else none) := by
  have hmem : parameter.id ∈ action.parameters.map (·.id) := mem_map_of_mem hparameter
  have hfind : action.parameters.find? (·.id = parameter.id) = some parameter := by
    obtain ⟨other, hother⟩ := isSome_iff_exists.mp (find?_isSome.mpr ⟨parameter, hparameter, by simp⟩ :
        (action.parameters.find? (·.id = parameter.id)).isSome)
    have hid : other.id = parameter.id := by simpa using find?_some hother
    rw [hother, inj_on_of_nodup_map hnodup (mem_of_find?_eq_some hother) hparameter hid]
  have hget : get (chosenArgs scope action number) parameter.id =
      chosenArgument scope action number parameter.id := by
    rw [chosenArgs, get_filterMap, if_pos hmem]
  rw [hget, chosenArgument, hfind, bind_some]
  exact ⟨fun hmust => if_pos hmust, fun hmust => if_neg hmust⟩

omit [JsNumber ν] in
theorem get_chosenArgs_eq_none {name : JsString} (h : name ∉ action.parameters.map (·.id)) :
    get (chosenArgs scope action number) name = none := by
  rw [chosenArgs, get_filterMap, if_neg h]

omit [JsNumber ν] in
theorem validateParameters_chosenArgs (hnodup : (action.parameters.map (·.id)).Nodup) :
    validateParameters action (chosenArgs scope action number) = none := by
  have hdeclared : ((chosenArgs scope action number).map (·.1)).find? (· ∉ action.parameters.map (·.id)) = none := by
    rw [find?_eq_none]
    intro name hname
    obtain ⟨entry, hentry, rfl⟩ := mem_map.mp hname
    obtain ⟨name, hmem, hvalue⟩ := mem_filterMap.mp hentry
    obtain ⟨value, -, rfl⟩ := map_eq_some_iff.mp hvalue
    simpa using hmem
  unfold validateParameters declaredArgumentsError
  simp only [if_pos hnodup, hdeclared]
  rw [findSome?_eq_none_iff]
  intro parameter hparameter
  obtain ⟨hpassed, hother⟩ := get_chosenArgs scope number hnodup hparameter
  by_cases hmust : MustPass scope action parameter.id
  · simp [argumentError, read_eq_own_iff.mpr (hpassed hmust), isUnset, isNull_chosenValue,
      matches_chosenValue number rfl]
  · have hoptional : parameter.required = false := by
      by_contra hrequired
      exact hmust (.required parameter hparameter rfl (by simpa using hrequired))
    have hget := hother hmust
    cases hmember : inheritedMember? parameter.id with
    | some member =>
      rw [hmember, isSome_some, if_pos rfl] at hget
      simp [argumentError, read_eq_own_iff.mpr hget, isUnset, OntologyValue.isNull, hoptional]
    | none =>
      rw [hmember, isSome_none, if_neg (by simp)] at hget
      simp [argumentError, read_of_get_none hget, hmember, isUnset, hoptional]

variable {scope}

theorem chosenArgs_identify (hnodup : (action.parameters.map (·.id)).Nodup)
    (hids : ∀ parameter ∈ action.parameters, isEnterpriseId parameter.id) (honce : TypedOnce scope)
    {name : JsString} {key : OntologyProperty} (hidentifies : Identifies action name key)
    (hmust : MustPass scope action name) :
    ∃ parameter ∈ action.parameters, parameter.id = name ∧ expressionTypeOf parameter.type = expressionTypeOf key.type ∧
      get (chosenArgs scope action number) name = some (chosenValue number parameter) ∧
      (chosenValue number parameter).identity? = some (chosenId number parameter) ∧
      ∀ entityId entity, scope.entities.get entityId = some entity → entity.properties.find? (·.primaryKey) = some key →
        identityError action entity entityId key.id name (chosenValue number parameter) = none := by
  obtain ⟨htype, parameter, hparameter, rfl, hspelled⟩ := hidentifies
  refine ⟨parameter, hparameter, rfl, hspelled, (get_chosenArgs scope number hnodup hparameter).1 hmust,
    identity_chosenValue number htype hspelled, fun entityId entity hentity hkey => ?_⟩
  refine (identityError_eq_none_iff honce hentity hkey).mpr ⟨fun s hs => ?_, matches_chosenValue number hspelled⟩
  have hid : s = parameter.id := by
    unfold chosenValue at hs
    cases hparameterType : parameter.type <;> simp [hparameterType] at hs <;> exact hs.symm
  have haccepted := hids parameter hparameter
  rw [hid, validateStringIdentity, if_neg (by rw [trim_of_isEnterpriseId haccepted]; simp),
    if_neg (truthy_of_isEnterpriseId haccepted)]

variable {args : OntologyRecord ν}

omit [JsNumber ν] in
theorem assignProperties_of_readable {entityId : EnterpriseId}
    {properties : List OntologyProperty} {before : OntologyRecord ν} {consumed : List JsString}
    (h : ∀ property ∈ properties, args.read property.id = .undefined ∨ ∃ value,
      get args property.id = some value ∧ ontologyValueMatchesType value property.type ∧
        (value.isNull && property.required) = false) :
    ∃ result, assignProperties action entityId args properties before consumed = .ok result := by
  induction properties generalizing before consumed with
  | nil => exact ⟨_, rfl⟩
  | cons property properties ih =>
    have hrest := fun before consumed => @ih before consumed fun p hp => h p (mem_cons_of_mem _ hp)
    unfold assignProperties
    rcases h property mem_cons_self with hread | ⟨value, hvalue, hmatch, hnull⟩
    · rw [hread]
      exact hrest before consumed
    · rw [read_eq_own_iff.mpr hvalue]
      simp only [hmatch, hnull, Bool.true_eq_false, Bool.false_eq_true, if_false]
      exact hrest _ _

theorem planWrites_of_each {tree : WorkflowTreeDefinition} (haccepted : workflowTreeIssues tree = [])
    (hscope : ScopeOf tree scope) {database : ObjectStore ν} {effects : List ObjectWriteEffect}
    (hplan : ∀ effect ∈ effects, ∀ consumed, ∃ result,
      planEffect database scope action args effect consumed = .ok result)
    (honce : (effects.map (·.entity)).Nodup) (targets : JsMap JsString (PlannedWrite ν))
    (htargets : ∀ entry ∈ targets, ∃ object, InScope scope object ∧ entry.1 = targetOf object ∧
      object.entity ∉ effects.map (·.entity)) (consumed : List JsString) :
    ∃ result, planWrites database scope action args effects targets consumed = .ok result := by
  induction effects generalizing targets consumed with
  | nil => exact ⟨_, rfl⟩
  | cons effect effects ih =>
    obtain ⟨⟨write, consumed₁⟩, hwrite⟩ := hplan effect mem_cons_self consumed
    have hobject := (planEffect_ok hwrite).object
    have hin := effectObject_inScope hobject
    have hentity : write.object.entity = effect.entity := by
      obtain ⟨_, -, heq⟩ := map_eq_some_iff.mp hobject
      rw [← heq]
    obtain ⟨hnew, hrest⟩ := nodup_cons.mp honce
    have hfresh : targets.get (targetOf write.object) = none := by
      by_contra hfound
      obtain ⟨other, hother⟩ := ne_none_iff_exists'.mp hfound
      obtain ⟨object, hobjectIn, hname, habsent⟩ := htargets _ (mem_of_get hother)
      have hsame := InScope.eq_of_targetOf haccepted hscope hin hobjectIn hname
      exact habsent (by rw [← hsame, hentity]; exact mem_cons_self)
    unfold planWrites
    simp only [hwrite, hfresh, isSome_none, Bool.false_eq_true, if_false]
    refine ih (fun e he => hplan e (mem_cons_of_mem _ he)) hrest _ (fun entry hentry => ?_) consumed₁
    rcases mem_set hentry with rfl | hold
    · exact ⟨write.object, hin, rfl, hentity ▸ hnew⟩
    · obtain ⟨object, hobjectIn, hname, habsent⟩ := htargets entry hold
      exact ⟨object, hobjectIn, hname, fun hmem => habsent (mem_cons_of_mem _ hmem)⟩

theorem planLinks_of_each {effects : List OntologyLinkEffect}
    (hplan : ∀ effect ∈ effects, ∀ consumed, ∃ result, planLinkEffect scope action args effect consumed = .ok result)
    (links : List PlannedLink) (consumed : List JsString) :
    ∃ result, planLinks scope action args effects links consumed = .ok result := by
  induction effects generalizing links consumed with
  | nil => exact ⟨_, rfl⟩
  | cons effect effects ih =>
    obtain ⟨⟨link, consumed₁⟩, hlink⟩ := hplan effect mem_cons_self consumed
    unfold planLinks
    simp only [hlink]
    exact ih (fun e he => hplan e (mem_cons_of_mem _ he)) _ _

/-- A step's own required properties are among those of its tree. -/
def RequiresDeclared (scope : NodeOntologyScope) : Prop :=
  ∀ entityId entity, scope.entities.get entityId = some entity → ∀ property ∈ entity.properties,
    property.required = true → property.id ∈ requiredIds scope entityId

section Performable

variable {tree : WorkflowTreeDefinition} (haccepted : workflowTreeIssues tree = []) (hscope : ScopeOf tree scope)
  (hrequired : RequiresDeclared scope)
  (hids : ∀ parameter ∈ action.parameters, isEnterpriseId parameter.id = true) (hperformable : Performable scope action)
  {database : ObjectStore ν} (hdatabase : ∀ object, database.objects.get? object =
    if object ∈ storedObjects scope action number then some (storedRow scope object) else none)

include hperformable

variable {object : ObjectKey}

theorem eq_of_effectObject {a b : ObjectWriteEffect} (ha : a ∈ writeEffects action) (hb : b ∈ writeEffects action)
    {args : OntologyRecord ν} (hobjectA : effectObject scope args a = some object)
    (hobjectB : effectObject scope args b = some object) : a = b := by
  obtain ⟨_, -, rfl⟩ := map_eq_some_iff.mp hobjectA
  obtain ⟨_, -, hobject⟩ := map_eq_some_iff.mp hobjectB
  have hentity : a.entity = b.entity := (congrArg ObjectKey.entity hobject).symm
  exact inj_on_of_nodup_map hperformable.once ha hb hentity

variable {effect : ObjectWriteEffect}

include hdatabase in
theorem get?_effectObject (heffect : effect ∈ writeEffects action)
    (hobject : effectObject scope (chosenArgs scope action number) effect = some object) :
    database.objects.get? object = if effect.kind = .create then none else some (storedRow scope object) := by
  rw [hdatabase]
  split_ifs with hstored hcreate hcreate
  · have hcreated : object ∈ createdObjects scope action number :=
      mem_filterMap.mpr ⟨effect, mem_filter.mpr ⟨heffect, by simpa using hcreate⟩, hobject⟩
    exact absurd hcreated (by simpa using (mem_filter.mp hstored).2)
  · rfl
  · rfl
  · refine absurd (mem_filter.mpr ⟨mem_append_left _ (mem_filterMap.mpr
      ⟨effect, mem_filter.mpr ⟨heffect, by simpa using hcreate⟩, hobject⟩), ?_⟩) hstored
    simp only [decide_not, Bool.not_eq_true', decide_eq_false_iff_not]
    intro hcreated
    obtain ⟨other, hother, hsame⟩ := mem_filterMap.mp hcreated
    obtain ⟨hmem, hkind⟩ := mem_filter.mp hother
    obtain rfl := eq_of_effectObject hperformable hmem heffect hsame hobject
    exact hcreate (by simpa using hkind)

omit [JsNumber ν] in
include hrequired in
theorem properties_chosen (heffect : effect ∈ writeEffects action)
    (hkind : effect.kind ≠ .delete) {entity : OntologyEntity} (hentity : scope.entities.get effect.entity = some entity)
    {property : OntologyProperty} (hproperty : property ∈ entity.properties) :
    (chosenArgs scope action number).read property.id = .undefined ∨
      ∃ value, get (chosenArgs scope action number) property.id = some value ∧
        ontologyValueMatchesType value property.type ∧ (value.isNull && property.required) = false := by
  obtain ⟨hfit, hdeclared⟩ := hperformable.fit effect heffect hkind entity hentity property hproperty
  by_cases hparameter : property.id ∈ action.parameters.map (·.id)
  · obtain ⟨parameter, hmem, hid⟩ := mem_map.mp hparameter
    obtain ⟨hpassed, hother⟩ := get_chosenArgs scope number hperformable.parameters hmem
    rw [← hid]
    by_cases hmust : MustPass scope action parameter.id
    · exact .inr ⟨_, hpassed hmust, matches_chosenValue number (hfit parameter hmem hid hmust),
        by rw [isNull_chosenValue]; rfl⟩
    · have hget := hother hmust
      split_ifs at hget with hinherited
      · refine .inr ⟨.null, hget, rfl, ?_⟩
        by_contra hnull
        have hpropertyRequired : property.required := by simpa [OntologyValue.isNull] using hnull
        exact hmust (.property effect entity heffect hkind hentity (hid ▸ mem_map_of_mem hproperty)
          (hid ▸ hrequired effect.entity entity hentity property hproperty hpropertyRequired) (.inr hinherited))
      · rw [not_isSome_iff_eq_none] at hinherited
        exact .inl (by rw [read_of_get_none hget, hinherited]; rfl)
  · left
    have hplain : inheritedMember? property.id = none := by
      by_contra hmember
      exact hparameter (hdeclared (isSome_iff_ne_none.mpr hmember))
    rw [read_of_get_none (get_chosenArgs_eq_none scope number hparameter), hplain]
    rfl

omit [JsNumber ν] in
include hrequired in
theorem required_chosen (heffect : effect ∈ writeEffects action)
    (hkind : effect.kind ≠ .delete) {entity : OntologyEntity}
    (hentity : scope.entities.get effect.entity = some entity) (hobject : object.entity = effect.entity)
    {record : OntologyRecord ν}
    (hrecord : ∀ name, JsMap.get record name = evaluatedProperty entity (chosenArgs scope action number)
      ((if effect.kind = .create then none else some (storedRow scope object)).elim [] (·.properties)) name) :
    missingProperties scope entity effect.entity record = [] := by
  have hset : ∀ id ∈ requiredIds scope effect.entity, isUnset (record.read id) = false := by
    intro id hid
    have hget := hrecord id
    have hpassed : id ∈ entity.properties.map (·.id) → (effect.kind = .create ∨ (inheritedMember? id).isSome) →
        id ∈ action.parameters.map (·.id) →
        ∃ value, get (chosenArgs scope action number) id = some value ∧ value.isNull = false := by
      intro hlocal hseen hparameter
      obtain ⟨parameter, hmem, rfl⟩ := mem_map.mp hparameter
      exact ⟨_, (get_chosenArgs scope number hperformable.parameters hmem).1
        (.property effect entity heffect hkind hentity hlocal hid hseen), isNull_chosenValue number parameter⟩
    by_cases hcreate : effect.kind = .create
    · rw [if_pos hcreate] at hget
      rcases hperformable.supplied effect heffect hcreate id hid with
        ⟨entity', hentity', property, hproperty, rfl, parameter, hparameter, hname, -⟩ | ⟨hinherited, hlocal⟩
      · obtain rfl : entity' = entity := mem_unique hentity' hentity
        have hlocal : property.id ∈ entity'.properties.map (·.id) := mem_map_of_mem hproperty
        obtain ⟨value, hvalue, hnull⟩ := hpassed hlocal (.inl hcreate) (hname ▸ mem_map_of_mem hparameter)
        rw [evaluatedProperty, if_pos hlocal, hvalue, some_or] at hget
        rw [read_eq_own_iff.mpr hget]
        exact hnull
      · rw [evaluatedProperty, if_neg (hlocal entity hentity)] at hget
        obtain ⟨member, hmember⟩ := isSome_iff_exists.mp hinherited
        rw [read_of_get_none hget, hmember]
        rfl
    · rw [if_neg hcreate] at hget
      have hstored : get (storedRow scope object : ObjectRow ν).properties id = some (.boolean true) := by
        rw [storedRow, get_filterMap, if_pos (hobject ▸ hid)]
      have hnonnull : id ∈ entity.properties.map (·.id) → ∀ value,
          get (chosenArgs scope action number) id = some value → value.isNull = false := by
        intro hlocal value hvalue
        have hparameter : id ∈ action.parameters.map (·.id) := by
          by_contra hnone
          rw [get_chosenArgs_eq_none scope number hnone] at hvalue
          cases hvalue
        by_cases hinherited : (inheritedMember? id).isSome
        · obtain ⟨own, hown, hnull⟩ := hpassed hlocal (.inr hinherited) hparameter
          exact mem_unique hown hvalue ▸ hnull
        · obtain ⟨parameter, hmem, rfl⟩ := mem_map.mp hparameter
          obtain ⟨hchosen, hother⟩ := get_chosenArgs scope number hperformable.parameters hmem
          by_cases hmust : MustPass scope action parameter.id
          · exact mem_unique (hchosen hmust) hvalue ▸ isNull_chosenValue number parameter
          · rw [hother hmust, if_neg hinherited] at hvalue
            cases hvalue
      rw [evaluatedProperty] at hget
      split_ifs at hget with hlocal
      · cases hargs : get (chosenArgs scope action number) id with
        | some value =>
          rw [hargs, some_or] at hget
          rw [read_eq_own_iff.mpr hget]
          exact hnonnull hlocal value hargs
        | none =>
          rw [hargs, none_or] at hget
          rw [read_eq_own_iff.mpr (hget.trans hstored)]
          rfl
      · rw [read_eq_own_iff.mpr (hget.trans hstored)]
        rfl
  have hnone : (distinct ((entity.properties.filter (·.required)).map (·.id) ++
      (scope.treeRequiredProperties.get effect.entity).getD [])).filter (fun id => isUnset (record.read id)) = [] := by
    rw [filter_eq_nil_iff]
    intro id hid
    rw [distinct, mem_eraseDups, mem_append] at hid
    rw [hset id (hid.elim (fun hlocal => ?_) fun htree => htree)]
    · simp
    · obtain ⟨property, hproperty, rfl⟩ := mem_map.mp hlocal
      obtain ⟨hmem, hpropertyRequired⟩ := mem_filter.mp hproperty
      exact hrequired effect.entity entity hentity property hmem hpropertyRequired
  unfold missingProperties
  simp only [hnone]
  rfl

include haccepted hscope hids

theorem write_chosen (heffect : effect ∈ writeEffects action) :
    ∃ entity key parameter, scope.entities.get effect.entity = some entity ∧
      entity.properties.find? (·.primaryKey) = some key ∧ parameter ∈ action.parameters ∧ parameter.id = key.id ∧
      expressionTypeOf parameter.type = expressionTypeOf key.type ∧
      get (chosenArgs scope action number) key.id = some (chosenValue number parameter) ∧
      (chosenValue number parameter).identity? = some (chosenId number parameter) ∧
      identityError action entity effect.entity key.id key.id (chosenValue number parameter) = none := by
  obtain ⟨key, hkey, hidentifies⟩ := hperformable.writes effect heffect
  obtain ⟨entity, hentity, hfind⟩ := keyProperty_eq_some_iff.mp hkey
  obtain ⟨parameter, hparameter, hid, hspelled, hvalue, hidentity, herror⟩ :=
    chosenArgs_identify number hperformable.parameters hids (hscope.typedOnce haccepted) hidentifies
      (.key effect key heffect hkey rfl)
  exact ⟨entity, key, parameter, hentity, hfind, hparameter, hid, hspelled, hvalue, hidentity,
    herror effect.entity entity hentity hfind⟩

include hrequired hdatabase in
theorem planEffect_chosen (heffect : effect ∈ writeEffects action) (consumed : List JsString) :
    ∃ result, planEffect database scope action (chosenArgs scope action number) effect consumed = .ok result := by
  obtain ⟨entity, key, parameter, hentity, hfind, -, -, -, hvalue, hidentity, herror⟩ :=
    write_chosen number haccepted hscope hids hperformable heffect
  have hkey : primaryKeyOf entity = some key.id := by rw [primaryKeyOf, hfind]; rfl
  have hobject : effectObject scope (chosenArgs scope action number) effect =
      some ⟨scope.treeId, effect.entity, chosenId number parameter⟩ := by
    simp [effectObject, namedObjectId, hentity, hkey, hvalue, hidentity]
  have hexisting := get?_effectObject number hperformable hdatabase heffect hobject
  have hplanned : effect.kind ≠ .delete → ∀ before : OntologyRecord ν, before =
      (if effect.kind = .create then none else some (storedRow scope
        ⟨scope.treeId, effect.entity, chosenId number parameter⟩)).elim [] (·.properties) →
      ∃ assigned consumed', assignProperties action effect.entity (chosenArgs scope action number) entity.properties
        before (consumed ++ [key.id]) = .ok (assigned, consumed') ∧
        missingProperties scope entity effect.entity (assigned.set key.id (chosenValue number parameter)) = [] := by
    rintro hkind before rfl
    obtain ⟨⟨assigned, consumed'⟩, hassign⟩ := assignProperties_of_readable fun property hproperty =>
      properties_chosen number hrequired hperformable heffect hkind hentity hproperty
    exact ⟨assigned, consumed', hassign, required_chosen number hrequired hperformable heffect hkind hentity rfl
      (evaluatedProperty_set_primaryKey hkey hvalue (assignProperties_ok hassign))⟩
  unfold planEffect
  simp only [hentity, hkey, read_eq_own_iff.mpr hvalue, hidentity, herror, getOntologyObjectIn, hexisting]
  cases hkind : effect.kind with
  | delete => exact ⟨_, rfl⟩
  | create | update =>
    obtain ⟨assigned, consumed', hassign, hmissing⟩ := hplanned (by simp [hkind]) _ rfl
    simp only [hkind, reduceCtorEq, if_true, if_false] at hassign ⊢
    simp only [hassign, hmissing]
    exact ⟨_, rfl⟩

theorem planLinkEffect_chosen {effect : OntologyLinkEffect} (heffect : effect ∈ linkEffects action)
    (consumed : List JsString) :
    ∃ result, planLinkEffect scope action (chosenArgs scope action number) effect consumed = .ok result := by
  obtain ⟨ends, hends, hfrom, hto, hdistinct⟩ := hperformable.links effect heffect
  obtain ⟨relationship, hrelationship, hsource, htarget⟩ := linkEnds_eq_some_iff.mp hends
  have hresolves : ∀ {entityId parameter source} (runs : JsString) (taken : List JsString),
      linkEnd scope entityId parameter = some source → Identifies action source.name source.key →
      MustPass scope action source.name → source.name ∉ taken →
      ∃ objectId, resolveEndpoint scope action (chosenArgs scope action number) effect.relationship runs entityId
        parameter taken = .ok (source.name, objectId) := by
    intro entityId parameter source runs taken hsource hidentifies hmust hfresh
    obtain ⟨-, hkey, hname⟩ := linkEnd_eq_some_iff.mp hsource
    obtain ⟨entity, hentity, hfind⟩ := keyProperty_eq_some_iff.mp hkey
    have hprimary : primaryKeyOf entity = some source.key.id := by rw [primaryKeyOf, hfind]; rfl
    obtain ⟨_, -, -, -, hvalue, hidentity, herror⟩ := chosenArgs_identify number hperformable.parameters
      hids (hscope.typedOnce haccepted) hidentifies hmust
    unfold resolveEndpoint
    simp only [hentity, hprimary, ← hname, if_neg hfresh, read_eq_own_iff.mpr hvalue, hidentity,
      herror entityId entity hentity hfind]
    exact ⟨_, rfl⟩
  obtain ⟨fromObjectId, hfromOk⟩ := hresolves (js "starts at") [] hsource hfrom
    (.linkFrom effect ends heffect hends rfl) not_mem_nil
  obtain ⟨toObjectId, htoOk⟩ := hresolves (js "ends at")
    (if relationship.fromEntity = relationship.toEntity then [ends.1.name] else []) htarget hto
    (.linkTo effect ends heffect hends rfl) (by
      obtain ⟨hsourceEntity, -⟩ := linkEnd_eq_some_iff.mp hsource
      obtain ⟨htargetEntity, -⟩ := linkEnd_eq_some_iff.mp htarget
      split_ifs with hsame
      · rw [mem_singleton]
        exact fun hname => hdistinct (by rw [hsourceEntity, htargetEntity, hsame]) hname.symm
      · exact not_mem_nil)
  unfold planLinkEffect
  simp only [hrelationship, hfromOk, htoOk]
  exact ⟨_, rfl⟩

include hdatabase in
theorem endpoint_chosen (hnumber : ∀ a ∈ action.parameters, ∀ b ∈ action.parameters,
      toJsString (number a.id) = toJsString (number b.id) → a.id = b.id)
    {targets : JsMap JsString (PlannedWrite ν)} {consumed : List JsString}
    (hwrites : planWrites database scope action (chosenArgs scope action number) (writeEffects action) [] [] =
      .ok (targets, consumed)) {edge : OntologyEdge}
    (hedge : edge ∈ (linkEffects action).filterMap (effectEdge scope (chosenArgs scope action number)))
    (hobject : object ∈ [edge.fromObject, edge.toObject]) {source : LinkEnd}
    (hsource : keyProperty scope source.entity = some source.key) (hentity : source.entity = object.entity)
    (hidentifies : Identifies action source.name source.key) (hmust : MustPass scope action source.name)
    (hnamed : (get (chosenArgs scope action number) source.name).bind OntologyValue.identity? = some object.objectId)
    (hkept : ∀ effect ∈ writeEffects action, effect.kind = .delete → source.entity = effect.entity →
      source.name ≠ source.key.id) : endpointError database action targets object = none := by
  obtain ⟨hwell, writes, hall, hplanned⟩ := planWrites_ok ⟨by simp, by simp⟩ hwrites
  rw [map_nil, nil_append] at hall
  obtain ⟨link, -, hlink⟩ := mem_filterMap.mp hedge
  have hin : InScope scope object := by
    obtain ⟨hfromIn, htoIn⟩ := effectEdge_inScope hlink
    rcases mem_cons.mp hobject with rfl | hto
    · exact hfromIn
    · exact mem_singleton.mp hto ▸ htoIn
  unfold endpointError
  cases htarget : targets.get (targetOf object) with
  | some write =>
    have hentry := mem_of_get htarget
    obtain ⟨effect, heffect, hfrom⟩ := hplanned.exists_left (hall ▸ mem_map_of_mem hentry)
    have hsame : object = write.object :=
      InScope.eq_of_targetOf haccepted hscope hin (effectObject_inScope hfrom.object) (hwell.named _ hentry)
    have halive : write.kind ≠ .delete := by
      intro hdelete
      have hkind := hfrom.kind.symm.trans hdelete
      obtain ⟨objectId, hobjectId, heq⟩ := map_eq_some_iff.mp hfrom.object
      rw [← hsame] at heq
      have heffectEntity : source.entity = effect.entity := by rw [hentity, ← heq]
      refine hkept effect heffect hkind heffectEntity ?_
      have hown : linkEnd scope effect.entity none = some ⟨effect.entity, source.key, source.key.id⟩ :=
        linkEnd_eq_some_iff.mpr ⟨rfl, heffectEntity ▸ hsource, rfl⟩
      rw [namedObjectId_of_linkEnd hown] at hobjectId
      obtain ⟨key, hkey, hkeyIdentifies⟩ := hperformable.writes effect heffect
      obtain rfl : key = source.key := mem_unique hkey (heffectEntity ▸ hsource)
      obtain ⟨a, ha, haName, haType, haValue, haId, -⟩ := chosenArgs_identify number
        hperformable.parameters hids (hscope.typedOnce haccepted) hidentifies hmust
      obtain ⟨b, hb, hbName, hbType, hbValue, hbId, -⟩ := chosenArgs_identify number
        hperformable.parameters hids (hscope.typedOnce haccepted) hkeyIdentifies (.key effect _ heffect hkey rfl)
      rw [haValue, bind_some, haId] at hnamed
      simp only [hbValue, bind_some, hbId] at hobjectId
      have hids : chosenId number a = chosenId number b := by
        rw [some.inj hnamed, some.inj hobjectId, ← heq]
      rw [← haName, ← hbName]
      exact chosenId_injective (hnumber a ha b hb) (haType.trans hbType.symm) hids
    simp [halive]
  | none =>
    have hstored : object ∈ storedObjects scope action number := by
      refine mem_filter.mpr ⟨mem_append_right _ (mem_flatMap.mpr ⟨edge, hedge, hobject⟩), ?_⟩
      simp only [decide_not, Bool.not_eq_true', decide_eq_false_iff_not]
      intro hcreated
      obtain ⟨effect, heffect, hfound⟩ := mem_filterMap.mp hcreated
      obtain ⟨write, hwrite, hfrom⟩ := hplanned.exists_right (mem_filter.mp heffect).1
      obtain ⟨entry, hentry, rfl⟩ := mem_map.mp (hall ▸ hwrite)
      have hsame : entry.2.object = object := mem_unique hfrom.object hfound
      rw [get_eq_none_iff] at htarget
      exact htarget (mem_map.mpr ⟨entry, hentry, (hwell.named entry hentry).trans (congrArg targetOf hsame)⟩)
    simp [getOntologyObjectIn, hdatabase, hstored]

include hrequired in
theorem exists_planned (hnumbers : EnoughNumbers ν action.parameters.length) :
    ∃ (database : ObjectStore ν) (args : OntologyRecord ν) (plan : ActionPlan ν),
      planOntologyAction database scope action args = .ok plan := by
  obtain ⟨index, hindex⟩ := hnumbers
  let number (name : JsString) : ν := index ((action.parameters.map (·.id)).idxOf name)
  have hnumber : ∀ a ∈ action.parameters, ∀ b ∈ action.parameters,
      toJsString (number a.id) = toJsString (number b.id) → a.id = b.id := by
    intro a ha b hb h
    have hlt : ∀ p ∈ action.parameters, (action.parameters.map (·.id)).idxOf p.id < action.parameters.length := by
      intro p hp
      have hlt := idxOf_lt_length_of_mem (mem_map_of_mem (f := (·.id)) hp)
      rwa [length_map] at hlt
    exact (idxOf_inj (mem_map_of_mem ha)).mp (hindex _ (hlt a ha) _ (hlt b hb) h)
  have hkey : ∀ object, (storedRow scope object : ObjectRow ν).key = object := fun _ => rfl
  obtain ⟨objects, hobjects⟩ := KeyedTable.exists_get? hkey (storedObjects scope action number)
  let database : ObjectStore ν := ⟨objects, KeyedTable.empty⟩
  have hdatabase : ∀ object, database.objects.get? object =
    if object ∈ storedObjects scope action number then some (storedRow scope object) else none := hobjects
  obtain ⟨⟨targets, consumed⟩, hwrites⟩ := planWrites_of_each haccepted hscope
    (fun effect heffect consumed => planEffect_chosen number haccepted hscope hrequired hids hperformable hdatabase
      heffect consumed) hperformable.once [] (by simp) []
  obtain ⟨⟨links, consumed'⟩, hlinks⟩ := planLinks_of_each
    (fun effect heffect consumed => planLinkEffect_chosen number haccepted hscope hids hperformable heffect
      consumed) [] consumed
  have hends : linkEndpointError database action targets links = none := by
    obtain ⟨planned, hall, hforall⟩ := planLinks_ok hlinks
    rw [nil_append] at hall
    rw [linkEndpointError, findSome?_eq_none_iff]
    intro link hlink
    cases hkind : link.kind with
    | unlink => rfl
    | link =>
      obtain ⟨effect, heffect, hsame, hedge⟩ := hforall.exists_left (hall ▸ hlink)
      obtain ⟨ends, hlinkEnds, hfrom, hto, -⟩ := hperformable.links effect heffect
      have hkept := hperformable.kept effect heffect (hsame.symm.trans hkind) ends hlinkEnds
      have hmem := mem_filterMap.mpr ⟨effect, heffect, hedge⟩
      obtain ⟨relationship, hrelationship, hsource, htarget⟩ := linkEnds_eq_some_iff.mp hlinkEnds
      obtain ⟨hsourceEntity, hsourceKey, -⟩ := linkEnd_eq_some_iff.mp hsource
      obtain ⟨htargetEntity, htargetKey, -⟩ := linkEnd_eq_some_iff.mp htarget
      simp only [effectEdge, hrelationship, bind_some, bind_eq_some_iff, map_eq_some_iff,
        namedObjectId_of_linkEnd hsource, namedObjectId_of_linkEnd htarget] at hedge
      obtain ⟨fromObjectId, hfromId, toObjectId, htoId, hedge⟩ := hedge
      simp only [or_eq_none_iff]
      constructor
      · refine endpoint_chosen number haccepted hscope hids hperformable hdatabase hnumber hwrites hmem
          mem_cons_self (hsourceEntity ▸ hsourceKey) ?_ hfrom (.linkFrom effect ends heffect hlinkEnds rfl) ?_
          fun write hwrite hdelete => (hkept write hwrite hdelete).1
        · rw [← hedge]; exact hsourceEntity
        · rw [← hedge]; exact bind_eq_some_iff.mpr hfromId
      · refine endpoint_chosen number haccepted hscope hids hperformable hdatabase hnumber hwrites hmem
          (mem_cons_of_mem _ mem_cons_self) (htargetEntity ▸ htargetKey) ?_ hto
          (.linkTo effect ends heffect hlinkEnds rfl) ?_ fun write hwrite hdelete => (hkept write hwrite hdelete).2
        · rw [← hedge]; exact htargetEntity
        · rw [← hedge]; exact bind_eq_some_iff.mpr htoId
  have hvalid := validateParameters_chosenArgs scope number hperformable.parameters
  have heffects : ((writeEffects action).isEmpty && (linkEffects action).isEmpty) = false := by
    simpa [List.isEmpty_iff, imp_iff_not_or] using hperformable.effects
  refine ⟨database, chosenArgs scope action number, ⟨targets, links, consumed'⟩, ?_⟩
  unfold planOntologyAction
  simp only [hvalid, heffects, hwrites, hlinks, hends, Bool.false_eq_true, if_false]

end Performable

end Call

end ClawWorks
