import ClawWorks.Enterprise.ObjectRuns

/-!
# What every stored object has

An action writes what its own step declares of an object type, and holds the result against what the whole tree
requires. `SoundRow` is what the rows of the store should then have: the required properties, declared types, and the
primary key that spells the object's id.
-/

namespace ClawWorks

open JsMap KeyedTable Option List

variable {ν : Type}

def requiredProperties (tree : WorkflowTreeDefinition) (entityId : EnterpriseId) : List EnterpriseId :=
  ((collectTreeRequiredProperties tree).get entityId).getD []

variable [JsNumber ν]

/-- A row has what the tree requires, every declared property under its type, and its primary key spells its id. -/
structure SoundRow (tree : WorkflowTreeDefinition) (row : ObjectRow ν) : Prop where
  required : ∀ id ∈ requiredProperties tree row.key.entity,
    ∃ value, get row.properties id = some value ∧ value.isNull = false
  typed : ∀ property, Declares tree row.key.entity property → ∀ value,
    get row.properties property.id = some value → ontologyValueMatchesType value property.type = true
  key : ∀ property, Declares tree row.key.entity property → property.primaryKey = true →
    ∃ value, get row.properties property.id = some value ∧ value.identity? = some row.key.objectId

/-- Every row of the store is a sound row of the tree, and no two rows have the same type and id. -/
structure SoundStore (tree : WorkflowTreeDefinition) (database : ObjectStore ν) : Prop where
  rows : ∀ row ∈ database.objects, SoundRow tree row
  ofTree : ∀ row ∈ database.objects, row.key.treeId = tree.id
  distinct : ∀ a ∈ database.objects, ∀ b ∈ database.objects, a.key.entity = b.key.entity →
    a.key.objectId = b.key.objectId → a = b

/-- Where the action creates an object, the step declares every required property whose name all objects inherit. -/
def DeclaresInherited (scope : NodeOntologyScope) (action : OntologyAction) : Prop :=
  ∀ effect ∈ writeEffects action, effect.kind = .create →
    ∀ id ∈ (scope.treeRequiredProperties.get effect.entity).getD [], (inheritedMember? id).isSome →
      ∃ entity, scope.entities.get effect.entity = some entity ∧ id ∈ entity.properties.map (·.id)

variable {consumed consumed' : List JsString} {args : OntologyRecord ν} {action : OntologyAction}

omit [JsNumber ν] in
theorem assignProperties_checked {entityId : EnterpriseId}
    {properties : List OntologyProperty} {before assigned : OntologyRecord ν}
    (h : assignProperties action entityId args properties before consumed = .ok (assigned, consumed')) :
    ∀ property ∈ properties, (∀ value, get args property.id = some value →
      ontologyValueMatchesType value property.type) ∧ ∀ member, args.read property.id ≠ .inherited member := by
  induction properties generalizing before consumed with
  | nil => exact fun _ hproperty => absurd hproperty not_mem_nil
  | cons property rest ih =>
    unfold assignProperties at h
    simp only at h
    intro other hother
    split at h
    · rename_i hread
      rcases mem_cons.mp hother with rfl | hrest
      · refine ⟨fun value hvalue => ?_, fun member hmember => ?_⟩
        · rw [PlainObject.read_eq_own_iff.mpr hvalue] at hread
          cases hread
        · rw [hread] at hmember
          cases hmember
      · exact ih h other hrest
    · cases h
    · rename_i value hread
      split at h
      · cases h
      rename_i htype
      split at h
      · cases h
      rcases mem_cons.mp hother with rfl | hrest
      · refine ⟨fun own hown => ?_, fun member hmember => ?_⟩
        · rw [PlainObject.read_eq_own_iff.mpr hown] at hread
          cases hread
          simpa using htype
        · rw [hread] at hmember
          cases hmember
      · exact ih h other hrest

/-- What a planned create or update was checked for: its arguments are of the declared types, none is an inherited
member, its identity is the argument under the primary key, and nothing required reads as unset. -/
structure CheckedWrite (scope : NodeOntologyScope) (args : OntologyRecord ν) (effect : ObjectWriteEffect)
    (write : PlannedWrite ν) (entity : OntologyEntity) : Prop where
  declared : scope.entities.get effect.entity = some entity
  typed : ∀ property ∈ entity.properties, ∀ value, get args property.id = some value →
    ontologyValueMatchesType value property.type = true
  uninherited : ∀ property ∈ entity.properties, ∀ member, args.read property.id ≠ .inherited member
  identity : ∃ property ∈ entity.properties, property.primaryKey = true ∧
    ∃ value, get args property.id = some value ∧ value.identity? = some write.object.objectId
  set : ∀ id ∈ (scope.treeRequiredProperties.get effect.entity).getD [], isUnset (write.properties.read id) = false

variable {effect : ObjectWriteEffect} {write : PlannedWrite ν}

theorem planEffect_checked {database : ObjectStore ν} {scope : NodeOntologyScope}
    (h : planEffect database scope action args effect consumed = .ok (write, consumed'))
    (hkind : effect.kind ≠ .delete) :
    ∃ entity, CheckedWrite scope args effect write entity := by
  obtain ⟨entity, primaryKey, hidentified, -, -, -, hassigned⟩ := planEffect_cases h
  obtain ⟨hentity, hkey, identity, hidentity, hid, -⟩ := hidentified
  obtain ⟨identity', assigned, -, hproperties, hassign, hmissing⟩ := hassigned hkind
  have hchecked := assignProperties_checked hassign
  obtain ⟨property, hfind, rfl⟩ := map_eq_some_iff.mp hkey
  refine ⟨entity, hentity, fun p hp => (hchecked p hp).1, fun p hp => (hchecked p hp).2, ?_, fun id hrequired => ?_⟩
  · exact ⟨property, mem_of_find?_eq_some hfind, find?_some hfind, identity, hidentity, hid⟩
  · by_contra hunset
    have hmem : id ∈ missingProperties scope entity effect.entity write.properties := by
      rw [missingProperties, toSorted, mem_insertionSort, mem_filter, distinct, mem_eraseDups]
      exact ⟨mem_append_right _ hrequired, by simpa using hunset⟩
    rw [hmissing] at hmem
    cases hmem

/-! ## One action keeps the rows sound -/

section Step

variable {tree : WorkflowTreeDefinition} (haccepted : workflowTreeIssues tree = []) {scope : NodeOntologyScope}
  (hscope : ScopeOf tree scope) {database : ObjectStore ν} {args : OntologyRecord ν}

include haccepted hscope

variable {entity : OntologyEntity}

theorem typed_of_planned (hchecked : CheckedWrite scope args effect write entity)
    (hproperties : ∀ name, JsMap.get write.properties name =
      evaluatedProperty entity args ((database.objects.get? write.object).elim [] (·.properties)) name)
    (hbefore : ∀ row, database.objects.get? write.object = some row → SoundRow tree row)
    (hentity : write.object.entity = effect.entity) {property : OntologyProperty}
    (hproperty : Declares tree effect.entity property) {value : OntologyValue ν}
    (hvalue : get write.properties property.id = some value) :
    ontologyValueMatchesType value property.type := by
  have hold : get ((database.objects.get? write.object).elim [] (·.properties)) property.id = some value →
      ontologyValueMatchesType value property.type := by
    cases hrow : database.objects.get? write.object with
    | none => exact fun hnone => nomatch hnone
    | some row =>
      have hkey := (get?_eq_some_iff.mp hrow).2
      refine fun hget => (hbefore row hrow).typed property ?_ value hget
      rwa [show row.key.entity = effect.entity from hkey ▸ hentity]
  rw [hproperties, evaluatedProperty] at hvalue
  split at hvalue
  · rename_i hdeclared
    obtain ⟨own, hown, hid⟩ := mem_map.mp hdeclared
    rcases or_eq_some_iff.mp hvalue with harg | ⟨-, hget⟩
    · obtain ⟨source, hsource, hsourceId, hsourceType⟩ := (hscope.declaredAs hchecked.declared hown).type
      have htype := Declares.type_eq haccepted hsource hproperty (hsourceId.trans hid)
      rw [← htype, hsourceType]
      exact hchecked.typed own hown value (hid ▸ harg)
    · exact hold hget
  · exact hold hvalue

variable {action : OntologyAction}

theorem soundRow_of_planned (hdeclares : DeclaresInherited scope action)
    (heffect : effect ∈ writeEffects action) (hchecked : CheckedWrite scope args effect write entity)
    (hplanned : PlannedFrom database scope args effect write) (hkind : effect.kind ≠ .delete)
    (hbefore : ∀ row, database.objects.get? write.object = some row → SoundRow tree row) {row : ObjectRow ν}
    (hkey : row.key = write.object) (hrow : row.properties = write.properties) : SoundRow tree row := by
  have hentity : write.object.entity = effect.entity := by
    obtain ⟨objectId, -, hobject⟩ := map_eq_some_iff.mp hplanned.object
    rw [← hobject]
  obtain ⟨entity', hentity', hproperties⟩ := hplanned.properties hkind
  obtain rfl : entity = entity' := mem_unique hchecked.declared hentity'
  have hrowEntity : row.key.entity = effect.entity := by rw [hkey, hentity]
  refine ⟨fun id hid => ?_, fun property hproperty value hvalue => ?_, fun property hproperty hprimary => ?_⟩
  · -- a required property that reads as set is the row's own: nothing inherited is left to take its place
    have hrequired : id ∈ (scope.treeRequiredProperties.get effect.entity).getD [] := by
      rw [hscope.required, ← hrowEntity]
      exact hid
    have hset := hchecked.set id hrequired
    rw [hrow]
    cases hget : get write.properties id with
    | some value =>
      rw [PlainObject.read_eq_own_iff.mpr hget] at hset
      exact ⟨value, rfl, hset⟩
    | none =>
      exfalso
      have hinherited : (inheritedMember? id).isSome := by
        rw [PlainObject.read, hget] at hset
        cases hmember : inheritedMember? id with
        | none => simp [hmember, isUnset] at hset
        | some member => rfl
      rw [hproperties, evaluatedProperty] at hget
      by_cases hcreate : effect.kind = .create
      · obtain ⟨entity', hsame, hdeclared⟩ := hdeclares effect heffect hcreate id hrequired hinherited
        obtain rfl : entity = entity' := mem_unique hchecked.declared hsame
        obtain ⟨member, hmember⟩ := isSome_iff_exists.mp hinherited
        obtain ⟨property, hproperty, rfl⟩ := mem_map.mp hdeclared
        rw [if_pos hdeclared] at hget
        refine hchecked.uninherited property hproperty member ?_
        rw [PlainObject.read, (or_eq_none_iff.mp hget).1, hmember]
      · obtain ⟨old, hold⟩ := hplanned.exists_existing hcreate
        have hold' := get?_eq_some_iff.mp hold
        obtain ⟨value, hvalue, -⟩ := (hbefore old hold).required id (by rw [hold'.2, hentity, ← hrowEntity]; exact hid)
        rw [hold] at hget
        split at hget
        · exact absurd (hvalue.symm.trans (or_eq_none_iff.mp hget).2) (by simp)
        · exact absurd (hvalue.symm.trans hget) (by simp)
  · rw [hrowEntity] at hproperty
    rw [hrow] at hvalue
    exact typed_of_planned haccepted hscope hchecked hproperties hbefore hentity hproperty hvalue
  · obtain ⟨own, hown, hownPrimary, value, hvalue, hidentity⟩ := hchecked.identity
    obtain ⟨source, hsource, hsourceId, hsourceKey⟩ := (hscope.declaredAs hchecked.declared hown).key hownPrimary
    rw [hrowEntity] at hproperty
    have hid : source.id = property.id := Declares.key_eq haccepted hsource hproperty hsourceKey hprimary
    refine ⟨value, ?_, by rw [hkey]; exact hidentity⟩
    have hdeclared : property.id ∈ entity.properties.map (·.id) := by
      rw [← hid, hsourceId]
      exact mem_map_of_mem hown
    rw [hrow, hproperties, evaluatedProperty, if_pos hdeclared, ← hid, hsourceId, hvalue, some_or]

omit haccepted hscope in
theorem mem_planWrites {effects : List ObjectWriteEffect} {targets targets' : JsMap JsString (PlannedWrite ν)}
    (h : planWrites database scope action args effects targets consumed = .ok (targets', consumed')) :
    ∀ entry ∈ targets', entry ∈ targets ∨ ∃ effect ∈ effects, ∃ before after,
      planEffect database scope action args effect before = .ok (entry.2, after) := by
  induction effects generalizing targets consumed with
  | nil =>
    cases h
    exact fun _ hentry => .inl hentry
  | cons effect effects ih =>
    unfold planWrites at h
    simp only at h
    split at h
    · cases h
    next write consumed₁ hplan =>
    split at h
    · cases h
    intro entry hentry
    rcases ih h entry hentry with hset | ⟨later, hlater, hplanned⟩
    · rcases mem_set hset with rfl | hold
      · exact .inr ⟨effect, mem_cons_self, _, _, hplan⟩
      · exact .inl hold
    · exact .inr ⟨later, mem_cons_of_mem _ hlater, hplanned⟩

theorem soundStore_apply (hdeclares : DeclaresInherited scope action) {plan : ActionPlan ν}
    (hplan : planOntologyAction database scope action args = .ok plan) (now : Nat) (h : SoundStore tree database) :
    SoundStore tree (plan.apply database now) := by
  obtain ⟨-, consumed, hwrites, -, -⟩ := planOntologyAction_ok hplan
  have hp := planOntologyAction_follows hplan
  have hrow : ∀ row ∈ (plan.apply database now).objects, SoundRow tree row ∧ row.key.treeId = tree.id := by
    intro row hmem
    have hget := mem_iff_get?.mp hmem
    rw [objects_apply] at hget
    by_cases hwritten : ∃ write ∈ plan.writes, write.object = row.key
    · obtain ⟨write, hwrite, hobject⟩ := hwritten
      rw [← hobject, get?_foldl_of_nodup (actsAt_writeObjects now) hp.distinct hwrite] at hget
      obtain ⟨entry, hentry, rfl⟩ := mem_map.mp hwrite
      obtain ⟨effect, heffect, before, after, hplanned⟩ :=
        (mem_planWrites hwrites entry hentry).resolve_left not_mem_nil
      have hfrom := planEffect_ok hplanned
      have hkind : effect.kind ≠ .delete := fun hdelete => by
        simp [writtenRow, hfrom.kind, hdelete] at hget
      obtain ⟨entity, hchecked⟩ := planEffect_checked hplanned hkind
      have hproperties : row.properties = entry.2.properties := by
        unfold writtenRow at hget
        split at hget
        · cases hget
        · exact (congrArg ObjectRow.properties (some.inj hget)).symm
      refine ⟨soundRow_of_planned haccepted hscope hdeclares heffect hchecked hfrom hkind (fun old hold => ?_)
        hobject.symm hproperties, ?_⟩
      · exact h.rows old (get?_eq_some_iff.mp hold).1
      · rw [← hobject, (effectObject_inScope hfrom.object).treeId, hscope.treeId]
    · push Not at hwritten
      rw [get?_foldl_of_forall_ne (actsAt_writeObjects now) hwritten] at hget
      have hold := mem_iff_get?.mpr hget
      exact ⟨h.rows row hold, h.ofTree row hold⟩
  refine ⟨fun row hmem => (hrow row hmem).1, fun row hmem => (hrow row hmem).2, ?_⟩
  intro a ha b hb hentity hobjectId
  refine eq_of_key ha hb ?_
  have htree : a.key.treeId = b.key.treeId := (hrow a ha).2.trans (hrow b hb).2.symm
  change a.key = b.key
  cases hakey : a.key
  cases hbkey : b.key
  simp_all

end Step

omit [JsNumber ν] in
theorem declaresInherited_of_plain {tree : WorkflowTreeDefinition} {scope : NodeOntologyScope}
    (hscope : ScopeOf tree scope)
    (hplain : ∀ entry ∈ collectTreeRequiredProperties tree, ∀ id ∈ entry.2, inheritedMember? id = none)
    (action : OntologyAction) : DeclaresInherited scope action := by
  intro effect _ _ id hid hinherited
  rw [hscope.required] at hid
  cases hget : (collectTreeRequiredProperties tree).get effect.entity with
  | none => simp [hget] at hid
  | some ids =>
    simp only [hget, getD_some] at hid
    rw [hplain _ (mem_of_get hget) id hid] at hinherited
    cases hinherited

def personType (properties : List OntologyProperty) : OntologyEntity where
  id := js "person"
  properties := { id := js "id", type := .id, primaryKey := true, required := true } :: properties

def hirePerson : OntologyAction where
  id := js "hire"
  parameters := [{ id := js "id", type := .id }]
  effects := [.object (js "person") .create]

/-- The root requires what the hiring step does not declare. -/
def guildTree : WorkflowTreeDefinition where
  id := js "guild"
  version := js "1.0.0"
  name := js "Guild"
  root := {
    id := js "root"
    title := js "Guild"
    ontology := { entities := [personType [{ id := js "constructor", type := .string, required := true }]] }
    children := [{
      id := js "hiring"
      title := js "Hiring"
      ontology := { entities := [personType []], actions := [hirePerson] } }] }

/-- The call that hires person 7, in a run that stands on the hiring step. -/
def hiring : Except JsString (OntologyActionOutcome Int) × ObjectStore Int :=
  letI := plainEnvironment
  invokeActionTool (fun _ => some (runOn guildTree (js "hiring"))) (js "run") (js "hire")
    [(js "id", .string (js "7"))] 0 .empty

end ClawWorks
