import ClawWorks.Enterprise.OntologyActions
import ClawWorks.Enterprise.Schema
import ClawWorks.Lib.Splits

/-!
# What an ontology action changes

`ExactEffect` says what the effects of an action promise about the store after it: exactly the declared objects were
written, the declared edges are there or gone, and everything else is as it was.
-/

namespace ClawWorks

open JsMap KeyedTable List

variable {ν : Type} [JsNumber ν]

/-! ## What the effects name -/

variable (scope : NodeOntologyScope) (args : OntologyRecord ν)

def namedObjectId (entityId : EnterpriseId) (parameter : Option JsString) : Option JsString :=
  (scope.entities.get entityId).bind fun entity =>
    (primaryKeyOf entity).bind fun primaryKey =>
      (get args (parameter.getD primaryKey)).bind OntologyValue.identity?

def effectObject (effect : ObjectWriteEffect) : Option ObjectKey :=
  (namedObjectId scope args effect.entity none).map fun objectId => ⟨scope.treeId, effect.entity, objectId⟩

/-- The edge a graph effect names: its link type, and the object type and id on both sides. -/
def effectEdge (effect : OntologyLinkEffect) : Option OntologyEdge :=
  (scope.relationships.get effect.relationship).bind fun relationship =>
    (namedObjectId scope args relationship.fromEntity effect.fromParam).bind fun fromObjectId =>
      (namedObjectId scope args relationship.toEntity effect.toParam).map fun toObjectId =>
        ⟨scope.treeId, effect.relationship, relationship.fromEntity, fromObjectId, relationship.toEntity, toObjectId⟩

/-- The value of a property after a write: an argument named like a declared property, else what was there. -/
def evaluatedProperty (entity : OntologyEntity) (args before : OntologyRecord ν) (name : EnterpriseId) :
    Option (OntologyValue ν) :=
  if name ∈ entity.properties.map (·.id) then (get args name).or (get before name)
  else get before name

variable (action : OntologyAction)

def NamesObject (args : OntologyRecord ν) (object : ObjectKey) : Prop :=
  ∃ effect ∈ writeEffects action, effectObject scope args effect = some object

def NamesEdge (args : OntologyRecord ν) (kind : OntologyLinkEffectKind) (edge : OntologyEdge) : Prop :=
  ∃ effect ∈ linkEffects action, effect.kind = kind ∧ effectEdge scope args effect = some edge

def TouchesDeleted (args : OntologyRecord ν) (edge : OntologyEdge) : Prop :=
  ∃ effect ∈ writeEffects action, effect.kind = .delete ∧
    ∃ object, effectObject scope args effect = some object ∧ edge.touches object = true

structure ExactEffect (scope : NodeOntologyScope) (action : OntologyAction) (args : OntologyRecord ν)
    (before after : ObjectStore ν) : Prop where
  addressed : ∀ effect ∈ writeEffects action, ∃ object, effectObject scope args effect = some object
  created : ∀ effect ∈ writeEffects action, effect.kind = .create →
    ∀ object, effectObject scope args effect = some object → before.objects.get? object = none ∧
        ∃ entity row, scope.entities.get effect.entity = some entity ∧ after.objects.get? object = some row ∧
          ∀ name, JsMap.get row.properties name = evaluatedProperty entity args [] name
  updated : ∀ effect ∈ writeEffects action, effect.kind = .update →
    ∀ object, effectObject scope args effect = some object →
      ∃ entity old row, scope.entities.get effect.entity = some entity ∧ before.objects.get? object = some old ∧
        after.objects.get? object = some row ∧ row.createdAt = old.createdAt ∧
          ∀ name, JsMap.get row.properties name = evaluatedProperty entity args old.properties name
  deleted : ∀ effect ∈ writeEffects action, effect.kind = .delete →
    ∀ object, effectObject scope args effect = some object →
      (before.objects.get? object).isSome ∧ after.objects.get? object = none
  otherObjects : ∀ object, ¬ NamesObject scope action args object →
    after.objects.get? object = before.objects.get? object
  related : ∀ effect ∈ linkEffects action, ∃ edge, effectEdge scope args effect = some edge
  linked : ∀ edge, NamesEdge scope action args .link edge → ∃ row ∈ after.links, row.edge = edge
  unlinked : ∀ edge, NamesEdge scope action args .unlink edge → ∀ row ∈ after.links, row.edge ≠ edge
  otherEdges : ∀ row : LinkRow, (∀ kind, ¬ NamesEdge scope action args kind row.edge) →
    ¬ TouchesDeleted scope action args row.edge → (row ∈ after.links ↔ row ∈ before.links)

/-- The edge key separates the edges an action deals with: no edge is both linked and unlinked, and a stored edge that
shares its key with one the action names is that edge, unless it goes with a deleted object. -/
structure UnaliasedEdges (scope : NodeOntologyScope) (action : OntologyAction) (args : OntologyRecord ν)
    (before : ObjectStore ν) : Prop where
  unopposed : ∀ edge, NamesEdge scope action args .link edge → ¬ NamesEdge scope action args .unlink edge
  separate : ∀ kind edge, NamesEdge scope action args kind edge → ∀ row ∈ before.links, row.key = edge.key →
    row.edge = edge ∨ TouchesDeleted scope action args row.edge

theorem effectEdge_eq_of_key {scope : NodeOntologyScope} {args : OntologyRecord ν} {a b : OntologyLinkEffect}
    {e e' : OntologyEdge} (ha : effectEdge scope args a = some e) (hb : effectEdge scope args b = some e')
    (hkey : e.key = e'.key) : e = e' := by
  simp only [effectEdge, Option.bind_eq_some_iff, Option.map_eq_some_iff] at ha hb
  obtain ⟨r, hr, f, -, t, -, rfl⟩ := ha
  obtain ⟨r', hr', f', -, t', -, rfl⟩ := hb
  simp only [OntologyEdge.key, LinkKey.mk.injEq] at hkey
  obtain ⟨-, hrel, rfl, rfl⟩ := hkey
  rw [hrel] at hr
  obtain rfl : r = r' := Option.mem_unique hr hr'
  rw [hrel]

/-! ## What is planned -/

variable {consumed consumed' : List JsString}

omit [JsNumber ν] in
theorem assignProperties_ok {action : OntologyAction} {entityId : EnterpriseId} {args : OntologyRecord ν}
    {properties : List OntologyProperty} {before assigned : OntologyRecord ν}
    (h : assignProperties action entityId args properties before consumed = .ok (assigned, consumed'))
    (name : JsString) :
    get assigned name = if name ∈ properties.map (·.id) then (get args name).or (get before name)
      else get before name := by
  induction properties generalizing before consumed with
  | nil =>
    cases h
    simp
  | cons property rest ih =>
    unfold assignProperties at h
    simp only at h
    split at h
    · rename_i hread
      rw [ih h]
      have hnone := PlainObject.get_of_read_undefined hread
      by_cases hname : name = property.id
      · subst hname
        simp [hnone]
      · simp [hname]
    · cases h
    · rename_i value hread
      split at h
      · cases h
      split at h
      · cases h
      rw [ih h]
      have hown := PlainObject.read_eq_own_iff.mp hread
      by_cases hname : name = property.id
      · subst hname
        simp [hown, get_set]
      · simp [hname, get_set, Ne.symm hname]

/-- What a planned object write says: it is on the object the effect names, which exists unless it is created, and
persists the evaluated properties. -/
structure PlannedFrom (database : ObjectStore ν) (scope : NodeOntologyScope) (args : OntologyRecord ν)
    (effect : ObjectWriteEffect) (write : PlannedWrite ν) : Prop where
  object : effectObject scope args effect = some write.object
  kind : write.kind = effect.kind
  existing : effect.kind = .create ↔ database.objects.get? write.object = none
  properties : effect.kind ≠ .delete → ∃ entity, scope.entities.get effect.entity = some entity ∧
    ∀ name, JsMap.get write.properties name =
      evaluatedProperty entity args ((database.objects.get? write.object).elim [] (·.properties)) name

variable {write : PlannedWrite ν}

theorem PlannedFrom.exists_existing {database : ObjectStore ν} {scope : NodeOntologyScope} {args : OntologyRecord ν}
    {effect : ObjectWriteEffect} (h : PlannedFrom database scope args effect write)
    (hkind : effect.kind ≠ .create) : ∃ old, database.objects.get? write.object = some old :=
  Option.ne_none_iff_exists'.mp fun hnone => hkind (h.existing.mpr hnone)

omit [JsNumber ν] in
theorem evaluatedProperty_set_primaryKey {entity : OntologyEntity} {primaryKey : EnterpriseId}
    (hkey : primaryKeyOf entity = some primaryKey) {args before assigned : OntologyRecord ν}
    {identity : OntologyValue ν} (hidentity : JsMap.get args primaryKey = some identity)
    (hassigned : ∀ name, JsMap.get assigned name = evaluatedProperty entity args before name) (name : EnterpriseId) :
    JsMap.get (assigned.set primaryKey identity) name = evaluatedProperty entity args before name := by
  rw [JsMap.get_set]
  split
  · rename_i hname
    subst hname
    have hdeclared : primaryKey ∈ entity.properties.map (·.id) := by
      simp only [primaryKeyOf, Option.map_eq_some_iff] at hkey
      obtain ⟨property, hfind, rfl⟩ := hkey
      exact mem_map_of_mem (mem_of_find?_eq_some hfind)
    rw [evaluatedProperty, if_pos hdeclared, hidentity, Option.some_or]
  · exact hassigned name

/-- The object an effect names: the value under the parameter it is read from identifies it by the primary key. -/
structure Identified (scope : NodeOntologyScope) (action : OntologyAction) (args : OntologyRecord ν)
    (entityId parameterId objectId : JsString) (entity : OntologyEntity) (primaryKey : EnterpriseId) : Prop where
  declared : scope.entities.get entityId = some entity
  key : primaryKeyOf entity = some primaryKey
  read : ∃ identity, JsMap.get args parameterId = some identity ∧ identity.identity? = some objectId ∧
    identityError action entity entityId primaryKey parameterId identity = none

section

variable {database : ObjectStore ν} {scope : NodeOntologyScope} {action : OntologyAction} {args : OntologyRecord ν}
  {effect : ObjectWriteEffect}

theorem planEffect_cases (h : planEffect database scope action args effect consumed = .ok (write, consumed')) :
    ∃ entity primaryKey, Identified scope action args effect.entity primaryKey write.object.objectId entity primaryKey ∧
      write.object = ⟨scope.treeId, effect.entity, write.object.objectId⟩ ∧ write.kind = effect.kind ∧
      (effect.kind = .create ↔ database.objects.get? write.object = none) ∧
      (effect.kind ≠ .delete → ∃ identity assigned,
        JsMap.get args primaryKey = some identity ∧ write.properties = assigned.set primaryKey identity ∧
        assignProperties action effect.entity args entity.properties
          ((database.objects.get? write.object).elim [] (·.properties)) (consumed ++ [primaryKey]) =
            .ok (assigned, consumed') ∧
        missingProperties scope entity effect.entity write.properties = []) := by
  unfold planEffect at h
  simp only at h
  split at h
  · cases h
  next entity hentity =>
  split at h
  · cases h
  next primaryKey hkey =>
  split at h
  · cases h
  · cases h
  next identity hread =>
  have hidentity := PlainObject.read_eq_own_iff.mp hread
  split at h
  · cases h
  next objectId hid =>
  split at h
  · cases h
  next hvalid =>
  refine ⟨entity, primaryKey, ?_⟩
  split at h
  · cases h
  next hkind hexisting =>
    cases h
    refine ⟨⟨hentity, hkey, identity, hidentity, hid, hvalid⟩, rfl, hkind.symm, ?_, fun hne => absurd hkind hne⟩
    rw [hkind]
    simp [getOntologyObjectIn] at hexisting
    simp [hexisting]
  · cases h
  · cases h
  next hmissing hdelete hupdate hcreate =>
  split at h
  · cases h
  next assigned consumed₂ hassign =>
  split at h
  next hset =>
    cases h
    refine ⟨⟨hentity, hkey, identity, hidentity, hid, hvalid⟩, rfl, rfl, ⟨fun hkind => ?_, fun hnone => ?_⟩,
      fun _ => ⟨identity, assigned, hidentity, rfl, hassign, isEmpty_iff.mp hset⟩⟩
    · cases hexisting : getOntologyObjectIn database ⟨scope.treeId, effect.entity, objectId⟩ with
      | none => exact hexisting
      | some row => exact (hcreate row hkind hexisting).elim
    · cases hkind : effect.kind with
      | create => rfl
      | update => exact (hupdate hkind hnone).elim
      | delete => exact (hmissing hkind hnone).elim
  · cases h

theorem planEffect_ok (h : planEffect database scope action args effect consumed = .ok (write, consumed')) :
    PlannedFrom database scope args effect write := by
  obtain ⟨entity, primaryKey, ⟨hentity, hkey, identity, hidentity, hid, -⟩, hobject, hkind, hexisting, hassigned⟩ :=
    planEffect_cases h
  refine ⟨?_, hkind, hexisting, fun hne => ?_⟩
  · rw [hobject]
    simp [effectObject, namedObjectId, hentity, hkey, hidentity, hid]
  · obtain ⟨identity, assigned, hidentity, hproperties, hassign, -⟩ := hassigned hne
    rw [hproperties]
    exact ⟨entity, hentity, evaluatedProperty_set_primaryKey hkey hidentity (assignProperties_ok hassign)⟩

variable {relationship runs entityId parameterId objectId : JsString} {parameter : Option JsString}
  {taken : List JsString}

theorem resolveEndpoint_cases
    (h : resolveEndpoint scope action args relationship runs entityId parameter taken = .ok (parameterId, objectId)) :
    ∃ entity primaryKey, Identified scope action args entityId parameterId objectId entity primaryKey ∧
      parameterId = parameter.getD primaryKey ∧ parameterId ∉ taken := by
  unfold resolveEndpoint at h
  simp only at h
  split at h
  · cases h
  next entity hentity =>
  split at h
  · cases h
  next primaryKey hkey =>
  split at h
  · cases h
  next hfresh =>
  split at h
  · cases h
  · cases h
  next value hread =>
  split at h
  · cases h
  next objectId' hid =>
  split at h
  · cases h
  next hvalid =>
  cases h
  exact ⟨entity, primaryKey, ⟨hentity, hkey, value, PlainObject.read_eq_own_iff.mp hread, hid, hvalid⟩, rfl, hfresh⟩

theorem resolveEndpoint_ok
    (h : resolveEndpoint scope action args relationship runs entityId parameter taken = .ok (parameterId, objectId)) :
    namedObjectId scope args entityId parameter = some objectId := by
  obtain ⟨entity, primaryKey, ⟨hentity, hkey, value, hvalue, hid, -⟩, rfl, -⟩ := resolveEndpoint_cases h
  simp [namedObjectId, hentity, hkey, hvalue, hid]

end

theorem planLinkEffect_ok {scope : NodeOntologyScope} {action : OntologyAction} {args : OntologyRecord ν}
    {effect : OntologyLinkEffect} {link : PlannedLink}
    (h : planLinkEffect scope action args effect consumed = .ok (link, consumed')) :
    link.kind = effect.kind ∧ effectEdge scope args effect = some link.edge := by
  unfold planLinkEffect at h
  simp only at h
  split at h
  · cases h
  next relationship hrelationship =>
  split at h
  · cases h
  next fromParameter fromObjectId hfrom =>
  split at h
  · cases h
  next toParameter toObjectId hto =>
  cases h
  refine ⟨rfl, ?_⟩
  simp [effectEdge, hrelationship, resolveEndpoint_ok hfrom, resolveEndpoint_ok hto]

structure WellTargeted (targets : JsMap JsString (PlannedWrite ν)) : Prop where
  named : ∀ entry ∈ targets, entry.1 = targetOf entry.2.object
  distinct : (targets.map (·.1)).Nodup

omit [JsNumber ν] in
theorem WellTargeted.nodup {targets : JsMap JsString (PlannedWrite ν)} (h : WellTargeted targets) :
    (targets.map (·.2.object)).Nodup := by
  have hnames : targets.map (·.1) = (targets.map (·.2.object)).map targetOf := by
    rw [map_map]
    exact map_congr_left h.named
  exact (hnames ▸ h.distinct).of_map targetOf

theorem planWrites_ok {database : ObjectStore ν} {scope : NodeOntologyScope} {action : OntologyAction}
    {args : OntologyRecord ν} {effects : List ObjectWriteEffect} {targets targets' : JsMap JsString (PlannedWrite ν)}
    (hwell : WellTargeted targets)
    (h : planWrites database scope action args effects targets consumed = .ok (targets', consumed')) :
    WellTargeted targets' ∧ ∃ writes, targets'.map (·.2) = targets.map (·.2) ++ writes ∧
      List.Forall₂ (PlannedFrom database scope args) effects writes := by
  induction effects generalizing targets consumed with
  | nil =>
    cases h
    exact ⟨hwell, [], by simp, .nil⟩
  | cons effect effects ih =>
    unfold planWrites at h
    simp only at h
    split at h
    · cases h
    next write consumed₁ hplan =>
    split at h
    · cases h
    next hfresh =>
    have hnone : targets.get (targetOf write.object) = none := by simpa using hfresh
    rw [set_of_get_none hnone] at h
    have hwell' : WellTargeted (targets ++ [(targetOf write.object, write)]) := by
      constructor
      · intro entry hentry
        rcases mem_append.mp hentry with hin | hnew
        · exact hwell.named entry hin
        · rw [mem_singleton.mp hnew]
      · rw [map_append, nodup_append]
        refine ⟨hwell.distinct, by simp, fun a ha b hb hab => ?_⟩
        rw [map_singleton, mem_singleton] at hb
        obtain rfl : a = targetOf write.object := hab.trans hb
        exact get_eq_none_iff.mp hnone ha
    obtain ⟨hwell'', writes, hwrites, hplanned⟩ := ih hwell' h
    refine ⟨hwell'', write :: writes, ?_, .cons (planEffect_ok hplan) hplanned⟩
    rw [hwrites, map_append, append_assoc]
    rfl

theorem planLinks_ok {scope : NodeOntologyScope} {action : OntologyAction} {args : OntologyRecord ν}
    {effects : List OntologyLinkEffect} {links links' : List PlannedLink}
    (h : planLinks scope action args effects links consumed = .ok (links', consumed')) :
    ∃ planned, links' = links ++ planned ∧
      List.Forall₂ (fun effect link => link.kind = effect.kind ∧ effectEdge scope args effect = some link.edge)
        effects planned := by
  induction effects generalizing links consumed with
  | nil =>
    cases h
    exact ⟨[], by simp, .nil⟩
  | cons effect effects ih =>
    unfold planLinks at h
    split at h
    · cases h
    next link consumed₁ hplan =>
    obtain ⟨planned, rfl, hplanned⟩ := ih h
    exact ⟨link :: planned, by simp, .cons (planLinkEffect_ok hplan) hplanned⟩

/-! ## What a plan does to the tables -/

section Tables

omit [JsNumber ν]

variable (now : Nat)

def writeObjects (objects : KeyedTable (ObjectRow.key (ν := ν))) (write : PlannedWrite ν) :
    KeyedTable (ObjectRow.key (ν := ν)) :=
  match write.kind with
  | .delete => objects.deleteWhere (·.key = write.object)
  | _ => objects.upsert ⟨write.object, write.properties, (objects.get? write.object).elim now (·.createdAt), now⟩

def writtenRow (write : PlannedWrite ν) (row : Option (ObjectRow ν)) : Option (ObjectRow ν) :=
  match write.kind with
  | .delete => none
  | _ => some ⟨write.object, write.properties, row.elim now (·.createdAt), now⟩

theorem actsAt_writeObjects : KeyedTable.ActsAt (writeObjects (ν := ν) now) PlannedWrite.object (writtenRow now) := by
  intro objects write object
  have hupsert := get?_upsert objects
    ⟨write.object, write.properties, (objects.get? write.object).elim now (·.createdAt), now⟩ object
  unfold writeObjects writtenRow
  cases write.kind with
  | delete => exact get?_deleteKey objects write.object object
  | create | update =>
    simp only [hupsert]
    split
    · rename_i hobject
      rw [hobject]
    · rfl

def writeLinks (links : KeyedTable LinkRow.key) (link : PlannedLink) : KeyedTable LinkRow.key :=
  match link.kind with
  | .unlink => links.deleteWhere (·.key = link.edge.key)
  | .link => links.insert ⟨link.edge, now⟩

def linkedRow (link : PlannedLink) (row : Option LinkRow) : Option LinkRow :=
  match link.kind with
  | .unlink => none
  | .link => some (row.getD ⟨link.edge, now⟩)

theorem actsAt_writeLinks : KeyedTable.ActsAt (writeLinks now) (·.edge.key) (linkedRow now) := by
  intro links link key
  unfold writeLinks linkedRow
  cases link.kind with
  | unlink => exact get?_deleteKey links link.edge.key key
  | link => exact get?_insert links ⟨link.edge, now⟩ key

def deletesEndOf (writes : List (PlannedWrite ν)) (edge : OntologyEdge) : Bool :=
  writes.any fun write => write.kind = .delete && edge.touches write.object

theorem links_applyWrites (writes : List (PlannedWrite ν)) (database : ObjectStore ν) (key : LinkKey) :
    (writes.foldl (applyWrite now) database).links.get? key =
      (database.links.get? key).filter fun row => !deletesEndOf writes row.edge := by
  induction writes generalizing database with
  | nil =>
    change database.links.get? key = _
    cases database.links.get? key <;> rfl
  | cons write writes ih =>
    rw [foldl_cons, ih]
    unfold applyWrite
    cases hkind : write.kind with
    | delete =>
      simp only [links_deleteOntologyObject, Option.filter_filter]
      refine congrArg (Option.filter · _) (funext fun row => ?_)
      simp [deletesEndOf, hkind]
    | create | update =>
      refine congrArg (Option.filter · _) (funext fun row => ?_)
      simp [deletesEndOf, hkind]

theorem objects_apply (plan : ActionPlan ν) (database : ObjectStore ν) :
    (plan.apply database now).objects = plan.writes.foldl (writeObjects now) database.objects := by
  have hlinks : ∀ (links : List PlannedLink) (database : ObjectStore ν),
      (links.foldl (applyLink now) database).objects = database.objects := by
    intro links
    induction links with
    | nil => exact fun _ => rfl
    | cons link links ih =>
      intro database
      rw [foldl_cons, ih]
      unfold applyLink
      cases link.kind <;> rfl
  rw [ActionPlan.apply, hlinks]
  refine (foldl_hom ObjectStore.objects fun database write => ?_).symm
  unfold writeObjects applyWrite
  cases write.kind <;> rfl

theorem links_apply (plan : ActionPlan ν) (database : ObjectStore ν) (key : LinkKey) :
    (plan.apply database now).links.get? key =
      (plan.links.filter (·.edge.key = key)).foldl (fun row link => linkedRow now link row)
        ((database.links.get? key).filter fun row => !deletesEndOf plan.writes row.edge) := by
  have hhom : ∀ database : ObjectStore ν, (plan.links.foldl (applyLink now) database).links =
      plan.links.foldl (writeLinks now) database.links := fun database => by
    refine (foldl_hom ObjectStore.links fun database link => ?_).symm
    unfold writeLinks applyLink
    cases link.kind <;> rfl
  rw [ActionPlan.apply, hhom, get?_foldl (actsAt_writeLinks now), links_applyWrites]

variable {links : List PlannedLink}

theorem linkAfter_of_links {edge : OntologyEdge} {row : Option LinkRow}
    (hlinks : ∀ link ∈ links, link.kind = .link ∧ link.edge = edge) (hrow : ∀ r, row = some r → r.edge = edge)
    (hsome : links ≠ [] ∨ row.isSome) :
    ∃ r, links.foldl (fun row link => linkedRow now link row) row = some r ∧ r.edge = edge := by
  induction links generalizing row with
  | nil =>
    obtain ⟨r, hr⟩ := Option.isSome_iff_exists.mp (hsome.resolve_left (absurd rfl))
    exact ⟨r, hr, hrow r hr⟩
  | cons link links ih =>
    obtain ⟨hkind, hedge⟩ := hlinks link mem_cons_self
    have hlinked : linkedRow now link row = some (row.getD ⟨edge, now⟩) := by rw [linkedRow, hkind, hedge]
    rw [foldl_cons, hlinked]
    refine ih (fun l hl => hlinks l (mem_cons_of_mem _ hl)) (fun r hr => ?_) (Or.inr rfl)
    obtain rfl := Option.some.inj hr
    cases hcase : row with
    | none => rfl
    | some r => exact hrow r hcase

theorem linkAfter_of_unlinks (hlinks : ∀ link ∈ links, link.kind = .unlink)
    (hne : links ≠ []) (row : Option LinkRow) :
    links.foldl (fun row link => linkedRow now link row) row = none := by
  induction links generalizing row with
  | nil => exact absurd rfl hne
  | cons link links ih =>
    have hunlinked : linkedRow now link row = none := by rw [linkedRow, hlinks link mem_cons_self]
    rw [foldl_cons, hunlinked]
    cases links with
    | nil => rfl
    | cons next rest => exact ih (fun l hl => hlinks l (mem_cons_of_mem _ hl)) (cons_ne_nil _ _) none

end Tables

structure FollowsEffects (database : ObjectStore ν) (scope : NodeOntologyScope) (action : OntologyAction)
    (args : OntologyRecord ν) (plan : ActionPlan ν) : Prop where
  writes : List.Forall₂ (PlannedFrom database scope args) (writeEffects action) plan.writes
  distinct : (plan.writes.map (·.object)).Nodup
  links : List.Forall₂ (fun effect link => link.kind = effect.kind ∧ effectEdge scope args effect = some link.edge)
    (linkEffects action) plan.links

theorem planOntologyAction_follows {database : ObjectStore ν} {scope : NodeOntologyScope} {action : OntologyAction}
    {args : OntologyRecord ν} {plan : ActionPlan ν} (h : planOntologyAction database scope action args = .ok plan) :
    FollowsEffects database scope action args plan := by
  obtain ⟨-, consumed, hwrites, hlinks, -⟩ := planOntologyAction_ok h
  obtain ⟨hwell, writes, hplanned, hforall⟩ := planWrites_ok ⟨by simp, by simp⟩ hwrites
  obtain ⟨links, hlinksEq, hlinksForall⟩ := planLinks_ok hlinks
  refine ⟨?_, ?_, ?_⟩
  · rwa [ActionPlan.writes, hplanned]
  · rw [ActionPlan.writes, map_map]
    exact hwell.nodup
  · rwa [hlinksEq]

namespace FollowsEffects

variable {database : ObjectStore ν} {scope : NodeOntologyScope} {action : OntologyAction} {args : OntologyRecord ν}
  {plan : ActionPlan ν} (hp : FollowsEffects database scope action args plan)

include hp

variable {effect : ObjectWriteEffect} {object : ObjectKey}

theorem exists_write (heffect : effect ∈ writeEffects action)
    (hobject : effectObject scope args effect = some object) :
    ∃ write ∈ plan.writes, write.object = object ∧ PlannedFrom database scope args effect write := by
  obtain ⟨write, hwrite, hfrom⟩ := hp.writes.exists_right heffect
  exact ⟨write, hwrite, Option.mem_unique hfrom.object hobject, hfrom⟩

variable {edge : OntologyEdge} {kind : OntologyLinkEffectKind}

theorem namesEdge_iff :
    NamesEdge scope action args kind edge ↔ ∃ link ∈ plan.links, link.kind = kind ∧ link.edge = edge := by
  constructor
  · rintro ⟨effect, heffect, rfl, hedge⟩
    obtain ⟨link, hlink, hkind, hfrom⟩ := hp.links.exists_right heffect
    exact ⟨link, hlink, hkind, Option.mem_unique hfrom hedge⟩
  · rintro ⟨link, hlink, rfl, rfl⟩
    obtain ⟨effect, heffect, hkind, hfrom⟩ := hp.links.exists_left hlink
    exact ⟨effect, heffect, hkind.symm, hfrom⟩

theorem touchesDeleted_iff : TouchesDeleted scope action args edge ↔ deletesEndOf plan.writes edge := by
  simp only [deletesEndOf, any_eq_true, Bool.and_eq_true, decide_eq_true_eq]
  constructor
  · rintro ⟨effect, heffect, hkind, object, hobject, htouches⟩
    obtain ⟨write, hwrite, rfl, hfrom⟩ := hp.exists_write heffect hobject
    exact ⟨write, hwrite, hfrom.kind.trans hkind, htouches⟩
  · rintro ⟨write, hwrite, hkind, htouches⟩
    obtain ⟨effect, heffect, hfrom⟩ := hp.writes.exists_left hwrite
    exact ⟨effect, heffect, hfrom.kind.symm.trans hkind, _, hfrom.object, htouches⟩

variable (now : Nat)

theorem object_after (hwrite : write ∈ plan.writes) : (plan.apply database now).objects.get? write.object =
      writtenRow now write (database.objects.get? write.object) := by
  rw [objects_apply]
  exact get?_foldl_of_nodup (actsAt_writeObjects now) hp.distinct hwrite _

theorem otherObject_after (hobject : ¬ NamesObject scope action args object) :
    (plan.apply database now).objects.get? object = database.objects.get? object := by
  rw [objects_apply]
  refine get?_foldl_of_forall_ne (actsAt_writeObjects now) (fun write hwrite hsame => hobject ?_) _
  obtain ⟨effect, heffect, hfrom⟩ := hp.writes.exists_left hwrite
  exact ⟨effect, heffect, hsame ▸ hfrom.object⟩

section

variable (heffect : effect ∈ writeEffects action)

include heffect

theorem created_after (hkind : effect.kind = .create) (hobject : effectObject scope args effect = some object) :
    database.objects.get? object = none ∧ ∃ entity row, scope.entities.get effect.entity = some entity ∧
        (plan.apply database now).objects.get? object = some row ∧
          ∀ name, JsMap.get row.properties name = evaluatedProperty entity args [] name := by
  obtain ⟨write, hwrite, rfl, hfrom⟩ := hp.exists_write heffect hobject
  have hnone := hfrom.existing.mp hkind
  obtain ⟨entity, hentity, hproperties⟩ := hfrom.properties (by rw [hkind]; decide)
  rw [hnone] at hproperties
  refine ⟨hnone, entity, ⟨write.object, write.properties, now, now⟩, hentity, ?_, hproperties⟩
  rw [hp.object_after now hwrite, writtenRow, hfrom.kind, hkind, hnone]
  rfl

theorem updated_after (hkind : effect.kind = .update) (hobject : effectObject scope args effect = some object) :
    ∃ entity old row, scope.entities.get effect.entity = some entity ∧ database.objects.get? object = some old ∧
      (plan.apply database now).objects.get? object = some row ∧ row.createdAt = old.createdAt ∧
        ∀ name, JsMap.get row.properties name = evaluatedProperty entity args old.properties name := by
  obtain ⟨write, hwrite, rfl, hfrom⟩ := hp.exists_write heffect hobject
  obtain ⟨old, hold⟩ := hfrom.exists_existing (by rw [hkind]; decide)
  obtain ⟨entity, hentity, hproperties⟩ := hfrom.properties (by rw [hkind]; decide)
  rw [hold] at hproperties
  refine ⟨entity, old, ⟨write.object, write.properties, old.createdAt, now⟩, hentity, hold, ?_, rfl, hproperties⟩
  rw [hp.object_after now hwrite, writtenRow, hfrom.kind, hkind, hold]
  rfl

theorem deleted_after (hkind : effect.kind = .delete) (hobject : effectObject scope args effect = some object) :
    (database.objects.get? object).isSome ∧ (plan.apply database now).objects.get? object = none := by
  obtain ⟨write, hwrite, rfl, hfrom⟩ := hp.exists_write heffect hobject
  obtain ⟨old, hold⟩ := hfrom.exists_existing (by rw [hkind]; decide)
  refine ⟨Option.isSome_iff_exists.mpr ⟨old, hold⟩, ?_⟩
  rw [hp.object_after now hwrite, writtenRow, hfrom.kind, hkind]

end

/-! ### Edges -/

variable {link : PlannedLink}

theorem edge_eq_of_key (hedge : NamesEdge scope action args kind edge) (hlink : link ∈ plan.links)
    (hkey : link.edge.key = edge.key) : link.edge = edge := by
  obtain ⟨effect, -, -, hnamed⟩ := hedge
  obtain ⟨effect', -, -, hfrom⟩ := hp.links.exists_left hlink
  exact effectEdge_eq_of_key hfrom hnamed hkey

theorem kind_of_unopposed (hunopposed : ∀ edge, NamesEdge scope action args .link edge →
      ¬ NamesEdge scope action args .unlink edge) (hedge : NamesEdge scope action args kind edge)
    (hlink : link ∈ plan.links.filter (·.edge.key = edge.key)) : link.kind = kind ∧ link.edge = edge := by
  simp only [mem_filter, decide_eq_true_eq] at hlink
  have hsame := hp.edge_eq_of_key hedge hlink.1 hlink.2
  have hnamed : NamesEdge scope action args link.kind edge := hp.namesEdge_iff.mpr ⟨link, hlink.1, rfl, hsame⟩
  refine ⟨?_, hsame⟩
  by_contra hne
  cases hkind : link.kind <;> cases kind <;> rw [hkind] at hnamed hne
  · exact hne rfl
  · exact hunopposed edge hnamed hedge
  · exact hunopposed edge hedge hnamed
  · exact hne rfl

omit [JsNumber ν] hp in
theorem filter_ne_nil {key : LinkKey} (hlink : link ∈ plan.links) (hkey : link.edge.key = key) :
    plan.links.filter (·.edge.key = key) ≠ [] :=
  ne_nil_of_mem (mem_filter.mpr ⟨hlink, decide_eq_true hkey⟩)

theorem unlinked_after (hunopposed : ∀ edge, NamesEdge scope action args .link edge →
      ¬ NamesEdge scope action args .unlink edge) (hedge : NamesEdge scope action args .unlink edge) :
    (plan.apply database now).links.get? edge.key = none := by
  obtain ⟨link, hlink, -, rfl⟩ := hp.namesEdge_iff.mp hedge
  rw [links_apply]
  exact linkAfter_of_unlinks now (fun l hl => (hp.kind_of_unopposed hunopposed hedge hl).1) (filter_ne_nil hlink rfl) _

theorem linked_after (hunaliased : UnaliasedEdges scope action args database)
    (hedge : NamesEdge scope action args .link edge) :
    ∃ row, (plan.apply database now).links.get? edge.key = some row ∧ row.edge = edge := by
  obtain ⟨link, hlink, -, rfl⟩ := hp.namesEdge_iff.mp hedge
  rw [links_apply]
  refine linkAfter_of_links now (fun l hl => hp.kind_of_unopposed hunaliased.unopposed hedge hl) (fun row hrow => ?_)
    (Or.inl (filter_ne_nil hlink rfl))
  obtain ⟨hrow, hkept⟩ := Option.filter_eq_some_iff.mp hrow
  obtain ⟨hmem, hkey⟩ := get?_eq_some_iff.mp hrow
  refine (hunaliased.separate _ _ hedge row hmem hkey).resolve_right fun htouches => ?_
  rw [hp.touchesDeleted_iff.mp htouches] at hkept
  cases hkept

theorem otherKey_after {row : LinkRow} (hkey : ∀ link ∈ plan.links, link.edge.key ≠ row.key)
    (htouches : ¬ TouchesDeleted scope action args row.edge) :
    row ∈ (plan.apply database now).links ↔ row ∈ database.links := by
  have hnone : plan.links.filter (·.edge.key = row.key) = [] := by
    rw [filter_eq_nil_iff]
    intro link hlink
    simpa using hkey link hlink
  have hkept : deletesEndOf plan.writes row.edge = false := by
    simpa using fun h => htouches (hp.touchesDeleted_iff.mpr h)
  rw [mem_iff_get?, mem_iff_get?, links_apply, hnone, foldl_nil, Option.filter_eq_some_iff]
  simp [hkept]

theorem otherEdge_after (hunaliased : UnaliasedEdges scope action args database) {row : LinkRow}
    (hrow : ∀ kind, ¬ NamesEdge scope action args kind row.edge)
    (htouches : ¬ TouchesDeleted scope action args row.edge) :
    row ∈ (plan.apply database now).links ↔ row ∈ database.links := by
  by_cases hkey : ∀ link ∈ plan.links, link.edge.key ≠ row.key
  · exact hp.otherKey_after now hkey htouches
  -- under a key the action writes, the edge was not there before and is not there afterwards
  push Not at hkey
  obtain ⟨link, hlink, hkey⟩ := hkey
  have hnamed : NamesEdge scope action args link.kind link.edge := hp.namesEdge_iff.mpr ⟨link, hlink, rfl, rfl⟩
  have hne : row.edge ≠ link.edge := fun hsame => hrow link.kind (hsame ▸ hnamed)
  have hbefore : row ∉ database.links := fun hmem =>
    hne ((hunaliased.separate _ _ hnamed row hmem hkey.symm).resolve_right htouches)
  have hafter : row ∉ (plan.apply database now).links := by
    intro hmem
    cases hkind : link.kind with
    | link =>
      rw [hkind] at hnamed
      obtain ⟨linked, hlinked, hsame⟩ := hp.linked_after now hunaliased hnamed
      obtain ⟨hmem', hkey'⟩ := get?_eq_some_iff.mp hlinked
      rw [eq_of_key hmem hmem' (hkey.symm.trans hkey'.symm)] at hne
      exact hne hsame
    | unlink =>
      rw [hkind] at hnamed
      exact get?_eq_none_iff.mp (hp.unlinked_after now hunaliased.unopposed hnamed) row hmem hkey.symm
  exact iff_of_false hafter hbefore

end FollowsEffects

/-- An object type whose instances are told apart by the given property. -/
def entityKeyedBy (id key : String) : OntologyEntity where
  id := js id
  properties := [{ id := js key, type := .id, primaryKey := true, required := true }]

def ownAccount (id holder key : String) (account : List OntologyActionEffect) : OntologyAction where
  id := js id
  parameters := [{ id := js key, type := .id }, { id := js "accountid", type := .id }]
  effects := [.object (js holder) .create] ++ account ++ [.graph .link (js "owns") none none]

def openAccount : OntologyAction :=
  ownAccount "open" "customer" "customerid" [.object (js "account") .create]

/-- Vendors take over accounts that exist. -/
def assignAccount : OntologyAction :=
  ownAccount "assign" "vendor" "vendorid" []

def owningStep (id holder key : String) (action : OntologyAction) : WorkflowNodeDefinition where
  id := js id
  title := js id
  ontology :=
    { entities := [entityKeyedBy holder key, entityKeyedBy "account" "accountid"]
      relationships := [{ id := js "owns", fromEntity := js holder, toEntity := js "account" }]
      actions := [action] }

/-- Customers are sold accounts. -/
def sellStep : WorkflowNodeDefinition :=
  owningStep "sell" "customer" "customerid" openAccount

/-- Vendors are assigned accounts. -/
def supplyStep : WorkflowNodeDefinition :=
  owningStep "supply" "vendor" "vendorid" assignAccount

/-- Two steps that declare `owns` between different object types. -/
def ownsTree : WorkflowTreeDefinition where
  id := js "ledger"
  version := js "1.0.0"
  name := js "Ledger"
  root := { id := js "root", title := js "Ledger", children := [sellStep, supplyStep] }

def ownsRun (step : WorkflowNodeDefinition) : EnterpriseActiveRun where
  plan :=
    { runId := js "run"
      treeId := ownsTree.id
      nodes := flattenPlanNodes ownsTree.root none
      activeNodeId := step.id }
  treeRequiredProperties := collectTreeRequiredProperties ownsTree

def ownsScope (step : WorkflowNodeDefinition) : NodeOntologyScope :=
  nodeOntologyScope (ownsRun step) { nodeId := step.id, ontology := step.ontology }

def holderArgs (key holder account : String) : OntologyRecord Int :=
  [(js key, .string (js holder)), (js "accountid", .string (js account))]

def soldStore : ObjectStore Int :=
  (invokeOntologyAction .empty (ownsScope sellStep) openAccount (holderArgs "customerid" "1" "9") 0).1

def vendorEdge : OntologyEdge :=
  ⟨js "ledger", js "owns", js "vendor", js "1", js "account", js "9"⟩

end ClawWorks
