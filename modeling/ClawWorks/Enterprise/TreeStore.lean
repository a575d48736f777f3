import ClawWorks.Enterprise.ObjectStore
import Mathlib.Data.List.MinMax
import Mathlib.Data.List.Sort

/-!
# The tree store

Imported trees live in one table, every saved definition in another that only grows. A save checks its precondition,
snapshots what it overwrites, writes the live row and records it as the next revision, in one transaction.
-/

namespace ClawWorks

open KeyedTable

/-! ## Rows -/

/-- A live definition. -/
structure EnterpriseTreeRow where
  treeId : EnterpriseId
  version : JsString
  name : JsString
  definitionJson : JsString
  sourceFormat : JsString
  importedAt : Nat
  updatedAt : Nat

structure TreeRevisionKey where
  treeId : EnterpriseId
  revision : Nat
  deriving DecidableEq

/-- A recorded definition. -/
structure EnterpriseTreeVersionRow where
  key : TreeRevisionKey
  version : JsString
  name : JsString
  definitionJson : JsString
  sourceFormat : JsString
  savedAt : Nat
  deriving DecidableEq

structure BundledFoundationKey where
  treeId : EnterpriseId
  foundationId : JsString
  deriving DecidableEq

structure BundledFoundationRow where
  key : BundledFoundationKey
  descriptorJson : JsString
  snippetsJson : JsString
  importedAt : Nat
  updatedAt : Nat

structure BundledKnowledgeFoundation where
  id : JsString
  descriptorJson : JsString
  snippetsJson : JsString

/-- The tables a tree owns rows of. -/
structure EnterpriseDatabase (ν : Type) where
  trees : KeyedTable EnterpriseTreeRow.treeId
  versions : KeyedTable EnterpriseTreeVersionRow.key
  knowledge : KeyedTable BundledFoundationRow.key
  objects : ObjectStore ν

variable {ν η : Type}

/-- The database before the first import; trees that are code may have objects already. -/
def EnterpriseDatabase.empty (objects : ObjectStore ν) : EnterpriseDatabase ν :=
  ⟨KeyedTable.empty, KeyedTable.empty, KeyedTable.empty, objects⟩

/-- How definitions are written, read back and hashed; `η` is the type of digests. -/
structure TreeCodec (η : Type) where
  /-- `JSON.stringify`. -/
  stringify : WorkflowTreeDefinition → JsString
  /-- `JSON.parse`, then validation. -/
  parse : JsString → Option WorkflowTreeDefinition
  hashWorkflowTree : WorkflowTreeDefinition → η
  /-- The digest of the knowledge rows of a tree, by foundation id. -/
  hashKnowledge : List BundledFoundationRow → η
  fingerprintEnterpriseTreeRow : EnterpriseTreeRow → η

inductive WorkflowTreeSourceFormat
  | yaml
  | json
  deriving Repr

/-- A format as a row spells it. -/
def WorkflowTreeSourceFormat.text : WorkflowTreeSourceFormat → JsString
  | .yaml => js "yaml"
  | .json => js "json"

def parseSourceFormat (value : JsString) : Option WorkflowTreeSourceFormat :=
  if value = js "yaml" then some .yaml else if value = js "json" then some .json else none

variable (codec : TreeCodec η)

/-- Read a live row; nothing when it is corrupt. -/
def rowToRecord (row : EnterpriseTreeRow) : Option WorkflowTreeDefinition := do
  let tree ← codec.parse row.definitionJson
  if tree.id ≠ row.treeId then none
  else (parseSourceFormat row.sourceFormat).map fun _ => tree

/-- Would a row be readable from the history? -/
def isRestorableTreeRow (row : EnterpriseTreeRow) : Bool :=
  (parseSourceFormat row.sourceFormat).isSome && (codec.parse row.definitionJson).any (·.id = row.treeId)

variable (database : EnterpriseDatabase ν) (treeId : EnterpriseId)

def latestVersion : Option EnterpriseTreeVersionRow :=
  (database.versions.rows.filter (·.key.treeId = treeId)).argmax (·.key.revision)

/-- The number of the newest revision, zero without one. -/
def maxRevision : Nat :=
  (latestVersion database treeId).elim 0 (·.key.revision)

def recordRevision (row : EnterpriseTreeRow) (savedAt : Nat) : EnterpriseDatabase ν :=
  { database with
    versions := database.versions.insert
      ⟨⟨row.treeId, maxRevision database row.treeId + 1⟩, row.version, row.name, row.definitionJson, row.sourceFormat,
        savedAt⟩ }

/-- Snapshot the live row when it is readable and not the latest revision already. -/
def snapshotCurrentTreeRow : EnterpriseDatabase ν :=
  match database.trees.get? treeId with
  | none => database
  | some row =>
    if !isRestorableTreeRow codec row then database
    else if (latestVersion database treeId).any (·.definitionJson = row.definitionJson) then database
    else recordRevision database row row.updatedAt

/-! ## Saving -/

/-- Where a registered tree comes from. -/
inductive TreeSource
  | builtin
  | imported
  deriving DecidableEq

/-- What a save asks of the state it finds under the write lock. -/
inductive UpsertPrecondition (η : Type)
  | createOnly
  | expectedHash (hash : η) (expectedSource : TreeSource)
  | expectedBundleState (treeId : EnterpriseId) (expectedSource : Option TreeSource) (treeHash : Option η)
      (knowledgeFingerprint : η)

inductive UpsertRefusal
  | alreadyExists
  | treeChanged
  | treeUnavailable

def knowledgeRowsOf : List BundledFoundationRow :=
  (database.knowledge.rows.filter (·.key.treeId = treeId)).insertionSort (·.key.foundationId ≤ ·.key.foundationId)

def checkHash [DecidableEq η] (codec : TreeCodec η) (row : EnterpriseTreeRow) (expected : Option η) :
    Option UpsertRefusal :=
  match rowToRecord codec row with
  | none => some .treeUnavailable
  | some tree => if some (codec.hashWorkflowTree tree) ≠ expected then some .treeChanged else none

def checkPrecondition [DecidableEq η] (codec : TreeCodec η) (database : EnterpriseDatabase ν) (treeId : EnterpriseId) :
    UpsertPrecondition η → Option UpsertRefusal
  | .createOnly => if (database.trees.get? treeId).isSome then some .alreadyExists else none
  | .expectedBundleState expectedId expectedSource treeHash knowledgeFingerprint =>
    if expectedId ≠ treeId then some .treeChanged
    else if (database.trees.get? treeId).isSome ≠ decide (expectedSource = some .imported) then some .treeChanged
    else
      match (database.trees.get? treeId).bind fun row => checkHash codec row treeHash with
      | some refusal => some refusal
      | none =>
        if codec.hashKnowledge (knowledgeRowsOf database treeId) ≠ knowledgeFingerprint then some .treeChanged else none
  | .expectedHash hash expectedSource =>
    match database.trees.get? treeId with
    | some row => if expectedSource = .builtin then some .treeChanged else checkHash codec row (some hash)
    | none => if expectedSource = .imported then some .treeChanged else none

def replaceBundledKnowledgeFoundationsForTree
    (foundations : List BundledKnowledgeFoundation) (now : Nat) : Option (EnterpriseDatabase ν) :=
  if (foundations.map (·.id)).Nodup then
    some { database with
      knowledge := foundations.foldl
        (fun knowledge foundation => knowledge.insert
          ⟨⟨treeId, foundation.id⟩, foundation.descriptorJson, foundation.snippetsJson, now, now⟩)
        (database.knowledge.deleteWhere (·.key.treeId = treeId)) }
  else none

structure UpsertParams (η : Type) where
  tree : WorkflowTreeDefinition
  sourceFormat : WorkflowTreeSourceFormat
  now : Nat
  /-- Given by a bundle import only; a plain import leaves the knowledge alone. -/
  bundledFoundations : Option (List BundledKnowledgeFoundation) := none
  precondition : Option (UpsertPrecondition η) := none

/-- What a save comes to. -/
inductive UpsertResult
  | upserted (replacedImported : Bool)
  | refused (reason : UpsertRefusal)
  /-- A statement failed, and the transaction was rolled back. -/
  | threw

variable (params : UpsertParams η)

def savedRow : EnterpriseTreeRow where
  treeId := params.tree.id
  version := params.tree.version
  name := params.tree.name
  definitionJson := codec.stringify params.tree
  sourceFormat := params.sourceFormat.text
  importedAt := (database.trees.get? params.tree.id).elim params.now (·.importedAt)
  updatedAt := params.now

/-- Write the live row and its revision, after a snapshot of what it overwrites. -/
def saveTree : EnterpriseDatabase ν :=
  let row := savedRow codec database params
  let database := snapshotCurrentTreeRow codec database params.tree.id
  recordRevision { database with trees := database.trees.upsert row } row params.now

def upsertEnterpriseWorkflowTree [DecidableEq η] (codec : TreeCodec η) (database : EnterpriseDatabase ν)
    (params : UpsertParams η) : EnterpriseDatabase ν × UpsertResult :=
  match params.precondition.bind (checkPrecondition codec database params.tree.id) with
  | some reason => (database, .refused reason)
  | none =>
    let replacedImported := (database.trees.get? params.tree.id).isSome
    let saved := saveTree codec database params
    match params.bundledFoundations with
    | none => (saved, .upserted replacedImported)
    | some foundations =>
      match replaceBundledKnowledgeFoundationsForTree saved params.tree.id foundations params.now with
      | none => (database, .threw)
      | some saved => (saved, .upserted replacedImported)

def deleteOntologyObjectsForTree (objects : ObjectStore ν) (treeId : EnterpriseId) : ObjectStore ν where
  objects := objects.objects.deleteWhere (·.key.treeId = treeId)
  links := objects.links.deleteWhere (·.edge.treeId = treeId)

/-- Remove a live row with everything its tree owns; its history stays. Says whether there was a row. -/
def deleteEnterpriseWorkflowTreeIn : EnterpriseDatabase ν × Bool :=
  let snapshot := snapshotCurrentTreeRow codec database treeId
  if (snapshot.trees.get? treeId).isSome then
    ({ trees := snapshot.trees.deleteWhere (·.treeId = treeId)
       versions := snapshot.versions
       knowledge := snapshot.knowledge.deleteWhere (·.key.treeId = treeId)
       objects := deleteOntologyObjectsForTree snapshot.objects treeId }, true)
  else (snapshot, false)

/-- What a guarded removal expects of the live row: its digest, or that it is corrupt in a known way. -/
inductive DeleteExpectation (η : Type)
  | hash (expectedHash : η)
  | invalid (expectedInvalidFingerprint : η)

/-- What a removal comes to. -/
inductive DeleteResult
  | removed
  | notFound
  | treeChanged
  | treeUnavailable
  deriving DecidableEq

/-- The removal of a row whose expected state still holds. -/
def deleteEnterpriseWorkflowTree : EnterpriseDatabase ν × DeleteResult :=
  let (database, removed) := deleteEnterpriseWorkflowTreeIn codec database treeId
  (database, if removed then .removed else .notFound)

/-- Atomically remove an imported row only while its expected state still holds. -/
def deleteEnterpriseWorkflowTreeIfUnchanged [DecidableEq η] (codec : TreeCodec η) (database : EnterpriseDatabase ν)
    (treeId : EnterpriseId) (expected : DeleteExpectation η) : EnterpriseDatabase ν × DeleteResult :=
  match database.trees.get? treeId with
  | none => (database, .notFound)
  | some row =>
    match rowToRecord codec row, expected with
    | none, .hash _ => (database, .treeUnavailable)
    | none, .invalid fingerprint =>
      if codec.fingerprintEnterpriseTreeRow row ≠ fingerprint then (database, .treeChanged)
      else deleteEnterpriseWorkflowTree codec database treeId
    | some _, .invalid _ => (database, .treeChanged)
    | some tree, .hash expectedHash =>
      if codec.hashWorkflowTree tree ≠ expectedHash then (database, .treeChanged)
      else deleteEnterpriseWorkflowTree codec database treeId

/-! ## Restoring -/

def getEnterpriseWorkflowTreeVersion
    (revision : Nat) : Option (WorkflowTreeDefinition × WorkflowTreeSourceFormat) := do
  let row ← database.versions.get? ⟨treeId, revision⟩
  let tree ← codec.parse row.definitionJson
  let format ← parseSourceFormat row.sourceFormat
  return (tree, format)

inductive StoreOperation (η : Type)
  | upsert (params : UpsertParams η)
  /-- Read a recorded revision and save it again. -/
  | restore (treeId : EnterpriseId) (revision now : Nat) (precondition : Option (UpsertPrecondition η))
  | delete (treeId : EnterpriseId)
  | deleteIfUnchanged (treeId : EnterpriseId) (expected : DeleteExpectation η)

/-- What an operation came to. -/
inductive StoreOutcome
  | saved (tree : WorkflowTreeDefinition) (sourceFormat : WorkflowTreeSourceFormat)
  | removed (treeId : EnterpriseId)
  | refused

def UpsertResult.outcome : UpsertResult → StoreOutcome
  | .upserted _ => .saved params.tree params.sourceFormat
  | .refused _ => .refused
  | .threw => .refused

def DeleteResult.outcome : DeleteResult → StoreOutcome
  | .removed => .removed treeId
  | _ => .refused

/-- A save as an operation. -/
def applyUpsert [DecidableEq η] (codec : TreeCodec η) (database : EnterpriseDatabase ν) (params : UpsertParams η) :
    EnterpriseDatabase ν × StoreOutcome :=
  let (database, result) := upsertEnterpriseWorkflowTree codec database params
  (database, result.outcome params)

def applyOperation [DecidableEq η] (codec : TreeCodec η) (database : EnterpriseDatabase ν) :
    StoreOperation η → EnterpriseDatabase ν × StoreOutcome
  | .upsert params => applyUpsert codec database params
  | .restore treeId revision now precondition =>
    match getEnterpriseWorkflowTreeVersion codec database treeId revision with
    | none => (database, .refused)
    | some (tree, sourceFormat) => applyUpsert codec database { tree, sourceFormat, now, precondition }
  | .delete treeId =>
    let (database, result) := deleteEnterpriseWorkflowTree codec database treeId
    (database, result.outcome treeId)
  | .deleteIfUnchanged treeId expected =>
    let (database, result) := deleteEnterpriseWorkflowTreeIfUnchanged codec database treeId expected
    (database, result.outcome treeId)

def runOperations [DecidableEq η] (codec : TreeCodec η) (database : EnterpriseDatabase ν)
    (operations : List (StoreOperation η)) : EnterpriseDatabase ν :=
  operations.foldl (fun database operation => (applyOperation codec database operation).1) database

/-! ## The newest revision -/

section History

variable {database : EnterpriseDatabase ν} {treeId : EnterpriseId}

theorem latestVersion_some {latest : EnterpriseTreeVersionRow} (h : latestVersion database treeId = some latest) :
    latest ∈ database.versions ∧ latest.key.treeId = treeId ∧
      ∀ row ∈ database.versions, row.key.treeId = treeId → row.key.revision ≤ latest.key.revision := by
  have hlatest := List.mem_filter.mp (List.argmax_mem h)
  refine ⟨hlatest.1, by simpa using hlatest.2, fun row hrow hid => ?_⟩
  have hmem : row ∈ database.versions.rows.filter (·.key.treeId = treeId) :=
    List.mem_filter.mpr ⟨hrow, by simpa using hid⟩
  exact List.le_of_mem_argmax (f := fun version => version.key.revision) hmem h

theorem latestVersion_none (h : latestVersion database treeId = none) :
    ∀ row ∈ database.versions, row.key.treeId ≠ treeId := by
  intro row hrow hid
  have hnil := List.argmax_eq_none.mp h
  have hmem : row ∈ database.versions.rows.filter (·.key.treeId = treeId) :=
    List.mem_filter.mpr ⟨hrow, by simpa using hid⟩
  rw [hnil] at hmem
  cases hmem

theorem revision_le_maxRevision {row : EnterpriseTreeVersionRow} (hrow : row ∈ database.versions)
    (hid : row.key.treeId = treeId) : row.key.revision ≤ maxRevision database treeId := by
  unfold maxRevision
  cases hlatest : latestVersion database treeId with
  | none => exact absurd hid (latestVersion_none hlatest row hrow)
  | some latest => exact (latestVersion_some hlatest).2.2 row hrow hid

/-- The revisions of every tree are numbered from one without a gap. -/
def Contiguous (database : EnterpriseDatabase ν) : Prop :=
  ∀ treeId, ∃ count, ∀ revision,
    (∃ row ∈ database.versions, row.key = ⟨treeId, revision⟩) ↔ 1 ≤ revision ∧ revision ≤ count

theorem maxRevision_of_contiguous {count : Nat}
    (h : ∀ revision, (∃ row ∈ database.versions, row.key = ⟨treeId, revision⟩) ↔ 1 ≤ revision ∧ revision ≤ count) :
    maxRevision database treeId = count := by
  unfold maxRevision
  cases hlatest : latestVersion database treeId with
  | none =>
    by_contra hne
    obtain ⟨row, hrow, hkey⟩ := (h count).mpr ⟨Nat.pos_of_ne_zero (Ne.symm hne), le_rfl⟩
    exact latestVersion_none hlatest row hrow (by rw [hkey])
  | some latest =>
    obtain ⟨hmem, hid, hnewest⟩ := latestVersion_some hlatest
    obtain ⟨hpos, hle⟩ := (h latest.key.revision).mp ⟨latest, hmem, by rw [← hid]⟩
    obtain ⟨row, hrow, hkey⟩ := (h count).mpr ⟨hpos.trans hle, le_rfl⟩
    have hcount := hnewest row hrow (by rw [hkey])
    rw [hkey] at hcount
    exact le_antisymm hle hcount

/-- A later state of the store: no recorded revision was changed or removed, and the numbering has no gap if it had
none. -/
structure HistoryExtends (before after : EnterpriseDatabase ν) : Prop where
  kept : ∀ row ∈ before.versions, row ∈ after.versions
  contiguous : Contiguous before → Contiguous after

theorem HistoryExtends.refl (database : EnterpriseDatabase ν) : HistoryExtends database database :=
  ⟨fun _ hrow => hrow, fun h => h⟩

theorem HistoryExtends.trans {a b c : EnterpriseDatabase ν} (hab : HistoryExtends a b) (hbc : HistoryExtends b c) :
    HistoryExtends a c :=
  ⟨fun row hrow => hbc.kept row (hab.kept row hrow), fun h => hbc.contiguous (hab.contiguous h)⟩

theorem HistoryExtends.of_versions {before after : EnterpriseDatabase ν} (h : after.versions = before.versions) :
    HistoryExtends before after := by
  refine ⟨fun row hrow => h ▸ hrow, fun hcontiguous => ?_⟩
  unfold Contiguous
  rw [h]
  exact hcontiguous

def nextVersion (database : EnterpriseDatabase ν) (row : EnterpriseTreeRow) (savedAt : Nat) :
    EnterpriseTreeVersionRow :=
  ⟨⟨row.treeId, maxRevision database row.treeId + 1⟩, row.version, row.name, row.definitionJson, row.sourceFormat,
    savedAt⟩

theorem mem_recordRevision {row : EnterpriseTreeRow} {savedAt : Nat} {version : EnterpriseTreeVersionRow} :
    version ∈ (recordRevision database row savedAt).versions ↔
      version ∈ database.versions ∨ version = nextVersion database row savedAt := by
  refine mem_insert.trans (or_congr_right ⟨fun h => h.1, fun h => ⟨h, fun old hold hkey => ?_⟩⟩)
  have hid : old.key.treeId = row.treeId := congrArg TreeRevisionKey.treeId hkey
  have hrevision : old.key.revision = maxRevision database row.treeId + 1 := congrArg TreeRevisionKey.revision hkey
  have hle := revision_le_maxRevision hold hid
  omega

theorem historyExtends_recordRevision (row : EnterpriseTreeRow) (savedAt : Nat) :
    HistoryExtends database (recordRevision database row savedAt) := by
  refine ⟨fun version hversion => mem_recordRevision.mpr (.inl hversion), fun hcontiguous treeId => ?_⟩
  obtain ⟨count, hcount⟩ := hcontiguous treeId
  by_cases hid : row.treeId = treeId
  · subst hid
    have hmax := maxRevision_of_contiguous hcount
    refine ⟨count + 1, fun revision => ⟨?_, fun hrange => ?_⟩⟩
    · rintro ⟨version, hversion, hkey⟩
      rcases mem_recordRevision.mp hversion with hold | rfl
      · have hrange := (hcount revision).mp ⟨version, hold, hkey⟩
        omega
      · have hrevision : maxRevision database row.treeId + 1 = revision := congrArg TreeRevisionKey.revision hkey
        omega
    · by_cases hlast : revision = count + 1
      · exact ⟨nextVersion database row savedAt, mem_recordRevision.mpr (.inr rfl), by rw [nextVersion, hmax, hlast]⟩
      · obtain ⟨version, hversion, hkey⟩ := (hcount revision).mpr (by omega)
        exact ⟨version, mem_recordRevision.mpr (.inl hversion), hkey⟩
  · refine ⟨count, fun revision => ⟨?_, fun hrange => ?_⟩⟩
    · rintro ⟨version, hversion, hkey⟩
      rcases mem_recordRevision.mp hversion with hold | rfl
      · exact (hcount revision).mp ⟨version, hold, hkey⟩
      · exact absurd (congrArg TreeRevisionKey.treeId hkey) hid
    · obtain ⟨version, hversion, hkey⟩ := (hcount revision).mpr hrange
      exact ⟨version, mem_recordRevision.mpr (.inl hversion), hkey⟩

theorem latestVersion_recordRevision (row : EnterpriseTreeRow) (savedAt : Nat) :
    latestVersion (recordRevision database row savedAt) row.treeId = some (nextVersion database row savedAt) := by
  have hnew : nextVersion database row savedAt ∈ (recordRevision database row savedAt).versions :=
    mem_recordRevision.mpr (.inr rfl)
  cases hlatest : latestVersion (recordRevision database row savedAt) row.treeId with
  | none => exact absurd rfl (latestVersion_none hlatest _ hnew)
  | some latest =>
    obtain ⟨hmem, hid, hnewest⟩ := latestVersion_some hlatest
    rcases mem_recordRevision.mp hmem with hold | rfl
    · have hle := revision_le_maxRevision hold hid
      have hge : maxRevision database row.treeId + 1 ≤ latest.key.revision := hnewest _ hnew rfl
      omega
    · rfl

theorem snapshotCurrentTreeRow_spec (codec : TreeCodec η) (database : EnterpriseDatabase ν) (treeId : EnterpriseId) :
    HistoryExtends database (snapshotCurrentTreeRow codec database treeId) ∧
      (snapshotCurrentTreeRow codec database treeId).trees = database.trees ∧
      (snapshotCurrentTreeRow codec database treeId).knowledge = database.knowledge ∧
      (snapshotCurrentTreeRow codec database treeId).objects = database.objects := by
  unfold snapshotCurrentTreeRow
  split
  · exact ⟨HistoryExtends.refl _, rfl, rfl, rfl⟩
  · split
    · exact ⟨HistoryExtends.refl _, rfl, rfl, rfl⟩
    split
    · exact ⟨HistoryExtends.refl _, rfl, rfl, rfl⟩
    · exact ⟨historyExtends_recordRevision _ _, rfl, rfl, rfl⟩

end History

/-! ## What an operation comes to -/

section Operations

variable {codec : TreeCodec η} {before after : EnterpriseDatabase ν}

structure LiveIsLatest (codec : TreeCodec η) (database : EnterpriseDatabase ν) (tree : WorkflowTreeDefinition)
    (row : EnterpriseTreeRow) (latest : EnterpriseTreeVersionRow) : Prop where
  live : database.trees.get? tree.id = some row
  newest : latestVersion database tree.id = some latest
  definitionJson : row.definitionJson = codec.stringify tree ∧ latest.definitionJson = row.definitionJson
  labels : latest.version = row.version ∧ latest.name = row.name ∧ latest.sourceFormat = row.sourceFormat
  savedAt : latest.savedAt = row.updatedAt

/-- The rows of one tree are gone, and no others. -/
structure TreeRemoved (before after : EnterpriseDatabase ν) (treeId : EnterpriseId) : Prop where
  live : ∀ row, row ∈ after.trees ↔ row ∈ before.trees ∧ row.treeId ≠ treeId
  knowledge : ∀ row, row ∈ after.knowledge ↔ row ∈ before.knowledge ∧ row.key.treeId ≠ treeId
  objects : ∀ row, row ∈ after.objects.objects ↔ row ∈ before.objects.objects ∧ row.key.treeId ≠ treeId
  links : ∀ row, row ∈ after.objects.links ↔ row ∈ before.objects.links ∧ row.edge.treeId ≠ treeId

/-- What the outcome of an operation says about the state it leaves. -/
def OutcomeHolds (codec : TreeCodec η) (before after : EnterpriseDatabase ν) : StoreOutcome → Prop
  | .saved tree sourceFormat =>
    ∃ row latest, LiveIsLatest codec after tree row latest ∧ row.sourceFormat = sourceFormat.text
  | .removed treeId => TreeRemoved before after treeId
  | .refused => after = before

/-- What an operation leaves. -/
structure Kept (codec : TreeCodec η) (before after : EnterpriseDatabase ν) (outcome : StoreOutcome) : Prop where
  history : HistoryExtends before after
  outcome : OutcomeHolds codec before after outcome

theorem Kept.refused (database : EnterpriseDatabase ν) : Kept codec database database .refused :=
  ⟨HistoryExtends.refl database, rfl⟩

theorem saveTree_spec (codec : TreeCodec η) (database : EnterpriseDatabase ν) (params : UpsertParams η) :
    Kept codec database (saveTree codec database params) (.saved params.tree params.sourceFormat) := by
  obtain ⟨hsnapshot, htrees, -, -⟩ := snapshotCurrentTreeRow_spec codec database params.tree.id
  refine ⟨?_, savedRow codec database params, _, ⟨?_, latestVersion_recordRevision _ _, ⟨rfl, rfl⟩, ⟨rfl, rfl, rfl⟩,
    rfl⟩, rfl⟩
  · unfold saveTree
    refine (hsnapshot.trans ?_).trans (historyExtends_recordRevision _ _)
    exact HistoryExtends.of_versions rfl
  · exact (get?_upsert _ _ _).trans (if_pos rfl)

theorem replaceBundledKnowledgeFoundationsForTree_frame {treeId : EnterpriseId}
    {foundations : List BundledKnowledgeFoundation} {now : Nat}
    (h : replaceBundledKnowledgeFoundationsForTree before treeId foundations now = some after) :
    after.trees = before.trees ∧ after.versions = before.versions := by
  unfold replaceBundledKnowledgeFoundationsForTree at h
  split at h
  · cases h
    exact ⟨rfl, rfl⟩
  · cases h

theorem Kept.of_frame {middle : EnterpriseDatabase ν} {tree : WorkflowTreeDefinition}
    {sourceFormat : WorkflowTreeSourceFormat} (h : Kept codec before middle (.saved tree sourceFormat))
    (htrees : after.trees = middle.trees) (hversions : after.versions = middle.versions) :
    Kept codec before after (.saved tree sourceFormat) := by
  obtain ⟨hhistory, row, latest, hlive, hformat⟩ := h
  refine ⟨hhistory.trans (HistoryExtends.of_versions hversions), row, latest,
    ⟨?_, ?_, hlive.definitionJson, hlive.labels, hlive.savedAt⟩, hformat⟩
  · rw [htrees]
    exact hlive.live
  · unfold latestVersion
    rw [hversions]
    exact hlive.newest

/-- **A save that is not refused makes the live definition the newest revision; a refused one does nothing.** -/
theorem applyUpsert_keeps [DecidableEq η] (codec : TreeCodec η) (database : EnterpriseDatabase ν)
    (params : UpsertParams η) :
    Kept codec database (applyUpsert codec database params).1 (applyUpsert codec database params).2 := by
  have hsaved := saveTree_spec codec database params
  unfold applyUpsert upsertEnterpriseWorkflowTree
  cases params.precondition.bind (checkPrecondition codec database params.tree.id) with
  | some reason => exact Kept.refused database
  | none =>
    cases params.bundledFoundations with
    | none => exact hsaved
    | some foundations =>
      dsimp only
      cases hreplaced : replaceBundledKnowledgeFoundationsForTree (saveTree codec database params) params.tree.id
        foundations params.now with
      | none => exact Kept.refused database
      | some replaced =>
        obtain ⟨htrees, hversions⟩ := replaceBundledKnowledgeFoundationsForTree_frame hreplaced
        exact hsaved.of_frame htrees hversions

/-- **A removal takes the live row with what the tree owns, and leaves its history.** -/
theorem deleteEnterpriseWorkflowTree_keeps (codec : TreeCodec η) (database : EnterpriseDatabase ν)
    (treeId : EnterpriseId) :
    Kept codec database (deleteEnterpriseWorkflowTree codec database treeId).1
      ((deleteEnterpriseWorkflowTree codec database treeId).2.outcome treeId) := by
  obtain ⟨hhistory, htrees, hknowledge, hobjects⟩ := snapshotCurrentTreeRow_spec codec database treeId
  unfold deleteEnterpriseWorkflowTree deleteEnterpriseWorkflowTreeIn
  cases hlive : database.trees.get? treeId with
  | none =>
    have hsnapshot : snapshotCurrentTreeRow codec database treeId = database := by
      unfold snapshotCurrentTreeRow
      rw [hlive]
    simp only [hsnapshot, hlive, Option.isSome_none, Bool.false_eq_true, if_false]
    exact Kept.refused database
  | some row =>
    simp only [htrees, hlive, Option.isSome_some, if_true]
    refine ⟨hhistory.trans (HistoryExtends.of_versions rfl),
      ⟨fun row => ?_, fun row => ?_, fun row => ?_, fun row => ?_⟩⟩
    · exact mem_deleteWhere.trans (and_congr_right fun _ => decide_eq_false_iff_not)
    · rw [hknowledge]
      exact mem_deleteWhere.trans (and_congr_right fun _ => decide_eq_false_iff_not)
    · rw [hobjects]
      exact mem_deleteWhere.trans (and_congr_right fun _ => decide_eq_false_iff_not)
    · rw [hobjects]
      exact mem_deleteWhere.trans (and_congr_right fun _ => decide_eq_false_iff_not)

theorem deleteEnterpriseWorkflowTreeIfUnchanged_cases [DecidableEq η] (codec : TreeCodec η)
    (database : EnterpriseDatabase ν) (treeId : EnterpriseId) (expected : DeleteExpectation η) :
    deleteEnterpriseWorkflowTreeIfUnchanged codec database treeId expected =
        deleteEnterpriseWorkflowTree codec database treeId ∨
      ∃ result, deleteEnterpriseWorkflowTreeIfUnchanged codec database treeId expected = (database, result) ∧
        result ≠ .removed := by
  unfold deleteEnterpriseWorkflowTreeIfUnchanged
  split
  · exact .inr ⟨_, rfl, by decide⟩
  · split
    · exact .inr ⟨_, rfl, by decide⟩
    · split
      · exact .inr ⟨_, rfl, by decide⟩
      · exact .inl rfl
    · exact .inr ⟨_, rfl, by decide⟩
    · split
      · exact .inr ⟨_, rfl, by decide⟩
      · exact .inl rfl

/-- **One operation: the history only grows, and its outcome says what it left.** -/
theorem applyOperation_keeps [DecidableEq η] (codec : TreeCodec η) (database : EnterpriseDatabase ν)
    (operation : StoreOperation η) :
    Kept codec database (applyOperation codec database operation).1 (applyOperation codec database operation).2 := by
  cases operation with
  | upsert params => exact applyUpsert_keeps codec database params
  | restore treeId revision now precondition =>
    simp only [applyOperation]
    cases getEnterpriseWorkflowTreeVersion codec database treeId revision with
    | none => exact Kept.refused database
    | some version => exact applyUpsert_keeps codec database _
  | delete treeId => exact deleteEnterpriseWorkflowTree_keeps codec database treeId
  | deleteIfUnchanged treeId expected =>
    simp only [applyOperation]
    rcases deleteEnterpriseWorkflowTreeIfUnchanged_cases codec database treeId expected with h | ⟨result, h, hresult⟩
    · rw [h]
      exact deleteEnterpriseWorkflowTree_keeps codec database treeId
    · rw [h]
      cases result with
      | removed => exact absurd rfl hresult
      | notFound | treeChanged | treeUnavailable => exact Kept.refused database

theorem historyExtends_runOperations [DecidableEq η] (codec : TreeCodec η) (operations : List (StoreOperation η))
    (database : EnterpriseDatabase ν) : HistoryExtends database (runOperations codec database operations) := by
  induction operations generalizing database with
  | nil => exact HistoryExtends.refl database
  | cons operation operations ih => exact (applyOperation_keeps codec database operation).history.trans (ih _)

theorem contiguous_empty (objects : ObjectStore ν) : Contiguous (.empty objects) := by
  intro treeId
  refine ⟨0, fun revision => ⟨?_, fun hrange => ?_⟩⟩
  · rintro ⟨row, hrow, -⟩
    exact absurd hrow (KeyedTable.not_mem_empty row)
  · omega

/-- **The history of the trees is append-only.** However the operations are ordered: the revisions of a tree are
numbered from one without a gap; a recorded revision is found unchanged after any operations that follow; a successful
save leaves the live definition as the newest revision; a removal takes the live row and what the tree owns and no
other rows; and a refused operation leaves every table as it was. -/
theorem history_appendOnly [DecidableEq η] (codec : TreeCodec η) (earlier later : List (StoreOperation η))
    (objects : ObjectStore ν) :
    Contiguous (runOperations codec (.empty objects) earlier) ∧
      (∀ key row, (runOperations codec (.empty objects) earlier).versions.get? key = some row →
        (runOperations codec (.empty objects) (earlier ++ later)).versions.get? key =
          some row) ∧
      ∀ (database : EnterpriseDatabase ν) (operation : StoreOperation η),
        OutcomeHolds codec database (applyOperation codec database operation).1
          (applyOperation codec database operation).2 := by
  refine ⟨(historyExtends_runOperations codec earlier _).contiguous (contiguous_empty objects), fun key row hrow => ?_,
    fun database operation => (applyOperation_keeps codec database operation).outcome⟩
  obtain ⟨hmem, hkey⟩ := get?_eq_some_iff.mp hrow
  rw [runOperations, List.foldl_append]
  exact get?_eq_some_iff.mpr ⟨(historyExtends_runOperations codec later _).kept row hmem, hkey⟩

end Operations

end ClawWorks
