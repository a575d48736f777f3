import ClawWorks.Enterprise.Plan
import ClawWorks.Enterprise.TreeStore

/-!
# Importing trees and bundles

An importer is shown a tree, then writes with a guard derived from what it was shown; in between anyone may write. A
plain import resolves the id again when it writes, and takes from there whether it expects an imported row. With a
bundle goes a token of everything its preview showed.
-/

namespace ClawWorks

open Option List

variable {ν η τ : Type}

/-! ## The registry -/

/-- What a preview of a bundle found stored for its tree. -/
structure BundleTargetState (η : Type) where
  treeId : EnterpriseId
  expectedSource : Option TreeSource
  treeHash : Option η
  knowledgeFingerprint : η

structure BundleReviewMaterial (η : Type) where
  sourceFormat : WorkflowTreeSourceFormat
  content : JsString
  target : BundleTargetState η
  diagnostics : JsString

/-- What the imports of one deployment share; `τ` is the type of review tokens. -/
structure ImportEnvironment (η τ : Type) where
  codec : TreeCodec η
  /-- `BUILTIN_WORKFLOW_TREES`. -/
  builtins : KeyedTable WorkflowTreeDefinition.id
  hashReview : BundleReviewMaterial η → τ

/-- No two definitions, knowledge sets of one tree or reviews have one digest. -/
structure CollisionFree (environment : ImportEnvironment η τ) : Prop where
  trees : Function.Injective environment.codec.hashWorkflowTree
  knowledge : ∀ (treeId : EnterpriseId) (a b : List BundledFoundationRow), (∀ row ∈ a, row.key.treeId = treeId) →
    (∀ row ∈ b, row.key.treeId = treeId) → environment.codec.hashKnowledge a = environment.codec.hashKnowledge b → a = b
  reviews : Function.Injective environment.hashReview

variable (codec : TreeCodec η)

def storedTree (database : EnterpriseDatabase ν) (treeId : EnterpriseId) : Option WorkflowTreeDefinition :=
  (database.trees.get? treeId).bind (rowToRecord codec)

structure WorkflowTreeRegistryEntry where
  tree : WorkflowTreeDefinition
  source : TreeSource

variable (environment : ImportEnvironment η τ)

def getWorkflowTreeRegistryEntry (loaded : EnterpriseDatabase ν)
    (treeId : EnterpriseId) : Option WorkflowTreeRegistryEntry :=
  match storedTree environment.codec loaded treeId with
  | some tree => some ⟨tree, .imported⟩
  | none => (environment.builtins.get? treeId).map (⟨·, .builtin⟩)

/-! ## Importing a tree -/

inductive ImportOutcome
  | ok (replaced : Option TreeSource)
  | issue (path message : JsString)

/-- Did the import write? -/
def ImportOutcome.accepted : ImportOutcome → Bool
  | .ok _ => true
  | .issue _ _ => false

def replacedSource (replacedImported : Bool) (existing : Option WorkflowTreeRegistryEntry) : Option TreeSource :=
  if replacedImported then some .imported
  else if existing.map (·.source) = some .builtin then some .builtin else none

/-- A parsed tree with the guards its caller passes. -/
structure TreeImportParams (η : Type) where
  tree : WorkflowTreeDefinition
  sourceFormat : WorkflowTreeSourceFormat
  createOnly : Bool := false
  expectedHash : Option η := none

def TreeImportParams.precondition (params : TreeImportParams η) (existing : Option WorkflowTreeRegistryEntry) :
    Option (UpsertPrecondition η) :=
  if params.createOnly then some .createOnly
  else params.expectedHash.map fun hash => .expectedHash hash ((existing.map (·.source)).getD .imported)

variable (treeId : EnterpriseId)

def treeExistsMessage : JsString :=
  js "workflow tree \"" ++ treeId ++ js "\" already exists"

def treeChangedMessage : JsString :=
  js "workflow tree \"" ++ treeId ++
    js "\" changed since it was loaded; discard this edit, reload the tree, and reapply your change"

def builtinChanged [DecidableEq η] (existing : Option WorkflowTreeRegistryEntry) (expectedHash : Option η) : Bool :=
  match existing, expectedHash with
  | some ⟨tree, .builtin⟩, some hash => codec.hashWorkflowTree tree ≠ hash
  | _, _ => false

/-- Persist one tree definition through a process whose registry was loaded from `loaded`. -/
def importWorkflowTreeContent [DecidableEq η]
    (loaded database : EnterpriseDatabase ν) (params : TreeImportParams η) (now : Nat) :
    EnterpriseDatabase ν × ImportOutcome :=
  let existing := getWorkflowTreeRegistryEntry environment loaded params.tree.id
  if params.createOnly && (environment.builtins.get? params.tree.id).isSome then
    (database, .issue (js "id") (treeExistsMessage params.tree.id))
  else if builtinChanged environment.codec existing params.expectedHash then
    (database, .issue (js "id") (treeChangedMessage params.tree.id))
  else
    let write := upsertEnterpriseWorkflowTree environment.codec database
      { tree := params.tree, sourceFormat := params.sourceFormat, now, precondition := params.precondition existing }
    match write.2 with
    | .upserted replacedImported => (write.1, .ok (replacedSource replacedImported existing))
    | .refused .alreadyExists => (write.1, .issue (js "id") (treeExistsMessage params.tree.id))
    | _ => (write.1, .issue (js "id") (treeChangedMessage params.tree.id))

/-! ## Importing a bundle -/

structure WorkflowBundleFile where
  content : JsString
  sourceFormat : WorkflowTreeSourceFormat
  tree : WorkflowTreeDefinition
  bundledFoundations : List BundledKnowledgeFoundation

structure PreparedBundleTree (η : Type) where
  existing : Option WorkflowTreeRegistryEntry
  targetKnowledgeFingerprint : η

def bundleImportIssue (message : JsString) : ImportOutcome :=
  .issue (js "trees.0.id") message

def bundleTargetInvalidMessage : JsString :=
  js "stored workflow tree \"" ++ treeId ++ js "\" is invalid; remove it before importing this bundle"

def bundleChangedMessage : JsString :=
  js "workflow tree \"" ++ treeId ++ js "\" changed since preview; preview the bundle again before importing"

def bundleReviewChangedMessage : JsString :=
  js "bundle target or deployment diagnostics changed since preview; " ++ js "preview the bundle again before importing"

/-- Derive the target state; a stored row that cannot be read refuses the bundle. -/
def prepareWorkflowBundleImport (loaded read : EnterpriseDatabase ν)
    (treeId : EnterpriseId) : Except ImportOutcome (PreparedBundleTree η) :=
  if (loaded.trees.get? treeId).isSome && (storedTree environment.codec loaded treeId).isNone then
    .error (bundleImportIssue (bundleTargetInvalidMessage treeId))
  else
    .ok ⟨getWorkflowTreeRegistryEntry environment loaded treeId,
      environment.codec.hashKnowledge (knowledgeRowsOf read treeId)⟩

/-- The digest of the definition the registry resolves the id to. -/
def PreparedBundleTree.currentHash (prepared : PreparedBundleTree η) : Option η :=
  prepared.existing.map fun entry => codec.hashWorkflowTree entry.tree

def preparedBundleTargetState (treeId : EnterpriseId) (prepared : PreparedBundleTree η) : BundleTargetState η where
  treeId := treeId
  expectedSource := prepared.existing.map (·.source)
  treeHash := prepared.currentHash codec
  knowledgeFingerprint := prepared.targetKnowledgeFingerprint

def bundleReviewToken (file : WorkflowBundleFile) (prepared : PreparedBundleTree η) (diagnostics : JsString) : τ :=
  environment.hashReview
    ⟨file.sourceFormat, file.content, preparedBundleTargetState environment.codec file.tree.id prepared, diagnostics⟩

structure BundleImportGuards (η τ : Type) where
  createOnly : Bool := false
  expectedHash : Option η := none
  reviewToken : Option τ := none

def BundleImportGuards.precondition (guards : BundleImportGuards η τ) (codec : TreeCodec η) (treeId : EnterpriseId)
    (prepared : PreparedBundleTree η) : Option (UpsertPrecondition η) :=
  if guards.reviewToken.isSome then
    let target := preparedBundleTargetState codec treeId prepared
    some (.expectedBundleState target.treeId target.expectedSource target.treeHash target.knowledgeFingerprint)
  else if guards.createOnly then some .createOnly
  else guards.expectedHash.map fun hash =>
    .expectedHash hash ((prepared.existing.map (·.source)).getD .imported)

/-- Persist the tree and the foundations of a bundle in one transaction, after the target was `read` in another. -/
def importWorkflowBundle [DecidableEq η] [DecidableEq τ]
    (loaded read database : EnterpriseDatabase ν) (file : WorkflowBundleFile) (guards : BundleImportGuards η τ)
    (diagnostics : JsString) (now : Nat) : EnterpriseDatabase ν × ImportOutcome :=
  let treeId := file.tree.id
  if guards.createOnly && guards.expectedHash.isSome then
    (database, bundleImportIssue (js "bundle import accepts one write precondition, not both"))
  else
    match prepareWorkflowBundleImport environment loaded read treeId with
    | .error outcome => (database, outcome)
    | .ok prepared =>
      if guards.reviewToken.any (· ≠ bundleReviewToken environment file prepared diagnostics) then
        (database, bundleImportIssue bundleReviewChangedMessage)
      else if guards.createOnly && prepared.existing.isSome then
        (database, bundleImportIssue (treeExistsMessage treeId))
      else if guards.expectedHash.isSome && prepared.currentHash environment.codec ≠ guards.expectedHash then
        (database, bundleImportIssue (bundleChangedMessage treeId))
      else
        let write := upsertEnterpriseWorkflowTree environment.codec database
          { tree := file.tree, sourceFormat := file.sourceFormat, now,
            bundledFoundations := some file.bundledFoundations,
            precondition := guards.precondition environment.codec treeId prepared }
        match write.2 with
        | .upserted replacedImported => (write.1, .ok (replacedSource replacedImported prepared.existing))
        | .refused .alreadyExists => (write.1, bundleImportIssue (treeExistsMessage treeId))
        | _ => (write.1, bundleImportIssue (bundleChangedMessage treeId))

/-! ## Importers -/

/-- What an importer was shown: a registry a process had loaded from some state of the store, and, for a bundle, the
knowledge rows of some state. -/
structure Review (ν : Type) where
  loaded : EnterpriseDatabase ν
  read : EnterpriseDatabase ν

variable (review : Review ν)

def Review.treeParams (tree : WorkflowTreeDefinition)
    (sourceFormat : WorkflowTreeSourceFormat) : TreeImportParams η :=
  match getWorkflowTreeRegistryEntry environment review.loaded tree.id with
  | none => { tree, sourceFormat, createOnly := true }
  | some entry => { tree, sourceFormat, expectedHash := some (environment.codec.hashWorkflowTree entry.tree) }

def Review.prepared (treeId : EnterpriseId) : PreparedBundleTree η :=
  ⟨getWorkflowTreeRegistryEntry environment review.loaded treeId,
    environment.codec.hashKnowledge (knowledgeRowsOf review.read treeId)⟩

def Review.bundleGuards (file : WorkflowBundleFile) (diagnostics : JsString) : BundleImportGuards η τ :=
  let prepared := review.prepared environment file.tree.id
  { createOnly := prepared.existing.isNone
    expectedHash := prepared.currentHash environment.codec
    reviewToken := some (bundleReviewToken environment file prepared diagnostics) }

/-- A write that went through, with the state it found. -/
structure AcceptedWrite (ν : Type) where
  treeId : EnterpriseId
  review : Review ν
  store : EnterpriseDatabase ν
  /-- A bundle replaces the knowledge too. -/
  bundle : Bool

/-- The write overwrote what its importer was shown. -/
structure AcceptedWrite.SeesReviewed (codec : TreeCodec η) (write : AcceptedWrite ν) : Prop where
  tree : storedTree codec write.store write.treeId = storedTree codec write.review.loaded write.treeId
  knowledge : write.bundle = true →
    knowledgeRowsOf write.store write.treeId = knowledgeRowsOf write.review.read write.treeId

structure ImportSystem (ν : Type) where
  store : EnterpriseDatabase ν
  /-- The states the store has been in; a process may hold a registry loaded from any of them. -/
  past : List (EnterpriseDatabase ν)
  reviews : List (Review ν)
  accepted : List (AcceptedWrite ν)

open ImportSystem

def ImportSystem.start (objects : ObjectStore ν) : ImportSystem ν :=
  ⟨.empty objects, [.empty objects], [], []⟩

def ImportSystem.write (system : ImportSystem ν) (after : EnterpriseDatabase ν) : ImportSystem ν :=
  { system with store := after, past := after :: system.past }

variable (system : ImportSystem ν) (after : EnterpriseDatabase ν)

@[simp] theorem ImportSystem.store_write : (system.write after).store = after :=
  rfl

@[simp] theorem ImportSystem.reviews_write : (system.write after).reviews = system.reviews :=
  rfl

theorem ImportSystem.store_mem_past_write : (system.write after).store ∈ (system.write after).past := mem_cons_self

def ImportSystem.afterImport (system : ImportSystem ν) (write : AcceptedWrite ν)
    (result : EnterpriseDatabase ν × ImportOutcome) : ImportSystem ν :=
  let system := system.write result.1
  if result.2.accepted then { system with accepted := write :: system.accepted } else system

/-- The systems reached by reviews, guarded imports and any other operations on the store, in any order; `Meets`
restricts the plain imports. -/
inductive ImportReached [DecidableEq η] [DecidableEq τ] (environment : ImportEnvironment η τ)
    (Meets : Review ν → EnterpriseDatabase ν → EnterpriseDatabase ν → EnterpriseId → Prop) : ImportSystem ν → Prop
  | start (objects : ObjectStore ν) : ImportReached environment Meets (.start objects)
  | review {system : ImportSystem ν} {loaded read : EnterpriseDatabase ν} :
      ImportReached environment Meets system → loaded ∈ system.past → read ∈ system.past →
      ImportReached environment Meets { system with reviews := ⟨loaded, read⟩ :: system.reviews }
  | importTree {system : ImportSystem ν} {review : Review ν} {loaded : EnterpriseDatabase ν}
      (tree : WorkflowTreeDefinition) (sourceFormat : WorkflowTreeSourceFormat) (now : Nat) :
      ImportReached environment Meets system → review ∈ system.reviews → loaded ∈ system.past →
      Meets review loaded system.store tree.id →
      ImportReached environment Meets (system.afterImport ⟨tree.id, review, system.store, false⟩
        (importWorkflowTreeContent environment loaded system.store (review.treeParams environment tree sourceFormat)
          now))
  | importBundle {system : ImportSystem ν} {review : Review ν} {loaded read : EnterpriseDatabase ν}
      (file : WorkflowBundleFile) (reviewed diagnostics : JsString) (now : Nat) :
      ImportReached environment Meets system → review ∈ system.reviews → loaded ∈ system.past → read ∈ system.past →
      ImportReached environment Meets (system.afterImport ⟨file.tree.id, review, system.store, true⟩
        (importWorkflowBundle environment loaded read system.store file
          (review.bundleGuards environment file reviewed) diagnostics now))
  | operation {system : ImportSystem ν} (operation : StoreOperation η) : ImportReached environment Meets system →
      ImportReached environment Meets (system.write (applyOperation environment.codec system.store operation).1)

/-! ## What a precondition guarantees -/

section Preconditions

variable {codec : TreeCodec η} {database : EnterpriseDatabase ν} {treeId : EnterpriseId}

variable {tree : WorkflowTreeDefinition}

theorem storedTree_eq_some_iff : storedTree codec database treeId = some tree ↔
      ∃ row, database.trees.get? treeId = some row ∧ rowToRecord codec row = some tree :=
  bind_eq_some_iff

theorem storedTree_of_get?_none (h : database.trees.get? treeId = none) : storedTree codec database treeId = none := by
  rw [storedTree, h, bind_none]

variable {row : EnterpriseTreeRow}

theorem storedTree_of_saved {sourceFormat : WorkflowTreeSourceFormat} {latest : EnterpriseTreeVersionRow}
    (hlive : LiveIsLatest codec database tree row latest)
    (hformat : row.sourceFormat = sourceFormat.text) (hparse : codec.parse (codec.stringify tree) = some tree) :
    storedTree codec database tree.id = some tree := by
  have hkey := (KeyedTable.get?_eq_some_iff.mp hlive.live).2
  have hsource : parseSourceFormat sourceFormat.text = some sourceFormat := by cases sourceFormat <;> rfl
  rw [storedTree, hlive.live, bind_some, rowToRecord, hlive.definitionJson.1, hparse, hformat, hsource]
  simp [hkey]

theorem get?_deleteEnterpriseWorkflowTree :
    (deleteEnterpriseWorkflowTree codec database treeId).1.trees.get? treeId = none := by
  unfold deleteEnterpriseWorkflowTree deleteEnterpriseWorkflowTreeIn
  dsimp only
  split
  · exact (KeyedTable.get?_deleteKey _ _ _).trans (if_pos rfl)
  · rename_i hrow
    exact not_isSome_iff_eq_none.mp hrow

variable [DecidableEq η]

theorem get?_applyOperation_delete : (applyOperation codec database (.delete treeId)).1.trees.get? treeId = none :=
  get?_deleteEnterpriseWorkflowTree

theorem checkHash_eq_none_iff {expected : Option η} : checkHash codec row expected = none ↔
      ∃ tree, rowToRecord codec row = some tree ∧ some (codec.hashWorkflowTree tree) = expected := by
  unfold checkHash
  cases rowToRecord codec row with
  | none => simp
  | some tree => simp

theorem checkPrecondition_createOnly_iff :
    checkPrecondition codec database treeId .createOnly = none ↔ database.trees.get? treeId = none := by
  simp [checkPrecondition]

theorem checkPrecondition_builtin_iff {hash : η} :
    checkPrecondition codec database treeId (.expectedHash hash .builtin) = none ↔
      database.trees.get? treeId = none := by
  unfold checkPrecondition
  cases database.trees.get? treeId with
  | none => simp
  | some row => simp

theorem checkPrecondition_imported_iff (hfree : Function.Injective codec.hashWorkflowTree) :
    checkPrecondition codec database treeId (.expectedHash (codec.hashWorkflowTree tree) .imported) = none ↔
      storedTree codec database treeId = some tree := by
  rw [storedTree_eq_some_iff]
  unfold checkPrecondition
  cases database.trees.get? treeId with
  | none => simp
  | some row =>
    simp only [reduceCtorEq, if_false, checkHash_eq_none_iff, some.injEq, exists_eq_left']
    constructor
    · rintro ⟨stored, hstored, hhash⟩
      rwa [← hfree hhash]
    · intro hstored
      exact ⟨tree, hstored, rfl⟩

theorem checkPrecondition_bundle_iff {expectedSource : Option TreeSource} {treeHash : Option η}
    {knowledgeFingerprint : η} :
    checkPrecondition codec database treeId
        (.expectedBundleState treeId expectedSource treeHash knowledgeFingerprint) = none ↔
      ((database.trees.get? treeId).isSome ↔ expectedSource = some .imported) ∧
        (∀ row, database.trees.get? treeId = some row → checkHash codec row treeHash = none) ∧
        codec.hashKnowledge (knowledgeRowsOf database treeId) = knowledgeFingerprint := by
  unfold checkPrecondition
  cases database.trees.get? treeId with
  | none => by_cases himported : expectedSource = some .imported <;> simp [himported]
  | some row =>
    by_cases himported : expectedSource = some .imported
    · cases hhash : checkHash codec row treeHash <;> simp [himported, hhash]
    · simp [himported]

variable {params : UpsertParams η}

theorem upsertEnterpriseWorkflowTree_plain (h : params.bundledFoundations = none) :
    (upsertEnterpriseWorkflowTree codec database params).2 =
      match params.precondition.bind (checkPrecondition codec database params.tree.id) with
      | some reason => .refused reason
      | none => .upserted (database.trees.get? params.tree.id).isSome := by
  unfold upsertEnterpriseWorkflowTree
  rw [h]
  cases params.precondition.bind (checkPrecondition codec database params.tree.id) <;> rfl

theorem checkPrecondition_of_upserted {replacedImported : Bool}
    (h : (upsertEnterpriseWorkflowTree codec database params).2 = .upserted replacedImported) :
    params.precondition.bind (checkPrecondition codec database params.tree.id) = none := by
  unfold upsertEnterpriseWorkflowTree at h
  cases hcheck : params.precondition.bind (checkPrecondition codec database params.tree.id) with
  | none => rfl
  | some reason =>
    rw [hcheck] at h
    cases h

end Preconditions

section Trees

variable [DecidableEq η] {environment : ImportEnvironment η τ} {loaded database : EnterpriseDatabase ν}

theorem importWorkflowTreeContent_accepted_iff {params : TreeImportParams η} {now : Nat} :
    (importWorkflowTreeContent environment loaded database params now).2.accepted ↔
      ¬(params.createOnly ∧ (environment.builtins.get? params.tree.id).isSome) ∧
        builtinChanged environment.codec (getWorkflowTreeRegistryEntry environment loaded params.tree.id)
          params.expectedHash = false ∧
        (params.precondition (getWorkflowTreeRegistryEntry environment loaded params.tree.id)).bind
          (checkPrecondition environment.codec database params.tree.id) = none := by
  unfold importWorkflowTreeContent
  rw [← Bool.and_eq_true]
  by_cases hcreate : (params.createOnly && (environment.builtins.get? params.tree.id).isSome)
  · rw [if_pos hcreate]
    exact ⟨fun h => (Bool.false_ne_true h).elim, fun h => absurd hcreate h.1⟩
  rw [if_neg hcreate]
  cases hchanged : builtinChanged environment.codec (getWorkflowTreeRegistryEntry environment loaded params.tree.id)
    params.expectedHash with
  | true => exact ⟨fun h => (Bool.false_ne_true h).elim, fun h => (Bool.false_ne_true h.2.1.symm).elim⟩
  | false =>
    rw [if_neg Bool.false_ne_true]
    dsimp only
    rw [upsertEnterpriseWorkflowTree_plain (by rfl)]
    cases hcheck : (params.precondition (getWorkflowTreeRegistryEntry environment loaded params.tree.id)).bind
        (checkPrecondition environment.codec database params.tree.id) with
    | none => exact ⟨fun _ => ⟨hcreate, rfl, rfl⟩, fun _ => rfl⟩
    | some reason =>
      refine ⟨fun h => ?_, fun h => nomatch h.2.2⟩
      cases reason <;> exact (Bool.false_ne_true h).elim

theorem importWorkflowTreeContent_expected_iff (hfree : Function.Injective environment.codec.hashWorkflowTree)
    {tree shown : WorkflowTreeDefinition} {sourceFormat : WorkflowTreeSourceFormat} {now : Nat} :
    (importWorkflowTreeContent environment loaded database
      { tree, sourceFormat, expectedHash := some (environment.codec.hashWorkflowTree shown) } now).2.accepted ↔
    (((storedTree environment.codec loaded tree.id).isSome ∨ environment.builtins.get? tree.id = none) ∧
        storedTree environment.codec database tree.id = some shown) ∨
      (storedTree environment.codec loaded tree.id = none ∧ environment.builtins.get? tree.id = some shown ∧
        database.trees.get? tree.id = none) := by
  rw [importWorkflowTreeContent_accepted_iff]
  simp only [TreeImportParams.precondition, Bool.false_eq_true, false_and, not_false_eq_true, true_and, if_false,
    map_some, bind_some, getWorkflowTreeRegistryEntry]
  cases storedTree environment.codec loaded tree.id with
  | some found =>
    simp only [builtinChanged, map_some, getD_some, checkPrecondition_imported_iff hfree]
    simp
  | none =>
    cases environment.builtins.get? tree.id with
    | none =>
      simp only [builtinChanged, map_none, getD_none, checkPrecondition_imported_iff hfree]
      simp
    | some builtin =>
      simp only [builtinChanged, map_some, getD_some, checkPrecondition_builtin_iff]
      simp [hfree.eq_iff]

/-- An override identical to the built-in came or went between the review and the write, and the registry the import
resolves the id in knows of it. -/
def OverrideMoved (environment : ImportEnvironment η τ) (review : Review ν) (loaded store : EnterpriseDatabase ν)
    (treeId : EnterpriseId) : Prop :=
  ∃ builtin, environment.builtins.get? treeId = some builtin ∧
    ((storedTree environment.codec review.loaded treeId = some builtin ∧
        storedTree environment.codec loaded treeId = none ∧ store.trees.get? treeId = none) ∨
      (storedTree environment.codec review.loaded treeId = none ∧
        (storedTree environment.codec loaded treeId).isSome ∧ storedTree environment.codec store treeId = some builtin))

/-- **A plain import overwrites what its importer was not shown exactly when an override identical to the built-in came
or went in between.** -/
theorem importWorkflowTreeContent_unseen_iff (hfree : Function.Injective environment.codec.hashWorkflowTree)
    {review : Review ν} {tree : WorkflowTreeDefinition} (sourceFormat : WorkflowTreeSourceFormat) (now : Nat) :
    ((importWorkflowTreeContent environment loaded database (review.treeParams environment tree sourceFormat)
        now).2.accepted ∧
      storedTree environment.codec database tree.id ≠ storedTree environment.codec review.loaded tree.id) ↔
    OverrideMoved environment review loaded database tree.id := by
  cases hreview : storedTree environment.codec review.loaded tree.id with
  | none =>
    cases hbuiltin : environment.builtins.get? tree.id with
    | none =>
      -- Nothing was shown: the row the write does not find is the one the review did not find.
      have hparams : review.treeParams environment tree sourceFormat =
          ({ tree, sourceFormat, createOnly := true } : TreeImportParams η) := by
        simp only [Review.treeParams, getWorkflowTreeRegistryEntry, hreview, hbuiltin, map_none]
      rw [hparams, importWorkflowTreeContent_accepted_iff]
      simp only [TreeImportParams.precondition, if_true, bind_some, checkPrecondition_createOnly_iff]
      constructor
      · rintro ⟨⟨-, -, hrow⟩, hunseen⟩
        exact absurd (storedTree_of_get?_none hrow) hunseen
      · rintro ⟨builtin, hfound, -⟩
        rw [hbuiltin] at hfound
        cases hfound
    | some builtin =>
      have hparams : review.treeParams environment tree sourceFormat =
          { tree, sourceFormat, expectedHash := some (environment.codec.hashWorkflowTree builtin) } := by
        simp only [Review.treeParams, getWorkflowTreeRegistryEntry, hreview, hbuiltin, map_some]
      rw [hparams, importWorkflowTreeContent_expected_iff hfree]
      constructor
      · rintro ⟨⟨hloaded, hstored⟩ | ⟨-, -, hrow⟩, hunseen⟩
        · refine ⟨builtin, hbuiltin, .inr ⟨hreview, hloaded.resolve_right ?_, hstored⟩⟩
          rw [hbuiltin]
          exact some_ne_none builtin
        · exact absurd (storedTree_of_get?_none hrow) hunseen
      · rintro ⟨found, hfound, ⟨hshown, -, -⟩ | ⟨-, hloaded, hstored⟩⟩
        · rw [hreview] at hshown
          cases hshown
        · obtain rfl : builtin = found := mem_unique hbuiltin hfound
          exact ⟨.inl ⟨.inl hloaded, hstored⟩, by rw [hstored]; exact some_ne_none builtin⟩
  | some shown =>
    have hparams : review.treeParams environment tree sourceFormat =
        { tree, sourceFormat, expectedHash := some (environment.codec.hashWorkflowTree shown) } := by
      simp only [Review.treeParams, getWorkflowTreeRegistryEntry, hreview]
    rw [hparams, importWorkflowTreeContent_expected_iff hfree]
    constructor
    · rintro ⟨⟨-, hstored⟩ | ⟨hloaded, hbuiltin, hrow⟩, hunseen⟩
      · exact absurd hstored hunseen
      · exact ⟨shown, hbuiltin, .inl ⟨hreview, hloaded, hrow⟩⟩
    · rintro ⟨builtin, hbuiltin, ⟨hshown, hloaded, hrow⟩ | ⟨hshown, -, -⟩⟩
      · obtain rfl : shown = builtin := mem_unique hreview hshown
        refine ⟨.inr ⟨hloaded, hbuiltin, hrow⟩, ?_⟩
        rw [storedTree_of_get?_none hrow]
        exact (some_ne_none shown).symm
      · rw [hreview] at hshown
        cases hshown

end Trees

section Bundles

variable [DecidableEq η] [DecidableEq τ] {environment : ImportEnvironment η τ}
  {loaded read database : EnterpriseDatabase ν} {file : WorkflowBundleFile} {diagnostics : JsString} {now : Nat}

theorem importWorkflowBundle_accepted {guards : BundleImportGuards η τ} {token : τ}
    (htoken : guards.reviewToken = some token)
    (h : (importWorkflowBundle environment loaded read database file guards diagnostics now).2.accepted) :
    ∃ prepared, token = bundleReviewToken environment file prepared diagnostics ∧
      checkPrecondition environment.codec database file.tree.id
        (.expectedBundleState file.tree.id (prepared.existing.map (·.source)) (prepared.currentHash environment.codec)
          prepared.targetKnowledgeFingerprint) = none := by
  unfold importWorkflowBundle at h
  dsimp only at h
  split at h
  · cases h
  cases hprepare : prepareWorkflowBundleImport environment loaded read file.tree.id with
  | error outcome =>
    rw [hprepare] at h
    unfold prepareWorkflowBundleImport at hprepare
    split at hprepare
    · cases hprepare
      cases h
    · cases hprepare
  | ok prepared =>
    rw [hprepare] at h
    dsimp only at h
    split at h
    · cases h
    rename_i htokens
    split at h
    · cases h
    split at h
    · cases h
    refine ⟨prepared, ?_, ?_⟩
    · rw [htoken] at htokens
      simpa using htokens
    · cases hwrite : (upsertEnterpriseWorkflowTree environment.codec database
        { tree := file.tree, sourceFormat := file.sourceFormat, now,
          bundledFoundations := some file.bundledFoundations,
          precondition := guards.precondition environment.codec file.tree.id prepared }).2 with
      | upserted replacedImported =>
        have hcheck := checkPrecondition_of_upserted hwrite
        rwa [BundleImportGuards.precondition, htoken, isSome_some, if_pos rfl, bind_some] at hcheck
      | refused reason =>
        rw [hwrite] at h
        cases reason <;> cases h
      | threw =>
        rw [hwrite] at h
        cases h

theorem mem_knowledgeRowsOf {treeId : EnterpriseId} {row : BundledFoundationRow}
    (h : row ∈ knowledgeRowsOf database treeId) : row.key.treeId = treeId := by
  have hrow := mem_filter.mp ((mem_insertionSort _).mp h)
  simpa using hrow.2

theorem importWorkflowBundle_sees (hfree : CollisionFree environment) {review : Review ν} {reviewed : JsString}
    (h : (importWorkflowBundle environment loaded read database file (review.bundleGuards environment file reviewed)
      diagnostics now).2.accepted) :
    (⟨file.tree.id, review, database, true⟩ : AcceptedWrite ν).SeesReviewed environment.codec := by
  obtain ⟨prepared, htoken, hcheck⟩ := importWorkflowBundle_accepted rfl h
  have htarget := congrArg BundleReviewMaterial.target (hfree.reviews htoken)
  have hsource := congrArg BundleTargetState.expectedSource htarget
  have hhash := congrArg BundleTargetState.treeHash htarget
  have hknowledge := congrArg BundleTargetState.knowledgeFingerprint htarget
  dsimp only [preparedBundleTargetState] at hsource hhash hknowledge
  rw [← hsource, ← hhash, ← hknowledge] at hcheck
  obtain ⟨hpresent, hrow, hrows⟩ := checkPrecondition_bundle_iff.mp hcheck
  refine ⟨?_, fun _ => hfree.knowledge file.tree.id _ _ (fun _ => mem_knowledgeRowsOf)
    (fun _ => mem_knowledgeRowsOf) hrows⟩
  dsimp only
  cases hreview : storedTree environment.codec review.loaded file.tree.id with
  | some shown =>
    have hentry : getWorkflowTreeRegistryEntry environment review.loaded file.tree.id = some ⟨shown, .imported⟩ := by
      rw [getWorkflowTreeRegistryEntry, hreview]
    simp only [Review.prepared, PreparedBundleTree.currentHash, hentry, map_some, iff_true] at hpresent hrow
    obtain ⟨row, hfound⟩ := isSome_iff_exists.mp hpresent
    obtain ⟨tree, htree, heq⟩ := checkHash_eq_none_iff.mp (hrow row hfound)
    rw [storedTree_eq_some_iff]
    exact ⟨row, hfound, hfree.trees (some.inj heq) ▸ htree⟩
  | none =>
    refine storedTree_of_get?_none (not_isSome_iff_eq_none.mp fun hsome => ?_)
    have himported := hpresent.mp hsome
    simp only [Review.prepared, getWorkflowTreeRegistryEntry, hreview] at himported
    cases hbuiltin : environment.builtins.get? file.tree.id with
    | none | some builtin =>
      rw [hbuiltin] at himported
      cases himported

end Bundles

section Runs

variable [DecidableEq η] [DecidableEq τ] {environment : ImportEnvironment η τ} {system : ImportSystem ν}
  {result : EnterpriseDatabase ν × ImportOutcome}

theorem mem_accepted_afterImport {write accepted : AcceptedWrite ν}
    (h : accepted ∈ (system.afterImport write result).accepted) :
    accepted ∈ system.accepted ∨ (result.2.accepted ∧ accepted = write) := by
  unfold afterImport at h
  cases hresult : result.2.accepted with
  | false =>
    rw [hresult] at h
    exact .inl h
  | true =>
    rw [hresult] at h
    exact (mem_cons.mp h).symm.imp_right fun heq => ⟨rfl, heq⟩

theorem mem_afterImport_self {write : AcceptedWrite ν}
    (h : result.2.accepted) : write ∈ (system.afterImport write result).accepted := by
  unfold afterImport
  rw [if_pos h]
  exact mem_cons_self

/-- **No update is lost in a run in which no identical override moves.** However reviews, imports and other operations
are interleaved, and however old the registries they read: a write that was accepted found the tree, and a bundle the
knowledge rows, its importer was shown. -/
theorem accepted_sees_reviewed (hfree : CollisionFree environment)
    (h : ImportReached environment
      (fun review loaded store treeId => ¬OverrideMoved environment review loaded store treeId) system) :
    ∀ write ∈ system.accepted, write.SeesReviewed environment.codec := by
  induction h with
  | start objects => exact fun write hwrite => nomatch hwrite
  | review _ _ _ ih => exact ih
  | importTree tree sourceFormat now _ _ _ hmoved ih =>
    intro write hwrite
    rcases mem_accepted_afterImport hwrite with hold | ⟨haccepted, rfl⟩
    · exact ih write hold
    · refine ⟨?_, fun hbundle => (Bool.false_ne_true hbundle).elim⟩
      by_contra hunseen
      exact hmoved ((importWorkflowTreeContent_unseen_iff hfree.trees sourceFormat now).mp ⟨haccepted, hunseen⟩)
  | importBundle file reviewed diagnostics now _ _ _ _ ih =>
    intro write hwrite
    rcases mem_accepted_afterImport hwrite with hold | ⟨haccepted, rfl⟩
    · exact ih write hold
    · exact importWorkflowBundle_sees hfree haccepted
  | operation operation _ ih => exact ih

theorem exists_unseen_of_overrideMoved (hfree : Function.Injective environment.codec.hashWorkflowTree)
    {review : Review ν} {loaded : EnterpriseDatabase ν} {tree : WorkflowTreeDefinition}
    (h : ImportReached environment (fun _ _ _ _ => True) system) (hreview : review ∈ system.reviews)
    (hloaded : loaded ∈ system.past) (hmoved : OverrideMoved environment review loaded system.store tree.id) :
    ∃ after : ImportSystem ν, ImportReached environment (fun _ _ _ _ => True) after ∧
      ∃ write ∈ after.accepted, ¬write.SeesReviewed environment.codec := by
  obtain ⟨haccepted, hunseen⟩ := (importWorkflowTreeContent_unseen_iff hfree .yaml 0).mpr hmoved
  exact ⟨_, .importTree tree .yaml 0 h hreview hloaded trivial, _, mem_afterImport_self haccepted,
    fun hsees => hunseen hsees.tree⟩

end Runs

/-! ## An override adopted, reviewed, removed and saved again -/

inductive PlainDigest
  | tree (tree : WorkflowTreeDefinition)
  | knowledge (rows : List BundledFoundationRow)
  | row (row : EnterpriseTreeRow)

noncomputable instance : DecidableEq PlainDigest :=
  Classical.decEq PlainDigest

noncomputable instance : DecidableEq (BundleReviewMaterial PlainDigest) :=
  Classical.decEq _

/-- The text of the stock default. -/
def assistJson : JsString :=
  js "\x7b\"id\":\"clawworks.assist\",\"version\":\"1.0.0\",\"name\":\"General assistance\",\"root\":" ++
    js "\x7b\"id\":\"assist\",\"title\":\"Assist with the user request\",\"ontology\":\x7b\x7d\x7d\x7d"

/-- A deployment with the stock default. -/
def plainImports : ImportEnvironment PlainDigest (BundleReviewMaterial PlainDigest) where
  codec :=
    { stringify := fun _ => assistJson
      parse := fun text => if text = assistJson then some BUILTIN_ASSIST_TREE else none
      hashWorkflowTree := .tree
      hashKnowledge := .knowledge
      fingerprintEnterpriseTreeRow := .row }
  builtins := KeyedTable.empty.insert BUILTIN_ASSIST_TREE
  hashReview := id

theorem collisionFree_plainImports : CollisionFree plainImports where
  trees _ _ h := PlainDigest.tree.inj h
  knowledge _ _ _ _ _ h := PlainDigest.knowledge.inj h
  reviews := Function.injective_id

theorem parse_assistJson : plainImports.codec.parse assistJson = some BUILTIN_ASSIST_TREE := by
  simp only [plainImports, if_true]

theorem get?_builtins_assist : plainImports.builtins.get? BUILTIN_ASSIST_TREE.id = some BUILTIN_ASSIST_TREE := by
  simp only [plainImports]
  rw [KeyedTable.get?_insert, if_pos rfl]
  rfl

/-- The default is adopted by importing it as it is. -/
def adoption : StoreOperation PlainDigest :=
  .upsert { tree := BUILTIN_ASSIST_TREE, sourceFormat := .yaml, now := 1 }

noncomputable def adoptedSystem : ImportSystem Int :=
  (ImportSystem.start .empty).write (applyOperation plainImports.codec (ImportSystem.start .empty).store adoption).1

/-- What an importer is then shown. -/
noncomputable def adoptedReview : Review Int :=
  ⟨adoptedSystem.store, adoptedSystem.store⟩

noncomputable def reviewedSystem : ImportSystem Int :=
  { adoptedSystem with reviews := adoptedReview :: adoptedSystem.reviews }

noncomputable def removedSystem : ImportSystem Int :=
  reviewedSystem.write (applyOperation plainImports.codec reviewedSystem.store (.delete BUILTIN_ASSIST_TREE.id)).1

theorem reached_removedSystem : ImportReached plainImports (fun _ _ _ _ => True) removedSystem :=
  .operation _ (.review (.operation adoption (.start .empty)) mem_cons_self mem_cons_self)

theorem storedTree_adoptedSystem :
    storedTree plainImports.codec adoptedSystem.store BUILTIN_ASSIST_TREE.id = some BUILTIN_ASSIST_TREE := by
  obtain ⟨row, latest, hlive, hformat⟩ :=
    (applyOperation_keeps plainImports.codec (start (.empty : ObjectStore Int)).store adoption).outcome
  exact storedTree_of_saved hlive hformat parse_assistJson

theorem get?_removedSystem : removedSystem.store.trees.get? BUILTIN_ASSIST_TREE.id = none := by
  rw [removedSystem, store_write]
  exact get?_applyOperation_delete

theorem overrideMoved_removedSystem :
    OverrideMoved plainImports adoptedReview removedSystem.store removedSystem.store BUILTIN_ASSIST_TREE.id :=
  ⟨BUILTIN_ASSIST_TREE, get?_builtins_assist, .inl ⟨storedTree_adoptedSystem,
    storedTree_of_get?_none get?_removedSystem, get?_removedSystem⟩⟩

/-- Saving what was reviewed installs the override again, over a removal its importer was never shown. -/
theorem removal_overwritten_unseen :
    CollisionFree plainImports ∧
      ¬∀ system : ImportSystem Int, ImportReached plainImports (fun _ _ _ _ => True) system →
        ∀ write ∈ system.accepted, write.SeesReviewed plainImports.codec := by
  refine ⟨collisionFree_plainImports, fun h => ?_⟩
  have hreview : adoptedReview ∈ removedSystem.reviews := by
    rw [removedSystem, ImportSystem.reviews_write]
    exact mem_cons_self
  have hloaded : removedSystem.store ∈ removedSystem.past := ImportSystem.store_mem_past_write _ _
  obtain ⟨after, hreached, write, hwrite, hunseen⟩ := exists_unseen_of_overrideMoved collisionFree_plainImports.trees
    reached_removedSystem hreview hloaded overrideMoved_removedSystem
  exact hunseen (h after hreached write hwrite)

/-- The default is imported while it has not been. -/
noncomputable def savedSystem : ImportSystem Int :=
  let shown : Review Int := ⟨.empty .empty, .empty .empty⟩
  let system : ImportSystem Int := { ImportSystem.start .empty with reviews := [shown] }
  system.afterImport ⟨BUILTIN_ASSIST_TREE.id, shown, .empty .empty, false⟩
    (importWorkflowTreeContent plainImports (.empty .empty) (.empty .empty)
      (shown.treeParams plainImports BUILTIN_ASSIST_TREE .yaml) 1)

/-- The import of the default goes through, over the store its importer was shown. -/
theorem savedSystem_sees_reviewed :
    savedSystem.accepted ≠ [] ∧ ∀ write ∈ savedSystem.accepted, write.SeesReviewed plainImports.codec := by
  have hbuiltin : getWorkflowTreeRegistryEntry plainImports (.empty .empty : EnterpriseDatabase Int)
      BUILTIN_ASSIST_TREE.id = some ⟨BUILTIN_ASSIST_TREE, .builtin⟩ := by
    rw [getWorkflowTreeRegistryEntry, storedTree_of_get?_none rfl]
    exact congrArg (Option.map _) get?_builtins_assist
  have haccepted : (importWorkflowTreeContent plainImports (.empty .empty) (.empty .empty : EnterpriseDatabase Int)
      { tree := BUILTIN_ASSIST_TREE, sourceFormat := .yaml,
        expectedHash := some (plainImports.codec.hashWorkflowTree BUILTIN_ASSIST_TREE) } 1).2.accepted = true :=
    (importWorkflowTreeContent_expected_iff collisionFree_plainImports.trees).mpr
      (Or.inr ⟨storedTree_of_get?_none rfl, get?_builtins_assist, rfl⟩)
  refine ⟨?_, accepted_sees_reviewed collisionFree_plainImports (.importTree BUILTIN_ASSIST_TREE .yaml 1
    (.review (.start .empty) mem_cons_self mem_cons_self) mem_cons_self mem_cons_self ?_)⟩
  · refine ne_nil_of_mem (mem_afterImport_self ?_)
    rw [Review.treeParams, hbuiltin]
    exact haccepted
  · rintro ⟨builtin, -, ⟨hshown, -, -⟩ | ⟨-, hloaded, -⟩⟩
    · rw [storedTree_of_get?_none rfl] at hshown
      cases hshown
    · rw [storedTree_of_get?_none rfl] at hloaded
      cases hloaded

end ClawWorks
