import Mathlib.Data.List.Sort
import ClawWorks.Lib.Mutation
import ClawWorks.Workboard.Card

/-!
# The store of the workboard

The state (`World`), the queries and the writes of the tables below, and what the operations are made of: an update of
one card (`updateCard`), a dependency link, which is two updates and a promotion (`linkCardsDirect`), the creation and
the deletion of a card.

`enqueueMutation` runs one operation after the other, so an operation is a program on the whole state. It reads the
clock and draws ids as it goes; the readings inside one update are one reading. The contents of attachments lie in a
table of their own, under the ids that cards index, and deleting the content of an attachment also deletes its entry in
the index.
-/

namespace ClawWorks.Workboard

open Mutation

/-- A row of `workboard_attachment_blobs`. -/
structure AttachmentBlob where
  attachmentId : NonBlank
  contentBase64 : JsString

@[ext] structure World where
  cards : KeyedTable WorkboardCard.id
  blobs : KeyedTable AttachmentBlob.attachmentId
  boards : KeyedTable WorkboardBoardMetadata.id
  subscriptions : KeyedTable WorkboardNotificationSubscription.id
  lastNotificationSequence : ℕ
  /-- How often the clock was read and an id was drawn. -/
  reads : ℕ
  minted : ℕ

def World.initial : World :=
  ⟨.empty, .empty, .empty, .empty, 0, 0, 0⟩

/-- A step of the store: what it returns, or the error it throws, and the state it leaves. -/
abbrev Step (α : Type) := Mutation World JsString α

def isFuture (scheduledAt : Option Positive) (now : ℕ) : Bool :=
  scheduledAt.any (·.val > now)

def dropAttachments (ids : List NonBlank) (card : WorkboardCard) : WorkboardCard :=
  { card with metadata := { card.metadata with attachments := card.metadata.attachments.filter (·.id ∉ ids) } }

@[simp] theorem dropAttachments_id (ids : List NonBlank) (card : WorkboardCard) :
    (dropAttachments ids card).id = card.id := rfl

variable (w : World)

/-- The contents under the ids, and their entries in the index, are gone. -/
def World.without (ids : List NonBlank) : World :=
  { w with
    cards := w.cards.updateWhere (fun _ => true) (dropAttachments ids) (dropAttachments_id ids)
    blobs := w.blobs.deleteWhere (·.attachmentId ∈ ids) }

/-- `this.attachmentStore.delete`: the content and its entry in the index. -/
def deleteAttachmentRow (id : NonBlank) : Step Unit :=
  change (World.without · [id])

variable [Platform]

/-! ## The clock, ids and tables -/

def dateNow : Step Positive :=
  fun w => (.ok ⟨clock w.reads, Platform.clock_pos _⟩, { w with reads := w.reads + 1 })

def randomUUID : Step CardId :=
  fun w => (.ok (uuid w.minted), { w with minted := w.minted + 1 })

/-- As many ids, of which some may stay unused. -/
def drawIds (count : ℕ) : Step (ℕ → NonBlank) :=
  fun w => (.ok fun i => (uuid (w.minted + i)).val, { w with minted := w.minted + count })

variable (id : JsString)

/-- `this.get(id)`. -/
def World.card : Option WorkboardCard :=
  w.cards.rows.find? (·.id.val.text = trim id)

def cardNotFound : JsString :=
  js "card not found: " ++ id

def requireCard : Step WorkboardCard :=
  fun w =>
    match w.card id with
    | some card => (.ok card, w)
    | none => (.error (cardNotFound id), w)

/-- `this.list({ boardId })`. -/
def World.list (boardId : Option BoardId) : List WorkboardCard :=
  (w.cards.rows.filter fun card => boardId.all (cardBoardId card = ·)).insertionSort fun a b => compareCards a b ≠ .gt

/-- `this.store.register`. -/
def registerCard (card : WorkboardCard) : Step Unit :=
  fun w =>
    if accepts w.cards card then (.ok (), { w with cards := w.cards.put card })
    else (.error (js "card write rejected"), w)

/-- `this.store.delete`: the card, and the contents its index lists. -/
def deleteCardRow : Step Bool :=
  fun w =>
    match w.cards.rows.find? (·.id.val.text = id) with
    | none => (.ok false, w)
    | some card => (.ok true, { w with
        cards := w.cards.deleteWhere (·.id.val.text = id)
        blobs := w.blobs.deleteWhere fun blob => card.metadata.attachments.any (·.id = blob.attachmentId) })

/-- `this.attachmentStore.register`. -/
def registerAttachment (id : NonBlank) (contentBase64 : JsString) : Step Unit :=
  change fun w => { w with blobs := w.blobs.put ⟨id, contentBase64⟩ }

/-- `this.getAttachment`: the entry in the index joined with the content. -/
def World.attachment : Option (WorkboardAttachment × JsString) :=
  (w.cards.rows.flatMap (·.metadata.attachments)).findSome? fun entry =>
    if entry.id.text = trim id then
      (w.blobs.get? entry.id).map fun blob => (entry, blob.contentBase64)
    else none

def deleteDetachedAttachments (existing next : WorkboardCard) : Step Unit :=
  forEach deleteAttachmentRow
    ((existing.metadata.attachments.map (·.id)).filter (· ∉ next.metadata.attachments.map (·.id)))

def nextNotificationSequence (now : ℕ) : Step Positive :=
  fun w =>
    let next := max (w.lastNotificationSequence + 1) (now * 1000)
    (.ok ⟨next, lt_of_lt_of_le (Nat.succ_pos _) (le_max_left _ _)⟩, { w with lastNotificationSequence := next })

/-! ## Updates -/

/-- `WorkboardCardInput`, of which a patch is a part. -/
structure WorkboardCardPatch where
  title : Unknown := .undefined
  notes : Unknown := .undefined
  status : Option (Choice WorkboardStatus) := none
  priority : Option (Choice WorkboardPriority) := none
  labels : Unknown := .undefined
  agentId : Unknown := .undefined
  sessionKey : Unknown := .undefined
  runId : Unknown := .undefined
  taskId : Unknown := .undefined
  sourceUrl : Unknown := .undefined
  execution : Field RawExecution := .undefined
  metadata : Field RawMetadata := .undefined
  templateId : Option (Option WorkboardTemplateId) := none
  position : Unknown := .undefined
  tenant : Unknown := .undefined
  boardId : Unknown := .undefined
  createdByCardId : Unknown := .undefined
  idempotencyKey : Unknown := .undefined
  skills : Unknown := .undefined
  workspace : Field RawWorkspace := .undefined
  maxRuntimeSeconds : Unknown := .undefined
  maxRetries : Unknown := .undefined
  scheduledAt : Unknown := .undefined
  startedAt : Unknown := .undefined
  completedAt : Unknown := .undefined
  parents : Unknown := .undefined
  deriving DecidableEq

structure UpdateOptions where
  allowMetadataDependencyLinks : Bool := true
  enforceStatusHolds : Bool := false

/-- A value unless it is `undefined`. -/
def Unknown.own (value : Unknown) : Option Unknown :=
  if value = .undefined then none else some value

/-- The fields of a patch that go into the automation record. -/
def WorkboardCardPatch.automation (patch : WorkboardCardPatch) : RawAutomation where
  tenant := patch.tenant
  boardId := patch.boardId.own
  createdByCardId := patch.createdByCardId
  idempotencyKey := patch.idempotencyKey
  skills := patch.skills.own
  workspace := if patch.workspace = .undefined then none else some patch.workspace
  maxRuntimeSeconds := patch.maxRuntimeSeconds.own
  maxRetries := patch.maxRetries.own
  scheduledAt := patch.scheduledAt.own
  summary := .undefined
  createdCardIds := none
  dispatchCount := none
  lastDispatchAt := none

def RawAutomation.none : RawAutomation :=
  ({} : WorkboardCardPatch).automation

def RawMetadata.none : RawMetadata :=
  ⟨.none, .none, .none, .none, .none, .none, .none, .none, .none, .none, .none, .none, .none, .none, .none, .none,
    .undefined⟩

def withoutLifecycle (metadata : Field RawMetadata) : Field RawMetadata :=
  match metadata with
  | .object record =>
    let rest := { record with lifecycleStatusSourceUpdatedAt := none }
    if rest = .none then .undefined else .object rest
  | other => other

variable (existing : WorkboardCard) (patch : WorkboardCardPatch)

/-- A status that a stale lifecycle report brings is left out; where nothing else is left there is no update. -/
def effectivePatch : Option WorkboardCardPatch :=
  if patch.status.isSome ∧
      (lifecycleStatusSourceUpdatedAtFromPatch patch.metadata).any (shouldSkipPersistedLifecycleStatusUpdate existing)
  then
    let rest := { patch with status := none, metadata := withoutLifecycle patch.metadata }
    if rest = {} then none else some rest
  else some patch

def hasFreshLifecycleStatusSource : Bool :=
  (lifecycleStatusSourceUpdatedAtFromPatch patch.metadata).any fun sourceUpdatedAt =>
    some sourceUpdatedAt ≠ existing.metadata.lifecycleStatusSourceUpdatedAt

def patchAutomation (metadata : WorkboardMetadata) : Except JsString WorkboardMetadata :=
  if patch.automation = .none then .ok metadata
  else do
    let automation ← normalizeAutomation patch.automation metadata.automation
    return trimMetadataToBudget { metadata with automation }

def patchText (value : Unknown) (old : Option NonBlank) : Option NonBlank :=
  if value = .undefined then old else normalizeOptionalString value

/-- `value || undefined`. -/
def truthy (n : ℕ) : Option ℕ :=
  if n = 0 then none else some n

/-- The metadata of the updated card, before the runs follow its execution record. -/
def patchMetadata (status : WorkboardStatus)
    (fresh allowDependencyLinks : Bool) (draw : ℕ → NonBlank) (now : ℕ) : Except JsString WorkboardMetadata := do
  let metadata ← normalizeMetadata patch.metadata existing.metadata allowDependencyLinks draw now
  -- a mark that was copied does not survive a manual transition
  let metadata ← patchAutomation patch
    (if status ≠ existing.status ∧ ¬fresh then { metadata with lifecycleStatusSourceUpdatedAt := none } else metadata)
  return patch.templateId.elim metadata fun templateId => { metadata with templateId }

def patchExecution (fresh : NonBlank) (now : ℕ) : Option WorkboardExecution :=
  match patch.execution with
  | .undefined =>
    if patch.sessionKey = .undefined then existing.execution
    else syncExecutionSessionKey existing.execution (normalizeOptionalString patch.sessionKey) now
  | value => normalizeExecution value fresh now

def patchStatus : Except JsString WorkboardStatus :=
  patch.status.elim (.ok existing.status) fun value => normalizeStatus value existing.status

/-- The updated card, with the entry the update adds to its log. -/
def patchCard (fresh allowDependencyLinks : Bool)
    (draw : ℕ → NonBlank) (now : ℕ) : Except JsString WorkboardCard := do
  let status ← patchStatus existing patch
  let metadata ← patchMetadata existing patch status fresh allowDependencyLinks (fun i => draw (i + 2)) now
  let title ← (if patch.title = .undefined then .ok existing.title else normalizeTitle patch.title)
  let notes ← (if patch.notes = .undefined then .ok existing.notes else normalizeNotes patch.notes)
  let priority ← patch.priority.elim (.ok existing.priority) fun value => normalizePriority value existing.priority
  let labels ← (if patch.labels = .undefined then .ok existing.labels else normalizeLabels patch.labels)
  let execution := patchExecution existing patch (draw 0) now
  let next : WorkboardCard := { existing with
    title, notes, status, priority, labels, execution
    agentId := patchText patch.agentId existing.agentId
    sessionKey := patchText patch.sessionKey existing.sessionKey
    runId := patchText patch.runId existing.runId
    taskId := patchText patch.taskId existing.taskId
    sourceUrl := patchText patch.sourceUrl existing.sourceUrl
    metadata := trimMetadataToBudget (syncExecutionAttemptMetadata metadata execution now)
    position := normalizePosition patch.position existing.position
    updatedAt := now
    startedAt :=
      if patch.startedAt = .undefined then
        if status = .running then existing.startedAt.or (some now) else existing.startedAt
      else truthy (normalizeTimestamp patch.startedAt 0)
    completedAt :=
      if status ≠ .done then none
      else if patch.completedAt = .undefined then existing.completedAt.or (some now)
      else truthy (normalizeTimestamp patch.completedAt 0) }
  return { next with events := appendEvent next (updateEvent existing next) (draw 1) now }

def RawMetadata.drawsOf : Field RawMetadata → ℕ
  | .object record => record.draws
  | _ => 0

def assertActiveStatusAllowed (existing next : WorkboardCard) (now : ℕ) : Except JsString Unit :=
  if next.status = .ready ∨ next.status = .running ∨ next.status = .review ∨ next.status = .done then
    if (cardParentIds next).all fun parentId => (w.card parentId.val.text).any (·.status = .done) then
      if next.status = .done then .ok ()
      else if isFuture next.metadata.scheduledAt now ∨
          (existing.status = .scheduled ∧ next.metadata.scheduledAt = none) then
        .error (js "card is scheduled for later.")
      else .ok ()
    else .error (js "card dependencies are not done.")
  else .ok ()

def updateCard (patch : WorkboardCardPatch) (options : UpdateOptions := {}) : Step WorkboardCard := do
  let existing ← requireCard id
  match effectivePatch existing patch with
  | none => return existing
  | some effective => do
    let now ← dateNow
    let draw ← drawIds (2 + RawMetadata.drawsOf effective.metadata)
    let next ← patchCard existing effective (hasFreshLifecycleStatusSource existing patch)
      options.allowMetadataDependencyLinks draw now.val
    let allowed ← view fun w =>
      if options.enforceStatusHolds ∧ effective.status.isSome then assertActiveStatusAllowed w existing next now.val
      else .ok ()
    lift allowed
    registerCard next
    deleteDetachedAttachments existing next
    return next

/-! ## Dependencies -/

/-- Depth first, over the cards as they are; each id is expanded once. -/
def dependsOnFrom (w : World) (target : JsString) : ℕ → List JsString → List JsString → Bool
  | 0, _, _ => false
  | _ + 1, [], _ => false
  | steps + 1, id :: stack, seen =>
    if id = target then true
    else if id ∈ seen then dependsOnFrom w target steps stack seen
    else
      let parents := (w.card id).elim [] fun card => (cardParentIds card).map (·.val.text)
      dependsOnFrom w target steps (parents ++ stack) (id :: seen)

/-- Enough passes to expand every card once. -/
def dependencySteps : ℕ :=
  2 + (w.cards.rows.map fun card => (cardParentIds card).length).sum

def dependsOn (cardId targetParentId : JsString) : Bool :=
  dependsOnFrom w targetParentId (dependencySteps w) [cardId] []

def parentsDone (parents : List (Bounded 120)) : Bool :=
  parents.all fun parentId => (w.card parentId.val.text).any (·.status = .done)

def dependencyTargetStatus (card : WorkboardCard) (now : ℕ) : WorkboardStatus :=
  let later := isFuture card.metadata.scheduledAt now
  if card.status = .scheduled ∧ card.metadata.scheduledAt = none then .scheduled
  else if cardParentIds card = [] then
    if later ∧ isDependencyPromotableStatus card.status then .scheduled
    else if card.status = .scheduled then .ready
    else card.status
  else if isDependencyPromotableStatus card.status then
    if later then .scheduled
    else if parentsDone w (cardParentIds card) then .ready
    else .todo
  else card.status

def promoteDependencyReady (now : ℕ) : Step WorkboardCard := do
  let card ← requireCard id
  let target ← view fun w => dependencyTargetStatus w card now
  if target = card.status then return card
  else updateCard card.id.val.text { status := some (.member target) }

structure LinkOptions where
  allowStatusOnlyActiveChild : Bool := false
  scope : Option WorkboardMutationScope := none

def dependencyLink (id : NonBlank) (type : WorkboardLinkType) (target : CardId) (createdAt : Positive) :
    WorkboardLink where
  id := id
  type := type
  createdAt := createdAt
  targetCardId := some target.target
  title := none
  url := none
  leads := rfl

/-- The links of one end of a dependency, with a new link unless there is one. -/
def linkedTo (card other : WorkboardCard) (type : WorkboardLinkType) (now : Positive) :
    Step (List WorkboardLink) := do
  if card.metadata.links.any fun link => link.type = type ∧ link.targetCardId = some other.id.target then
    return card.metadata.links
  else do
    let id ← randomUUID
    appendLinkPreservingDependencies card.metadata.links (dependencyLink id.val type other.id now)

def withLinks (card : WorkboardCard) (links : List WorkboardLink) : WorkboardCardPatch :=
  { metadata := .object { card.metadata with links }.raw }

/-- What stands in the way of a link. -/
def linkRefused (parent child : WorkboardCard) (options : LinkOptions) : Except JsString Unit := do
  assertCanMutateClaimedCard parent options.scope
  assertCanMutateClaimedCard child options.scope
  if (child.status = .done ∨ child.status = .blocked) ∧
      ¬parentsDone w (cardParentIds child ++ [parent.id.target]) then
    throw (js "terminal child cards cannot gain incomplete parent dependencies.")
  if isActiveDependencyTarget child options.allowStatusOnlyActiveChild then
    throw (js "active child cards cannot gain parent dependencies.")
  if dependsOn w parent.id.val.text child.id.val.text then
    throw (js "dependency link would create a cycle.")

def linkCardsDirect (parentId childId : JsString) (now : Positive) (options : LinkOptions) : Step WorkboardCard := do
  if trim parentId = trim childId then fail (js "parent and child cards must differ.")
  else do
    let parent ← requireCard parentId
    let child ← requireCard childId
    let refused ← view fun w => linkRefused w parent child options
    lift refused
    let nextParentLinks ← linkedTo parent child .child now
    let nextChildLinks ← linkedTo child parent .parent now
    let _ ← updateCard parent.id.val.text (withLinks parent nextParentLinks)
    let nextChild ← updateCard child.id.val.text (withLinks child nextChildLinks)
    let promotedAt ← dateNow
    promoteDependencyReady nextChild.id.val.text promotedAt.val

/-! ## Creation and deletion -/

def removeReferences (cardId : JsString) (card : WorkboardCard) : Step Unit :=
  if card.metadata.links.any (·.targetCardId.any (·.val.text = cardId)) then do
    let _ ← updateCard card.id.val.text
      (withLinks card (card.metadata.links.filter fun link => !link.targetCardId.any (·.val.text = cardId)))
    return ()
  else return ()

/-- The list is taken once; each card on it is as it was then. -/
def removeReferencesToCard (cardId : JsString) : Step Unit := do
  let cards ← view (World.list · none)
  forEach (removeReferences cardId) cards

def deleteDirect : Step Bool := do
  let deleted ← deleteCardRow (trim id)
  if deleted then do
    change fun w => { w with
      subscriptions := w.subscriptions.deleteWhere fun s => s.cardId.any (·.val.text = trim id) }
    removeReferencesToCard (trim id)
    return true
  else return false

def POSITION_STEP : ℕ := 1000

def inputAutomation (input : WorkboardCardPatch) : RawAutomation where
  tenant := input.tenant
  boardId := some input.boardId
  createdByCardId := input.createdByCardId
  idempotencyKey := input.idempotencyKey
  skills := some input.skills
  workspace := some input.workspace
  maxRuntimeSeconds := some input.maxRuntimeSeconds
  maxRetries := some input.maxRetries
  scheduledAt := some input.scheduledAt
  summary := .undefined
  createdCardIds := none
  dispatchCount := none
  lastDispatchAt := none

/-- The status a new card starts in, and whether its dependencies hold it back. -/
def initialStatus (requested : WorkboardStatus) (hasParents heldBySchedule : Bool) : WorkboardStatus × Bool :=
  let status := if heldBySchedule then .scheduled else requested
  if hasParents ∧ (status = .running ∨ status = .review) then (.todo, true) else (status, false)

variable (cards : List WorkboardCard)

/-- A card that was made for the same key. -/
def idempotentMatch (automation : Option WorkboardAutomation) : Option WorkboardCard :=
  match automation with
  | none => none
  | some automation =>
    match automation.idempotencyKey with
    | none => none
    | some key => cards.find? fun card =>
      card.metadata.automation.bind (·.idempotencyKey) = some key ∧
        card.metadata.automation.bind (·.tenant) = automation.tenant ∧
        cardBoardId card = automation.boardId.getD .default

def findParents (parents : List (Bounded 120)) : Except JsString (List WorkboardCard) :=
  parents.mapM fun parentId =>
    match cards.find? (·.id.val.text = parentId.val.text) with
    | some parent => .ok parent
    | none => .error (cardNotFound parentId.val.text)

/-- The automation record of the new card; a single parent is its maker unless the input names one. -/
def childAutomation (automation : Option WorkboardAutomation) (parents : List (Bounded 120)) :
    Except JsString (Option WorkboardAutomation) :=
  let maker := (automation.bind (·.createdByCardId)).or (match parents with | [parent] => some parent | _ => none)
  normalizeAutomation (some { (automation.getD .empty).raw with createdByCardId := rawBounded maker }) automation

def metadataWith (templateId : Option WorkboardTemplateId) (automation : Option WorkboardAutomation) :
    WorkboardMetadata :=
  { WorkboardMetadata.empty with templateId, automation }

def newCard (input : WorkboardCardPatch) (status : WorkboardStatus)
    (automation : Option WorkboardAutomation) (held : Bool) (id : CardId) (draw : ℕ → NonBlank) (now : ℕ) :
    Except JsString WorkboardCard := do
  let notes ← normalizeNotes input.notes
  let normalizedExecution := normalizeExecution input.execution (draw 0) now
  let execution := if normalizedExecution.any (·.status = .running) ∧ held then none else normalizedExecution
  let metadata ← normalizeMetadata input.metadata (metadataWith (input.templateId.getD none) automation) false
    (fun i => draw (i + 2)) now
  let title ← normalizeTitle input.title
  let priority ← input.priority.elim (.ok .normal) fun value => normalizePriority value .normal
  let labels ← normalizeLabels input.labels
  let sessionKey := normalizeOptionalString input.sessionKey
  let runId := normalizeOptionalString input.runId
  return {
    id, title, notes, status, priority, labels, execution, sessionKey, runId
    position := match input.position with
      | .number q => truncated q
      | _ => ((cards.filter (·.status = status)).map (·.position)).foldr max 0 + POSITION_STEP
    createdAt := now
    updatedAt := now
    agentId := normalizeOptionalString input.agentId
    taskId := normalizeOptionalString input.taskId
    sourceUrl := normalizeOptionalString input.sourceUrl
    startedAt :=
      if input.startedAt = .undefined then if status = .running then some now else none
      else truthy (normalizeTimestamp input.startedAt 0)
    completedAt :=
      if input.completedAt = .undefined then if status = .done then some now else none
      else truthy (normalizeTimestamp input.completedAt 0)
    events := [⟨draw 1, .created, now, none, some status, sessionKey, runId⟩]
    metadata := trimMetadataToBudget (syncExecutionAttemptMetadata metadata execution now) }

def linkParents (card : WorkboardCard) (parents : List WorkboardCard) (now : Positive)
    (scope : Option WorkboardMutationScope) : Step WorkboardCard :=
  parents.foldlM (fun _ parent => linkCardsDirect parent.id.val.text card.id.val.text now
    { allowStatusOnlyActiveChild := true, scope }) card

def undoCreate (error : JsString) : Step WorkboardCard := do
  let _ ← deleteCardRow id
  removeReferencesToCard id
  fail error

def createDirect (input : WorkboardCardPatch) (scope : Option WorkboardMutationScope) : Step WorkboardCard := do
  let now ← dateNow
  let requestedStatus ← lift (input.status.elim (.ok .todo) fun value => normalizeStatus value .todo)
  let cards ← view (World.list · none)
  let parents : StringList 120 ← normalizeStringList input.parents (js "parents")
  let automation ← normalizeAutomation (some (inputAutomation input)) none
  let heldBySchedule := isFuture (automation.bind (·.scheduledAt)) now.val && requestedStatus ≠ .blocked
  let initial := initialStatus requestedStatus (!parents.val.isEmpty) heldBySchedule
  match idempotentMatch cards automation with
  | some existing => return existing
  | none => do
    let parentCards ← findParents cards parents.val
    let automation ← childAutomation automation parents.val
    let id ← randomUUID
    let draw ← drawIds (2 + RawMetadata.drawsOf input.metadata)
    let card ← newCard cards input initial.1 automation (heldBySchedule || initial.2) id draw now.val
    registerCard card
    recover (linkParents card parentCards now scope) (undoCreate card.id.val.text)

end ClawWorks.Workboard
