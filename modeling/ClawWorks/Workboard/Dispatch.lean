import ClawWorks.Workboard.Notifications

/-!
# Passes over the whole board

What the store does to all cards of a board or to all cards: promotion of cards whose dependencies are done, the
dispatch pass, diagnostics, bulk updates; and the boards themselves.
-/

namespace ClawWorks.Workboard

open Mutation

/-! ## Boards -/

structure RawOrchestration where
  autoDecompose : Option Bool
  autoDecomposePerDispatch : Unknown
  defaultAssignee : Unknown
  orchestratorProfile : Unknown

structure WorkboardBoardInput where
  id : Unknown
  name : Unknown
  description : Unknown
  icon : Unknown
  color : Unknown
  defaultWorkspace : Option (Field RawWorkspace)
  orchestration : Option (Option RawOrchestration)
  /-- `archived === false`, where it is given. -/
  archived : Option Bool

def WorkboardOrchestrationSettings.empty : WorkboardOrchestrationSettings :=
  ⟨none, none, none, none⟩

def normalizeOrchestration (value : Option RawOrchestration) (fallback : Option WorkboardOrchestrationSettings) :
    Except JsString (Option WorkboardOrchestrationSettings) :=
  match value with
  | none => .ok fallback
  | some record => do
    let old := fallback.getD .empty
    let defaultAssignee ← normalizeBoundedString record.defaultAssignee old.defaultAssignee (js "default assignee")
    let orchestratorProfile ←
      normalizeBoundedString record.orchestratorProfile old.orchestratorProfile (js "orchestrator profile")
    let next : WorkboardOrchestrationSettings := {
      autoDecompose := record.autoDecompose.or old.autoDecompose
      autoDecomposePerDispatch := match record.autoDecomposePerDispatch with
        | .number q => some ⟨max 1 (min 20 (truncated q)), lt_of_lt_of_le one_pos (le_max_left _ _)⟩
        | _ => old.autoDecomposePerDispatch
      defaultAssignee, orchestratorProfile }
    return if next = .empty then none else some next

def normalizeBoardMetadata (id : BoardId) (input : WorkboardBoardInput) (fallback : Option WorkboardBoardMetadata)
    (now : Positive) : Except JsString WorkboardBoardMetadata := do
  let name ← normalizeBoundedString input.name (fallback.bind (·.name)) (js "board name")
  let description ← normalizeBoundedString input.description (fallback.bind (·.description)) (js "board description")
  let icon ← normalizeBoundedString input.icon (fallback.bind (·.icon)) (js "board icon")
  let color ← normalizeBoundedString input.color (fallback.bind (·.color)) (js "board color")
  let defaultWorkspace ← input.defaultWorkspace.elim (.ok (fallback.bind (·.defaultWorkspace))) fun value =>
    normalizeWorkspace value (fallback.bind (·.defaultWorkspace))
  let orchestration ← input.orchestration.elim (.ok (fallback.bind (·.orchestration))) fun value =>
    normalizeOrchestration value (fallback.bind (·.orchestration))
  return {
    id, name, description, icon, color, defaultWorkspace, orchestration
    createdAt := (fallback.map (·.createdAt)).getD now.val
    updatedAt := now.val
    archivedAt := match input.archived with
      | none => fallback.bind (·.archivedAt)
      | some archived => if archived then some now else none }

variable [Platform]

def upsertBoard (input : WorkboardBoardInput) : Step WorkboardBoardMetadata := do
  let id ← normalizeBoardId input.id none
  let id := id.getD .default
  let existing ← view fun w => w.boards.get? id
  let now ← dateNow
  let board ← normalizeBoardMetadata id input existing now
  change fun w => { w with boards := w.boards.put board }
  return board

def archiveBoard (id : Unknown) (archived : Bool) : Step WorkboardBoardMetadata :=
  upsertBoard ⟨id, .undefined, .undefined, .undefined, .undefined, none, none, some archived⟩

def deleteBoard (id : Unknown) : Step Bool := do
  let boardId ← normalizeBoardId id none
  let boardId := boardId.getD .default
  if boardId = .default then fail (js "default board cannot be deleted.")
  else do
    let cards ← view (World.list · (some boardId))
    if cards ≠ [] then fail (js "board still has cards; archive it or move/delete the cards first.")
    else do
      let board ← view fun w => w.boards.get? boardId
      change fun w => { w with
        subscriptions := w.subscriptions.deleteWhere (·.boardId = boardId)
        boards := w.boards.deleteWhere (·.id = boardId) }
      return board.isSome

def promoteReady (now : Option ℕ) : Step Unit := do
  let read ← dateNow
  let cards ← view (World.list · none)
  forEach (fun card => do
    let _ ← promoteDependencyReady card.id.val.text (now.getD read.val)
    return ()) cards

/-! ## Dispatch -/

variable (card : WorkboardCard)

/-- `{ ...card, metadata, events }`, written at once. -/
def recordOn (metadata : WorkboardMetadata) (kind : WorkboardEventKind) (now : ℕ) : Step WorkboardCard := do
  let eventId ← randomUUID
  let next := logged { card with metadata } kind eventId.val now
  registerCard next
  return next

def dispatched (automation : Option WorkboardAutomation) (now : ℕ) : Except JsString (Option WorkboardAutomation) :=
  normalizeAutomation (some { (automation.getD .empty).raw with
    dispatchCount := some (rawNumber (((automation.bind (·.dispatchCount)).map (·.val)).getD 0 + 1))
    lastDispatchAt := some (rawNumber now) }) automation

variable (now : ℕ)

def recordDispatch : Step WorkboardCard := do
  let read ← dateNow
  let automation ← lift (dispatched card.metadata.automation now)
  let record := { card.metadata with automation }.raw
  let draw ← drawIds record.draws
  let metadata ← lift (normalizeMetadata (.object record) card.metadata true draw read.val)
  recordOn card (trimMetadataToBudget metadata) .dispatch now

def orchestrationLog (id : NonBlank) (now : ℕ) : WorkboardWorkerLog where
  id := id
  level := .info
  message := fixed _ "Auto orchestration marked this triage card for specification or decomposition." (by decide)
  createdAt := now
  sessionKey := none
  runId := none

def recordOrchestrationCandidate : Step WorkboardCard := do
  let logId ← randomUUID
  let metadata := trimMetadataToBudget { withWorkerLog card.metadata (orchestrationLog logId.val now) with
    workerProtocol := some {
      state := .idle, updatedAt := now
      detail := some (fixed _ "Awaiting workboard_specify or workboard_decompose." (by decide)) } }
  recordOn card metadata .orchestration now

def shouldAutoOrchestrate (w : World) (card : WorkboardCard) : Bool :=
  card.status = .triage && card.metadata.archivedAt = none &&
    card.metadata.workerProtocol.map (·.state) ≠ some .idle &&
    ((w.boards.get? (cardBoardId card)).bind (·.orchestration)).bind (·.autoDecompose) = some true

/-- The run has gone on for longer than the card allows. -/
def timedOut : Bool :=
  let runtimeStartedAt := (((latestRunningAttempt card).map (·.startedAt)).or
    (card.metadata.claim.map (·.claimedAt.val))).or card.startedAt
  (card.metadata.automation.bind (·.maxRuntimeSeconds)).any fun maxRuntimeSeconds =>
    runtimeStartedAt.any fun startedAt => startedAt ≠ 0 && now - startedAt > secondsToDurationMs maxRuntimeSeconds.val

def claimExpired : Bool :=
  (card.metadata.claim.bind (·.expiresAt)).any fun expiresAt => now - expiresAt.val > CLAIM_RECLAIM_MS

def blockRun (reason : Bounded 240) : Step WorkboardCard := do
  let notification ← notify .failed reason none none now
  updateCard card.id.val.text {
    status := some (.member .blocked)
    execution := endedExecution card.execution .blocked now
    metadata := .object
      { withNotification card.metadata notification with
        claim := none
        attempts := closeRunningAttempts card.metadata.attempts now .blocked (some reason.val)
        failureCount := card.metadata.failureCount + 1 }.raw }

/-- A run that is over is blocked; a claim that ran out elsewhere is taken back. -/
def endRun : Step WorkboardCard :=
  if card.status = .running ∧ (timedOut card now ∨ claimExpired card now) then
    blockRun card now (if timedOut card now then fixed _ "Run exceeded the card max runtime." (by decide)
      else fixed _ "Claim expired without a recent heartbeat." (by decide))
  else if claimExpired card now then
    updateCard card.id.val.text { metadata := .object { card.metadata with claim := none }.raw }
  else return card

/-- A card that may not be tried again is blocked; whether it may was known before its run was ended. -/
def giveUp (retriesExhausted : Bool) (now : ℕ) : Step WorkboardCard :=
  if card.metadata.claim = none ∧ retriesExhausted ∧ isDependencyPromotableStatus card.status then do
    let notification ← notify .failed (fixed _ "Card exhausted its retry budget." (by decide)) none none now
    updateCard card.id.val.text {
      status := some (.member .blocked)
      metadata := .object (withNotification card.metadata notification).raw }
  else return card

abbrev OrchestratedByBoard := List (BoardId × ℕ)

variable (counts : OrchestratedByBoard)

def orchestrationCount (boardId : BoardId) : ℕ :=
  ((counts.find? (·.1 = boardId)).map (·.2)).getD 0

def orchestrationCap (w : World) (boardId : BoardId) : ℕ :=
  ((((w.boards.get? boardId).bind (·.orchestration)).bind (·.autoDecomposePerDispatch)).map (·.val)).getD 3

def orchestrate (card : WorkboardCard) (now : ℕ) : Step OrchestratedByBoard := do
  let cap ← view fun w =>
    if shouldAutoOrchestrate w card then orchestrationCap w (cardBoardId card) else 0
  if orchestrationCount counts (cardBoardId card) < cap then do
    let _ ← recordOrchestrationCandidate card now
    return (cardBoardId card, orchestrationCount counts (cardBoardId card) + 1) :: counts
  else return counts

def dispatchCard (card : WorkboardCard) : Step OrchestratedByBoard := do
  let promoted ← promoteDependencyReady card.id.val.text now
  let ended ← endRun promoted now
  let latest ← giveUp ended (retryBudgetExhausted promoted) now
  let latest ← (if latest.status = .ready then recordDispatch latest now else pure latest)
  orchestrate counts latest now

/-- `dispatch({ now, boardId })`; the time is the clock's unless the caller gives one. -/
def dispatch (now boardId : Unknown) : Step Unit := do
  let read ← dateNow
  let boardId ← normalizeBoardId boardId none
  let cards ← view (World.list · boardId)
  let _ ← cards.foldlM (dispatchCard (normalizeTimestamp now read.val)) []
  return ()

def refreshCard (card : WorkboardCard) : Step Unit := do
  let latest ← view fun w => w.card card.id.val.text
  match latest with
  | none => return ()
  | some latest =>
    let diagnostics := mergeDiagnostics latest.metadata.diagnostics (computeCardDiagnostics latest now)
    if diagnostics = [] ∧ latest.metadata.diagnostics = [] then return ()
    else registerCard { latest with metadata := trimMetadataToBudget { latest.metadata with diagnostics } }

def refreshDiagnostics (now : Option ℕ) : Step Unit := do
  let read ← dateNow
  let cards ← view (World.list · none)
  forEach (refreshCard (now.getD read.val)) cards

def bulkCard (patch : WorkboardCardPatch) (archived : Option Bool) (id : JsString) : Step Unit := do
  let _ ← archived.elim (update id patch) (archive id)
  return ()

def bulkUpdate (ids : List JsString) (patch : WorkboardCardPatch) (archived : Option Bool) : Step Unit :=
  let ids := ids.filter fun id => trim id ≠ []
  if ids = [] then fail (js "ids are required.")
  else forEach (bulkCard patch archived) ids

end ClawWorks.Workboard
