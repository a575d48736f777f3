import ClawWorks.Workboard.Store

/-!
# Operations on cards

What a caller can do to one card, under the source's names. A scope says on whose behalf; an operation that takes one
refuses to touch a card that another worker claims.
-/

namespace ClawWorks.Workboard

open Mutation

variable [Platform]

def create (input : WorkboardCardPatch) (scope : Option WorkboardMutationScope) : Step WorkboardCard :=
  createDirect input scope

variable (id : JsString)

def update (patch : WorkboardCardPatch) : Step WorkboardCard :=
  updateCard id patch { allowMetadataDependencyLinks := false, enforceStatusHolds := true }

def move (status : Option (Choice WorkboardStatus)) (position : Unknown) : Step WorkboardCard :=
  update id { status, position }

def delete : Step Bool :=
  deleteDirect id

def linkCards (parentId childId : JsString) (scope : Option WorkboardMutationScope) : Step WorkboardCard := do
  let now ← dateNow
  linkCardsDirect parentId childId now { scope }

def updateMetadata (mutate : WorkboardCard → Step RawMetadata) : Step WorkboardCard := do
  let existing ← requireCard id
  let metadata ← mutate existing
  updateCard id { metadata := .object metadata }

variable (scope : Option WorkboardMutationScope)

def requireMine : Step WorkboardCard := do
  let existing ← requireCard id
  lift (assertCanMutateClaimedCard existing scope)
  return existing

/-! ## Comments, links, proof, artifacts, logs -/

variable (metadata : WorkboardMetadata)

/-- `[...comments, comment].slice(-MAX_CARD_COMMENTS)`. -/
def withComment (comment : WorkboardComment) : WorkboardMetadata :=
  { metadata with comments := (metadata.comments ++ [comment]).rtake MAX_CARD_COMMENTS }

/-- A text goes into the comments if there is one. -/
def withNote (note : Option (Bounded 2000)) (now : Positive) : Step WorkboardMetadata :=
  match note with
  | none => return metadata
  | some body => do
    let id ← randomUUID
    return withComment metadata { id := id.val, body, createdAt := now, updatedAt := none }

def addComment (body : Unknown) (scope : Option WorkboardMutationScope) : Step WorkboardCard := do
  let now ← dateNow
  let body : Option (Bounded 2000) ← normalizeBoundedString body none (js "comment body")
  match body with
  | none => fail (js "comment body is required.")
  | some body => do
    let commentId ← randomUUID
    updateMetadata id fun existing => do
      lift (assertCanMutateClaimedCard existing scope)
      return (withComment existing.metadata { id := commentId.val, body, createdAt := now, updatedAt := none }).raw

structure WorkboardLinkInput where
  type : Option WorkboardLinkType
  targetCardId : Unknown
  title : Unknown
  url : Unknown

def normalizeLinkInput (input : WorkboardLinkInput) (id : NonBlank) (now : Positive) :
    Except JsString WorkboardLink := do
  let targetCardId : Option (Bounded 120) ← normalizeBoundedString input.targetCardId none (js "link target")
  let url : Option (Bounded 2000) ← normalizeBoundedString input.url none (js "link URL")
  let title : Option (Bounded 180) ← normalizeBoundedString input.title none (js "link title")
  if leads : (targetCardId.isSome || url.isSome) = true then
    let type := input.type.getD .relatesTo
    if type = .parent ∨ type = .child then
      throw (js "parent and child dependency links must use linkDependency.")
    else return { id, type, createdAt := now, targetCardId, title, url, leads }
  else throw (js "link targetCardId or url is required.")

def addLink (input : WorkboardLinkInput) : Step WorkboardCard := do
  let now ← dateNow
  let linkId ← randomUUID
  let link ← normalizeLinkInput input linkId.val now
  updateMetadata id fun existing => do
    let links ← appendLinkPreservingDependencies existing.metadata.links link
    return { existing.metadata with links }.raw

structure WorkboardProofInput where
  status : Option WorkboardProofStatus
  label : Unknown
  command : Unknown
  url : Unknown
  note : Unknown

def normalizeProofInput (input : WorkboardProofInput) (id : NonBlank) (now : Positive) :
    Except JsString WorkboardProof := do
  let label ← normalizeBoundedString input.label none (js "proof label")
  let command ← normalizeBoundedString input.command none (js "proof command")
  let url ← normalizeBoundedString input.url none (js "proof URL")
  let note ← normalizeBoundedString input.note none (js "proof note")
  return { id, status := input.status.getD .unknown, createdAt := now, label, command, url, note }

def withProof (proof : WorkboardProof) : WorkboardMetadata :=
  { metadata with proof := (metadata.proof ++ [proof]).rtake MAX_CARD_PROOF }

def withArtifacts (artifacts : List WorkboardArtifact) : WorkboardMetadata :=
  { metadata with artifacts := (metadata.artifacts ++ artifacts).rtake MAX_CARD_ARTIFACTS }

def addProof (input : WorkboardProofInput) (scope : Option WorkboardMutationScope) : Step WorkboardCard := do
  let now ← dateNow
  let proofId ← randomUUID
  let proof ← normalizeProofInput input proofId.val now
  updateMetadata id fun existing => do
    lift (assertCanMutateClaimedCard existing scope)
    return (withProof (clearDiagnostics existing.metadata [.missingProof]) proof).raw

def normalizeArtifactInput (input : RawArtifact) (fresh : NonBlank) (now : Positive) :
    Except JsString WorkboardArtifact := do
  let artifact ← normalizeArtifact { input with createdAt := rawNumber now.val } fresh now.val
  match artifact with
  | none => throw (js "artifact url or path is required.")
  | some artifact => return artifact

def addProofWithArtifact (proofInput : WorkboardProofInput) (artifactInput : RawArtifact)
    (scope : Option WorkboardMutationScope) : Step WorkboardCard := do
  let now ← dateNow
  let proofId ← randomUUID
  let proof ← normalizeProofInput proofInput proofId.val now
  let artifactId ← randomUUID
  let artifact ← normalizeArtifactInput artifactInput artifactId.val now
  updateMetadata id fun existing => do
    lift (assertCanMutateClaimedCard existing scope)
    return (withArtifacts (withProof (clearDiagnostics existing.metadata [.missingProof]) proof) [artifact]).raw

def addArtifact (input : RawArtifact) (scope : Option WorkboardMutationScope) : Step WorkboardCard := do
  let now ← dateNow
  let artifactId ← randomUUID
  let artifact ← normalizeArtifactInput input artifactId.val now
  updateMetadata id fun existing => do
    lift (assertCanMutateClaimedCard existing scope)
    return (withArtifacts (clearDiagnostics existing.metadata [.missingProof]) [artifact]).raw

structure WorkboardWorkerLogInput where
  level : Option WorkerLogLevel
  message : Unknown
  sessionKey : Unknown
  runId : Unknown

def withWorkerLog (log : WorkboardWorkerLog) : WorkboardMetadata :=
  { metadata with workerLogs := (metadata.workerLogs ++ [log]).rtake MAX_CARD_WORKER_LOGS }

def addWorkerLog (input : WorkboardWorkerLogInput) (scope : Option WorkboardMutationScope) : Step WorkboardCard := do
  let now ← dateNow
  let message : Option (Bounded 800) ← normalizeBoundedString input.message none (js "worker log message")
  match message with
  | none => fail (js "worker log message is required.")
  | some message => do
    let sessionKey ← lift (normalizeBoundedString input.sessionKey none (js "session key"))
    let runId ← lift (normalizeBoundedString input.runId none (js "run id"))
    let logId ← randomUUID
    let log : WorkboardWorkerLog :=
      { id := logId.val, level := input.level.getD .info, message, createdAt := now.val, sessionKey, runId }
    updateMetadata id fun existing => do
      lift (assertCanMutateClaimedCard existing scope)
      return (withWorkerLog existing.metadata log).raw

/-! ## Attachments -/

def MAX_ATTACHMENT_BYTES : ℕ := 256 * 1024

structure WorkboardAttachmentInput where
  fileName : Unknown
  contentBase64 : Unknown
  mimeType : Unknown
  note : Unknown

/-- The six bits of a unit of base64 text. -/
def base64Value (u : UInt16) : Option ℕ :=
  if 65 ≤ u ∧ u ≤ 90 then some (u.toNat - 65)
  else if 97 ≤ u ∧ u ≤ 122 then some (u.toNat - 71)
  else if 48 ≤ u ∧ u ≤ 57 then some (u.toNat + 4)
  else if u = 43 then some 62
  else if u = 47 then some 63
  else none

/-- How many bytes a base64 text stands for, if it is the text that these bytes are written as. -/
def base64ByteSize (s : JsString) : Option ℕ :=
  let units := s.takeWhile (· ≠ 61)
  let padding := s.drop units.length
  let spare := 2 ^ (2 * padding.length)
  if padding = List.replicate padding.length 61 ∧ padding.length ≤ 2 ∧ s.length % 4 = 0 ∧
      (units.all fun u => (base64Value u).isSome) ∧ ((units.getLast?.bind base64Value).getD 0) % spare = 0 then
    some (units.length * 6 / 8)
  else none

def notCanonical : JsString :=
  js "attachment contentBase64 must be canonical base64."

def normalizeAttachmentInput (cardId : CardId) (input : WorkboardAttachmentInput) (id : NonBlank) (now : Positive) :
    Except JsString (WorkboardAttachment × JsString) := do
  let fileName : Option (Bounded 240) ← normalizeBoundedString input.fileName none (js "attachment file name")
  match fileName, input.contentBase64 with
  | none, _ => throw (js "attachment fileName is required.")
  | some fileName, .string (u :: rest) =>
    let contentBase64 := u :: rest
    if contentBase64.length > (MAX_ATTACHMENT_BYTES + 2) / 3 * 4 then throw notCanonical
    else
      match base64ByteSize contentBase64 with
      | none => throw notCanonical
      | some byteSize =>
        if h : 0 < byteSize ∧ byteSize ≤ MAX_ATTACHMENT_BYTES then do
          let mimeType ← normalizeBoundedString input.mimeType none (js "attachment MIME type")
          let note ← normalizeBoundedString input.note none (js "attachment note")
          return ({ id, cardId := cardId.target, createdAt := now, fileName, byteSize := ⟨byteSize, h.1⟩
                    mimeType, note }, contentBase64)
        else throw (js "attachment must be between 1 and " ++ decimal MAX_ATTACHMENT_BYTES ++ js " bytes.")
  | some _, _ => throw (js "attachment contentBase64 is required.")

def withAttachment (attachment : WorkboardAttachment) : WorkboardMetadata :=
  { clearDiagnostics metadata [.missingProof] with
    attachments := (metadata.attachments ++ [attachment]).rtake MAX_CARD_ATTACHMENTS }

def deleteAndFail (id : NonBlank) (error : JsString) : Step WorkboardCard := do
  deleteAttachmentRow id
  fail error

def indexAttachment (existing : WorkboardCard) (attachment : WorkboardAttachment) : Step WorkboardCard := do
  let updated ← updateCard id { metadata := .object (withAttachment existing.metadata attachment).raw }
  if updated.metadata.attachments.any (·.id = attachment.id) then return updated
  else deleteAndFail attachment.id (js "attachment metadata was trimmed before it could be indexed.")

def addAttachment (input : WorkboardAttachmentInput) (scope : Option WorkboardMutationScope) :
    Step WorkboardCard := do
  let existing ← requireMine id scope
  let now ← dateNow
  let attachmentId ← randomUUID
  let stored ← normalizeAttachmentInput existing.id input attachmentId.val now
  registerAttachment stored.1.id stored.2
  recover (indexAttachment id existing stored.1) (deleteAndFail stored.1.id)

def deleteAttachment (cardId attachmentId : JsString) (scope : Option WorkboardMutationScope) :
    Step WorkboardCard := do
  let existing ← requireMine cardId scope
  match existing.metadata.attachments.find? (·.id.text = attachmentId) with
  | none => fail (js "attachment not found: " ++ attachmentId)
  | some attachment => do
    deleteAttachmentRow attachment.id
    updateCard cardId { metadata := .object (dropAttachments [attachment.id] existing).metadata.raw }

/-! ## Claims -/

structure WorkboardClaimInput where
  ownerId : Unknown
  token : Unknown
  ttlSeconds : Unknown

/-- The length of a lease. -/
def claimDurationMs (ttlSeconds : Unknown) : ℕ :=
  match ttlSeconds with
  | .number q => secondsToDurationMs (max 1 (truncated q))
  | _ => DEFAULT_CLAIM_TTL_MS

/-- What stands in the way of a claim. -/
def claimRefused (guarded : WorkboardCard) (now : ℕ) : Except JsString Unit :=
  if cardParentIds guarded ≠ [] ∧ guarded.status ≠ .ready then .error (js "card dependencies are not done.")
  else if guarded.status = .scheduled then .error (js "card is scheduled for later.")
  else if retryBudgetExhausted guarded then .error (js "card exhausted its retry budget.")
  else
    match guarded.metadata.claim with
    | some existingClaim =>
      if isFutureDateTimestampMs existingClaim.expiresAt now then
        .error (js "card already claimed by " ++ existingClaim.ownerId.val.text ++ js ".")
      else .ok ()
    | none => .ok ()

def claimToken (token : Unknown) : Step (Bounded 160) := do
  let given : Option (Bounded 160) ← normalizeBoundedString token none (js "claim token")
  match given with
  | some token => return token
  | none => do
    let id ← randomUUID
    return Bounded.widen id (by decide)

/-- A lease that starts now. -/
def newClaim (ownerId : Bounded 120) (token : Bounded 160) (now : Positive) (durationMs : ℕ) : WorkboardClaim where
  ownerId := ownerId
  token := token
  claimedAt := now
  lastHeartbeatAt := now
  expiresAt := some ⟨addWorkboardDurationMs now.val durationMs, addWorkboardDurationMs_pos now.property _⟩

def statusOnClaim : WorkboardStatus → WorkboardStatus
  | .backlog | .todo | .ready => .running
  | status => status

def claim (id : JsString) (input : WorkboardClaimInput) : Step (WorkboardCard × Bounded 160) := do
  let ownerId : Option (Bounded 120) ← normalizeBoundedString input.ownerId none (js "claim owner")
  match ownerId with
  | none => fail (js "claim ownerId is required.")
  | some ownerId => do
    let token ← claimToken input.token
    let now ← dateNow
    let guarded ← promoteDependencyReady id now.val
    lift (claimRefused guarded now.val)
    let claimed := { clearDiagnostics guarded.metadata [.strandedReady] with
      claim := some (newClaim ownerId token now (claimDurationMs input.ttlSeconds)) }
    let card ← updateCard id { metadata := .object claimed.raw }
    let next ← updateCard card.id.val.text {
      status := some (.member (statusOnClaim card.status))
      agentId := (card.agentId.getD ownerId.val).raw }
    return (next, token)

structure WorkboardHeartbeatInput where
  token : Unknown
  ownerId : Unknown
  note : Unknown

variable (claim : WorkboardClaim)

/-- A token is checked, or else an owner; who gives neither passes. -/
def assertHoldsClaim (token ownerId : Unknown) : Except JsString Unit :=
  match normalizeOptionalString token with
  | some token => if token ≠ claim.token.val then .error (js "claim token does not match.") else .ok ()
  | none =>
    match normalizeOptionalString ownerId with
    | some ownerId => if ownerId ≠ claim.ownerId.val then .error (js "claim owner does not match.") else .ok ()
    | none => .ok ()

def leaseMs (expiresAt : ℕ) : ℕ :=
  max 1 (if expiresAt > claim.claimedAt.val then expiresAt - claim.lastHeartbeatAt.val else DEFAULT_CLAIM_TTL_MS)

/-- The claim after a beat; `now` is later than the last one. -/
def beat (now : Positive) : WorkboardClaim :=
  { claim with
    lastHeartbeatAt := now
    expiresAt := claim.expiresAt.map fun expiresAt =>
      ⟨addWorkboardDurationMs now.val (leaseMs claim expiresAt.val), addWorkboardDurationMs_pos now.property _⟩ }

def beatTime (now : Positive) : Positive :=
  ⟨max now.val (claim.lastHeartbeatAt.val + 1), lt_of_lt_of_le now.property (le_max_left _ _)⟩

def heartbeat (id : JsString) (input : WorkboardHeartbeatInput) : Step WorkboardCard := do
  let note : Option (Bounded 400) ← normalizeBoundedString input.note none (js "heartbeat note")
  updateMetadata id fun existing =>
    match existing.metadata.claim with
    | none => fail (js "card is not claimed.")
    | some claim => do
      let read ← dateNow
      lift (assertHoldsClaim claim input.token input.ownerId)
      let now := beatTime claim read
      let metadata ← withNote (clearDiagnostics existing.metadata [.runningWithoutHeartbeat])
        (note.map (Bounded.widen · (by decide))) now
      return { metadata with claim := some (beat claim now) }.raw

structure WorkboardReleaseInput where
  token : Unknown
  ownerId : Unknown
  status : Option (Choice WorkboardStatus)

def statusOr (existing : WorkboardCard) (status : Option (Choice WorkboardStatus)) : Except JsString WorkboardStatus :=
  status.elim (.ok existing.status) fun value => normalizeStatus value existing.status

def releaseClaim (input : WorkboardReleaseInput) : Step WorkboardCard := do
  let existing ← requireCard id
  let status ← statusOr existing input.status
  lift (existing.metadata.claim.elim (.ok ()) fun claim => assertHoldsClaim claim input.token input.ownerId)
  updateCard id { status := some (.member status), metadata := .object { existing.metadata with claim := none }.raw }
    { enforceStatusHolds := input.status.isSome }

/-! ## The end of a run -/

def withNotification (notification : WorkboardNotification) : WorkboardMetadata :=
  { metadata with notifications := (metadata.notifications ++ [notification]).rtake MAX_CARD_NOTIFICATIONS }

/-- A notification about a card, under the next sequence number. -/
def notify (kind : WorkboardNotificationKind) (message : Bounded 240) (sessionKey runId : Option NonBlank) (now : ℕ) :
    Step WorkboardNotification := do
  let id ← randomUUID
  let sequence ← nextNotificationSequence now
  return { id := id.val, kind, createdAt := now, sequence := some sequence, message, sessionKey, runId }

/-- The execution record of a run that ended, if it was running. -/
def endedExecution (execution : Option WorkboardExecution) (status : WorkboardExecutionStatus) (now : ℕ) :
    Field RawExecution :=
  match execution with
  | none => .undefined
  | some execution =>
    .object (if execution.status = .running then { execution with status, updatedAt := now } else execution).raw

structure WorkboardProtocolViolationInput where
  detail : Unknown
  sessionKey : Unknown
  runId : Unknown

def recordProtocolViolation (input : WorkboardProtocolViolationInput)
    (scope : Option WorkboardMutationScope) : Step WorkboardCard := do
  let card ← requireMine id scope
  let now ← dateNow
  let detail : Option (Bounded 800) ← normalizeBoundedString input.detail none (js "protocol violation detail")
  let detail := detail.getD (fixed _ "Worker stopped without completing or blocking the card." (by decide))
  let sessionKey : Option (Bounded 240) ← normalizeBoundedString input.sessionKey none (js "session key")
  let runId : Option (Bounded 160) ← normalizeBoundedString input.runId none (js "run id")
  let logId ← randomUUID
  let log : WorkboardWorkerLog :=
    { id := logId.val, level := .error, message := detail, createdAt := now.val, sessionKey, runId }
  let notification ← notify .failed (capMessage detail.val) ((sessionKey.map (·.val)).or (cardSessionKey card))
    ((runId.map (·.val)).or (cardRunId card)) now.val
  updateCard card.id.val.text {
    status := some (.member (if card.status = .done then card.status else .blocked))
    execution := endedExecution card.execution .blocked now.val
    metadata := .object
      { withNotification (withWorkerLog card.metadata log) notification with
        workerProtocol := some { state := .violated, updatedAt := now.val, detail := some detail }
        claim := none
        attempts := closeRunningAttempts card.metadata.attempts now.val .blocked (some detail.val)
        failureCount := card.metadata.failureCount + 1 }.raw }

structure WorkboardCompleteInput where
  ownerId : Unknown := .undefined
  token : Unknown := .undefined
  summary : Unknown := .undefined
  proof : Option WorkboardProofInput := none
  artifacts : List RawArtifact := []
  createdCardIds : Unknown := .undefined

/-- A scope that is not passed is the input; `null` is none. -/
def scopeOr (scope : Option (Option WorkboardMutationScope)) (input : WorkboardMutationScope) :
    Option WorkboardMutationScope :=
  scope.getD (some input)

def checkCreatedCard (w : World) (existing : WorkboardCard) (createdCardId : Bounded 120) : Except JsString Unit :=
  match w.card createdCardId.val.text with
  | none => .error (js "created card not found: " ++ createdCardId.val.text)
  | some createdCard =>
    if createdCardId ∈ cardChildIds existing ∧ existing.id.target ∈ cardParentIds createdCard then .ok ()
    else .error (js "created card is not linked to this card: " ++ createdCardId.val.text)

def summarized (automation : Option WorkboardAutomation) (summary : Option (Bounded 2000))
    (createdCardIds : StringList 120) : Except JsString (Option WorkboardAutomation) :=
  normalizeAutomation (some { (automation.getD .empty).raw with
    summary := rawBounded summary, createdCardIds := some (rawList createdCardIds.val) }) automation

def inputProof (input : Option WorkboardProofInput) (now : Positive) : Step (Option WorkboardProof) :=
  match input with
  | none => return none
  | some input => do
    let id ← randomUUID
    let proof ← normalizeProofInput input id.val now
    return some proof

def completeDirect (input : WorkboardCompleteInput) (scope : Option (Option WorkboardMutationScope)) :
    Step WorkboardCard := do
  let existing ← requireMine id (scopeOr scope ⟨input.ownerId, input.token⟩)
  let now ← dateNow
  let createdCardIds ← lift (normalizeStringList input.createdCardIds (js "created card ids"))
  let created ← view fun w => createdCardIds.val.forM (checkCreatedCard w existing)
  lift created
  let summary : Option (Bounded 2000) ← normalizeBoundedString input.summary none (js "summary")
  let proof ← inputProof input.proof now
  let draw ← drawIds input.artifacts.length
  let artifacts ← lift (Except.collect
    (fun entry => normalizeArtifact { entry.1 with createdAt := rawNumber now.val } (draw entry.2) now.val)
    input.artifacts.zipIdx)
  let notification ← notify .completed
    ((summary.map fun summary => capMessage summary.val).getD (fixed _ "Workboard card completed." (by decide)))
    (cardSessionKey existing) (cardRunId existing) now.val
  let metadata := clearDiagnostics existing.metadata [.missingProof]
  let automation ← lift (summarized metadata.automation summary createdCardIds)
  let noted ← withNote metadata summary now
  let proven := withArtifacts (proof.elim noted (withProof noted)) (artifacts.rtake MAX_CARD_ARTIFACTS)
  updateCard id
    { status := some (.member .done)
      execution := endedExecution existing.execution .done now.val
      metadata := .object
        { withNotification proven notification with
          claim := none
          attempts := closeRunningAttempts metadata.attempts now.val .succeeded none
          failureCount := 0
          automation }.raw }
    { enforceStatusHolds := true }

def complete (input : WorkboardCompleteInput) (scope : Option (Option WorkboardMutationScope)) : Step WorkboardCard :=
  completeDirect id input scope

structure WorkboardBlockInput where
  ownerId : Unknown
  token : Unknown
  reason : Unknown

def block (id : JsString) (input : WorkboardBlockInput) (scope : Option (Option WorkboardMutationScope)) :
    Step WorkboardCard := do
  let existing ← requireMine id (scopeOr scope ⟨input.ownerId, input.token⟩)
  let now ← dateNow
  let reason : Option (Bounded 2000) ← normalizeBoundedString input.reason none (js "block reason")
  let reason := reason.getD (fixed _ "Workboard card blocked." (by decide))
  let notification ← notify .failed (capMessage reason.val) (cardSessionKey existing) (cardRunId existing) now.val
  let noted ← withNote existing.metadata (some reason) now
  updateCard id {
    status := some (.member .blocked)
    execution := endedExecution existing.execution .blocked now.val
    metadata := .object
      { withNotification noted notification with
        claim := none
        attempts := closeRunningAttempts existing.metadata.attempts now.val .blocked (some reason.val)
        failureCount := existing.metadata.failureCount + 1 }.raw }

/-! ## Manual changes -/

def unblock : Step WorkboardCard := do
  let existing ← requireMine id scope
  updateCard id {
    status := some (.member .todo)
    metadata := .object { clearDiagnostics existing.metadata [.blockedTooLong] with stale := none }.raw }

/-- The reason a caller gives, if it gives one. -/
def normalizeReason (reason : Unknown) (fieldName : JsString) : Except JsString (Option (Bounded 1000)) :=
  normalizeBoundedString reason none fieldName

def promote (id : JsString) (force : Bool) (reason : Unknown) (scope : Option WorkboardMutationScope) :
    Step WorkboardCard := do
  let existing ← requireMine id scope
  let reason ← normalizeReason reason (js "promote reason")
  let now ← dateNow
  let noted ← withNote existing.metadata (reason.map (Bounded.widen · (by decide))) now
  updateCard id
    { status := some (.member .ready)
      metadata := .object { clearDiagnostics noted [.strandedReady, .blockedTooLong] with stale := none }.raw }
    { enforceStatusHolds := !force }

structure WorkboardReassignInput where
  agentId : Unknown
  status : Option (Choice WorkboardStatus)
  resetFailures : Bool
  reason : Unknown

def reassign (id : JsString) (input : WorkboardReassignInput) (scope : Option WorkboardMutationScope) :
    Step WorkboardCard := do
  let existing ← requireMine id scope
  let status ← statusOr existing input.status
  let reason ← normalizeReason input.reason (js "reassign reason")
  let base :=
    if input.resetFailures then
      { clearDiagnostics existing.metadata [.blockedTooLong, .repeatedFailures] with failureCount := 0 }
    else existing.metadata
  let now ← dateNow
  let noted ← withNote base (reason.map (Bounded.widen · (by decide))) now
  updateCard id
    { agentId := rawText (patchText input.agentId existing.agentId)
      status := some (.member status)
      metadata := .object noted.raw }
    { enforceStatusHolds := true }

structure WorkboardReclaimInput where
  status : Option (Choice WorkboardStatus)
  reason : Unknown

def reclaim (id : JsString) (input : WorkboardReclaimInput) (scope : Option WorkboardMutationScope) :
    Step WorkboardCard := do
  let existing ← requireMine id scope
  let now ← dateNow
  let reason ← normalizeReason input.reason (js "reclaim reason")
  let reason := reason.getD (fixed _ "Workboard claim reclaimed." (by decide))
  let targetStatus ← lift (match input.status with
    | none => .ok (if existing.status = .running then .ready else existing.status)
    | some value => normalizeStatus value existing.status)
  let noted ← withNote existing.metadata (some (Bounded.widen reason (by decide))) now
  let reclaimed ← updateCard id
    { status := some (.member targetStatus)
      execution := match existing.execution with
        | none => .undefined
        | some execution => if execution.status = .running then .notObject else .object execution.raw
      metadata := .object { noted with
        claim := none
        attempts := closeRunningAttempts existing.metadata.attempts now.val .stopped (some reason.val)
        stale := none }.raw }
    { enforceStatusHolds := true }
  promoteDependencyReady reclaimed.id.val.text now.val

def archive (shouldArchive : Bool) : Step WorkboardCard :=
  updateMetadata id fun existing => do
    let now ← dateNow
    return { existing.metadata.raw with archivedAt := some (rawNumber (if shouldArchive then now.val else 0)) }

/-! ## Specification and decomposition -/

def logged (card : WorkboardCard) (kind : WorkboardEventKind) (id : NonBlank) (now : ℕ) : WorkboardCard :=
  { card with events := appendEvent card { kind } id now }

def specify (input : WorkboardCardPatch) (summary : Unknown) (scope : Option WorkboardMutationScope) :
    Step WorkboardCard := do
  let existing ← requireMine id scope
  if existing.status ≠ .triage ∧ existing.status ≠ .backlog ∧ existing.status ≠ .todo then
    fail (js "only triage, backlog, or todo cards can be specified.")
  else do
    let requestedStatus ← lift (input.status.elim (.ok .todo) fun value => normalizeStatus value .todo)
    if requestedStatus ≠ .todo then fail (js "specified cards must move to todo.")
    else do
      let now ← dateNow
      let summary : Option (Bounded 2000) ← normalizeBoundedString summary none (js "spec summary")
      let noted ← withNote existing.metadata summary now
      let automation ← lift (normalizeAutomation (some { (existing.metadata.automation.getD .empty).raw with
        summary := rawBounded (summary.or (existing.metadata.automation.bind (·.summary))) })
        existing.metadata.automation)
      let updated ← updateCard id
        { input with
          status := some (.member .todo)
          metadata := .object { noted with automation }.raw }
        { enforceStatusHolds := true }
      let eventId ← randomUUID
      let specified := logged updated .specified eventId.val now.val
      registerCard specified
      return specified

structure WorkboardDecomposeInput where
  summary : Unknown
  /-- An entry that is no object is there as none. -/
  children : List (Option WorkboardCardPatch)
  completeParent : Bool

/-- `value ?? fallback`. -/
def Unknown.orElse (value fallback : Unknown) : Unknown :=
  match value with
  | .undefined | .null => fallback
  | _ => value

def deriveChildIdempotencyKey (parentKey : Option (Bounded 160)) (index : ℕ) : Unknown :=
  match parentKey with
  | none => .undefined
  | some parentKey =>
    let key := parentKey.val.text ++ js ":child:" ++ decimal index
    if key.length ≤ 160 then .string key else .undefined

variable (parent : WorkboardCard)

def childInput (child : WorkboardCardPatch) (index : ℕ) : WorkboardCardPatch :=
  let automation := parent.metadata.automation
  { child with
    parents := .array [some parent.id.val.text]
    boardId := child.boardId.orElse (rawBounded ((automation.bind (·.boardId)).map (·.val)))
    tenant := child.tenant.orElse (rawBounded (automation.bind (·.tenant)))
    createdByCardId := parent.id.val.raw
    idempotencyKey := child.idempotencyKey.orElse
      (deriveChildIdempotencyKey (automation.bind (·.idempotencyKey)) index) }

/-- What a decomposition has done so far: the children, and the cards it found and has yet to link. -/
structure Decomposition where
  children : List WorkboardCard := []
  reused : List WorkboardCard := []

/-- The state is kept beside the result, so that an error that is caught does not lose it. -/
def decomposeChild (existed : List CardId) (scope : Option WorkboardMutationScope)
    (sofar : Decomposition) (child : Option WorkboardCardPatch) :
    Step (Decomposition × Option JsString) :=
  match child with
  | none => return (sofar, some (js "children must be objects."))
  | some child =>
    recover (do
        let created ← createDirect (childInput parent child (sofar.children.length + 1)) scope
        if parent.id.target ∈ cardParentIds created then
          return ({ sofar with children := sofar.children ++ [created] }, none)
        else
          let reused := if created.id ∈ existed then
              sofar.reused.filter (·.id ≠ created.id) ++ [created]
            else sofar.reused
          recover (do
              let now ← dateNow
              let linked ← linkCardsDirect parent.id.val.text created.id.val.text now
                { allowStatusOnlyActiveChild := true, scope }
              return ({ children := sofar.children ++ [linked], reused }, none))
            fun error => return ({ sofar with reused }, some error))
      fun error => return (sofar, some error)

/-- The children one after the other, up to the first error. -/
def decomposeChildren (parent : WorkboardCard) (existed : List CardId) (scope : Option WorkboardMutationScope) :
    Decomposition → List (Option WorkboardCardPatch) → Step (Decomposition × Option JsString)
  | sofar, [] => return (sofar, none)
  | sofar, child :: children => do
    let result ← decomposeChild parent existed scope sofar child
    match result.2 with
    | some error => return (result.1, some error)
    | none => decomposeChildren parent existed scope result.1 children

/-- A parent that stays open names its children; one that waits for a specification has it now. -/
def summarizeParent (childIds : Unknown) (summary : Option (Bounded 2000)) : Step WorkboardCard := do
  let latest ← view fun w => (w.card parent.id.val.text).getD parent
  let createdCardIds ← lift (normalizeStringList childIds (js "created card ids"))
  let automation ← lift (summarized latest.metadata.automation summary createdCardIds)
  updateCard parent.id.val.text
    { status := some (.member (if latest.status = .triage ∨ latest.status = .backlog then .todo else latest.status))
      metadata := .object { latest.metadata with automation }.raw }
    { enforceStatusHolds := true }

def finishParent (children : List WorkboardCard) (input : WorkboardDecomposeInput)
    (scope : Option (Option WorkboardMutationScope)) : Step WorkboardCard := do
  let summary : Option (Bounded 2000) ← normalizeBoundedString input.summary none (js "decompose summary")
  let childIds := .array (children.map fun child => some child.id.val.text)
  let updatedParent ← (if input.completeParent then
      completeDirect parent.id.val.text { summary := rawBounded summary, createdCardIds := childIds } scope
    else summarizeParent parent childIds summary)
  let eventId ← randomUUID
  let now ← dateNow
  let decomposedParent := logged updatedParent .decomposed eventId.val now.val
  registerCard decomposedParent
  return decomposedParent

/-- New children are deleted, the cards that were found and the parent are written back as they were. -/
def undoDecompose (existed : List CardId) (done : Decomposition) (error : JsString) :
    Step (WorkboardCard × List WorkboardCard) := do
  forEach (fun child => do
    if child.id ∈ existed then return ()
    else do
      let _ ← deleteDirect child.id.val.text
      return ()) done.children.reverse
  forEach registerCard done.reused
  registerCard parent
  fail error

def decompose (input : WorkboardDecomposeInput) (scope : Option (Option WorkboardMutationScope)) :
    Step (WorkboardCard × List WorkboardCard) := do
  let parent ← requireMine id (scope.getD none)
  if input.children = [] then fail (js "children are required.")
  else if input.children.length > 20 then fail (js "at most 20 children can be created at once.")
  else do
    let existed ← view fun w => w.cards.rows.map (·.id)
    let result ← decomposeChildren parent existed (scope.getD none) {} input.children
    match result.2 with
    | some error => undoDecompose parent existed result.1 error
    | none =>
      recover (do
          let decomposedParent ← finishParent parent result.1.children input scope
          return (decomposedParent, result.1.children))
        (undoDecompose parent existed result.1)

def blockedText : NonBlank :=
  (fixed 2000 "Workboard card blocked." (by decide)).val

def reclaimedText : NonBlank :=
  (fixed 1000 "Workboard claim reclaimed." (by decide)).val

def violationText : NonBlank :=
  (fixed 800 "Worker stopped without completing or blocking the card." (by decide)).val

end ClawWorks.Workboard
