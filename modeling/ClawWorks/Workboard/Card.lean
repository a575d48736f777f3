import ClawWorks.Workboard.Metadata

/-!
# Cards: what the store derives from them

Runs that follow the execution record (`syncExecutionAttemptMetadata`), the event log and the entry an update adds to
it (`updateEvent`), when a lifecycle report is stale, links and dependencies, claims, diagnostics, notifications.
-/

namespace ClawWorks.Workboard

open List

/-! ## Fields of a card -/

def normalizeTitle (value : Unknown) : Except JsString (Bounded 180) := do
  let title : Option (Bounded 180) ← normalizeBoundedString value none (js "title")
  match title with
  | none => throw (js "title is required.")
  | some title => return title

def normalizeNotes (value : Unknown) : Except JsString (Option (Bounded 4000)) :=
  normalizeBoundedString value none (js "notes")

def normalizeStatus (value : Choice WorkboardStatus) (fallback : WorkboardStatus) : Except JsString WorkboardStatus :=
  match value with
  | .absent => .ok fallback
  | .member status => .ok status
  | .unknownName =>
    .error (js "status must be one of: triage, backlog, todo, scheduled, ready, running, review, blocked, done.")

def normalizePriority (value : Choice WorkboardPriority) (fallback : WorkboardPriority) :
    Except JsString WorkboardPriority :=
  match value with
  | .absent => .ok fallback
  | .member priority => .ok priority
  | .unknownName => .error (js "priority must be one of: low, normal, high, urgent.")

def normalizeLabelsFrom (labels : List (Bounded 40)) : List (Option JsString) → Except JsString (List (Bounded 40))
  | [] => .ok labels
  | none :: entries => normalizeLabelsFrom labels entries
  | some entry :: entries => do
    let label : Option (Bounded 40) ← normalizeBoundedString (.string entry) none (js "labels")
    match label with
    | none => normalizeLabelsFrom labels entries
    | some label =>
      if label ∈ labels then normalizeLabelsFrom labels entries
      else if labels.length + 1 < 12 then normalizeLabelsFrom (labels ++ [label]) entries
      else return labels ++ [label]

def normalizeLabels (value : Unknown) : Except JsString (List (Bounded 40)) :=
  match value with
  | .undefined | .null => .ok []
  | _ =>
    match listEntries value with
    | none => .error (js "labels must be an array or comma-separated string.")
    | some entries => normalizeLabelsFrom [] entries

structure RawExecution where
  id : Unknown
  engine : Option WorkboardExecutionEngine
  mode : Option WorkboardExecutionMode
  status : Option WorkboardExecutionStatus
  model : Unknown
  sessionKey : Unknown
  runId : Unknown
  startedAt : Unknown
  updatedAt : Unknown
  deriving DecidableEq

def normalizeExecution (value : Field RawExecution) (fresh : NonBlank) (now : ℕ) : Option WorkboardExecution :=
  match value with
  | .object record =>
    (normalizeOptionalString record.model).map fun model =>
      let startedAt := normalizeTimestamp record.startedAt now
      { id := (normalizeOptionalString record.id).getD fresh
        engine := record.engine.getD .codex
        mode := record.mode.getD .autonomous
        status := record.status.getD .idle
        model, startedAt
        sessionKey := normalizeOptionalString record.sessionKey
        runId := normalizeOptionalString record.runId
        updatedAt := normalizeTimestamp record.updatedAt startedAt }
  | _ => none

def WorkboardExecution.raw (e : WorkboardExecution) : RawExecution where
  id := e.id.raw
  engine := some e.engine
  mode := some e.mode
  status := some e.status
  model := e.model.raw
  sessionKey := rawText e.sessionKey
  runId := rawText e.runId
  startedAt := rawNumber e.startedAt
  updatedAt := rawNumber e.updatedAt

@[simp] theorem normalizeExecution_raw (e : WorkboardExecution) (fresh : NonBlank) (now : ℕ) :
    normalizeExecution (.object e.raw) fresh now = some e := by
  simp [normalizeExecution, WorkboardExecution.raw]

def syncExecutionSessionKey (execution : Option WorkboardExecution) (sessionKey : Option NonBlank) (now : ℕ) :
    Option WorkboardExecution :=
  execution.map fun execution => { execution with sessionKey, updatedAt := now }

variable (card : WorkboardCard)

def cardSessionKey : Option NonBlank :=
  card.sessionKey.or (card.execution.bind (·.sessionKey))

def cardRunId : Option NonBlank :=
  card.runId.or (card.execution.bind (·.runId))

def cardBoardId : BoardId :=
  (card.metadata.automation.bind (·.boardId)).getD .default

/-- `metadata.automation?.scheduledAt`. -/
def WorkboardMetadata.scheduledAt (m : WorkboardMetadata) : Option Positive :=
  m.automation.bind (·.scheduledAt)

/-! ## Runs -/

variable (execution : WorkboardExecution)

def executionAttemptStatus : WorkboardAttemptStatus :=
  match execution.status with
  | .running => .running
  | .blocked => .blocked
  | .done | .review => .succeeded
  | .idle => .stopped

def WorkboardAttemptStatus.isFailure : WorkboardAttemptStatus → Bool
  | .blocked | .failed => true
  | _ => false

/-- `execution.runId ?? execution.sessionKey ?? execution.id`. -/
def attemptKey : NonBlank :=
  (execution.runId.or execution.sessionKey).getD execution.id

def attemptOf (attempt : WorkboardRunAttempt) : Bool :=
  match execution.runId with
  | some runId => attempt.runId = some runId
  | none => attempt.id = attemptKey execution

def syncExecutionAttemptMetadata (metadata : WorkboardMetadata) (execution : Option WorkboardExecution) (now : ℕ) :
    WorkboardMetadata :=
  match execution with
  | none => metadata
  | some execution =>
    let attemptStatus := executionAttemptStatus execution
    let existingIndex := metadata.attempts.findIdx? (attemptOf execution)
    let existingAttempt := metadata.attempts.find? (attemptOf execution)
    let nextAttempt : WorkboardRunAttempt := {
      id := (existingAttempt.map (·.id)).getD (attemptKey execution)
      status := attemptStatus
      startedAt := (existingAttempt.map (·.startedAt)).getD execution.startedAt
      engine := some execution.engine
      mode := some execution.mode
      model := some execution.model
      sessionKey := execution.sessionKey
      runId := execution.runId
      endedAt := if attemptStatus = .running then none
        else some (if execution.updatedAt = 0 then now else execution.updatedAt)
      error := if attemptStatus = .succeeded then none else existingAttempt.bind (·.error) }
    let attempts :=
      match existingIndex with
      | some index => metadata.attempts.set index nextAttempt
      | none => metadata.attempts ++ [nextAttempt]
    let previousFailed := existingAttempt.any (·.status.isFailure)
    let failureCount :=
      if attemptStatus.isFailure then if previousFailed then metadata.failureCount else metadata.failureCount + 1
      else if attemptStatus = .succeeded then 0
      else metadata.failureCount
    { metadata with attempts := attempts.rtake MAX_CARD_ATTEMPTS, failureCount }

theorem follows_syncExecutionAttemptMetadata (m : WorkboardMetadata) (execution : Option WorkboardExecution)
    (now : ℕ) : Follows m (syncExecutionAttemptMetadata m execution now) := by
  cases execution with
  | none => exact .refl m
  | some execution => exact { Follows.refl m with claim := rfl }

def closeRunningAttempts (attempts : List WorkboardRunAttempt) (now : ℕ) (status : WorkboardAttemptStatus)
    (reason : Option NonBlank) : List WorkboardRunAttempt :=
  attempts.map fun attempt =>
    if attempt.status = .running then { attempt with status, endedAt := some now, error := reason.or attempt.error }
    else attempt

def latestRunningAttempt : Option WorkboardRunAttempt :=
  card.metadata.attempts.reverse.find? (·.status = .running)

/-! ## The event log -/

/-- `Omit<WorkboardEvent, "id" | "at">`. -/
structure EventEntry where
  kind : WorkboardEventKind
  fromStatus : Option WorkboardStatus := none
  toStatus : Option WorkboardStatus := none
  sessionKey : Option NonBlank := none
  runId : Option NonBlank := none

def normalizeEvents (events : List WorkboardEvent) : List WorkboardEvent :=
  (events.filter (·.eventAt ≠ 0)).rtake MAX_CARD_EVENTS

def appendEvent (event : EventEntry) (id : NonBlank) (eventAt : ℕ) : List WorkboardEvent :=
  let entry : WorkboardEvent :=
    ⟨id, event.kind, eventAt, event.fromStatus, event.toStatus, event.sessionKey, event.runId⟩
  (normalizeEvents card.events ++ [entry]).rtake MAX_CARD_EVENTS

def latestMetadataIdChanged (existing next : List NonBlank) : Bool :=
  next.getLast?.any fun latestId => existing.getLast? ≠ some latestId

/-- Another length or another last entry. -/
def listChanged {α : Type} (id : α → NonBlank) (existing next : List α) : Bool :=
  existing.length ≠ next.length || latestMetadataIdChanged (existing.map id) (next.map id)

def violates (existing next : WorkboardCard) : Bool :=
  existing.metadata.workerProtocol.map (·.state) ≠ next.metadata.workerProtocol.map (·.state) &&
    next.metadata.workerProtocol.map (·.state) = some .violated

def executionEvent (existing next : WorkboardCard) : EventEntry :=
  let latestAttempt := next.metadata.attempts.getLast?
  let sessionKey := latestAttempt.bind (·.sessionKey)
  let runId := latestAttempt.bind (·.runId)
  if next.metadata.attempts.length > existing.metadata.attempts.length then
    { kind := .attemptStarted, sessionKey, runId }
  else if latestAttempt.any fun latest =>
      (existing.metadata.attempts.find? (·.id = latest.id)).map (·.status) ≠ some latest.status then
    { kind := .attemptUpdated, sessionKey, runId }
  else { kind := .executionUpdated, sessionKey := cardSessionKey next, runId := cardRunId next }

/-- The entry for a change of what the metadata lists, or of the marks beside the lists. -/
def metadataEvent (existing next : WorkboardMetadata) : EventEntry :=
  if listChanged (·.id) existing.comments next.comments then { kind := .commentAdded }
  else if listChanged (·.id) existing.links next.links then { kind := .linkAdded }
  else if listChanged (·.id) existing.proof next.proof then { kind := .proofAdded }
  else if listChanged (·.id) existing.artifacts next.artifacts then { kind := .artifactAdded }
  else if listChanged (·.id) existing.attachments next.attachments then
    if next.attachments.length > existing.attachments.length then { kind := .attachmentAdded } else { kind := .edited }
  else if existing.workerProtocol.map (·.state) ≠ next.workerProtocol.map (·.state) then { kind := .orchestration }
  else if listChanged (·.id) existing.workerLogs next.workerLogs then { kind := .orchestration }
  else if existing.diagnostics.length ≠ next.diagnostics.length then { kind := .diagnostic }
  else if listChanged (·.id) existing.notifications next.notifications then { kind := .notification }
  else if existing.automation.bind (·.dispatchCount) ≠ next.automation.bind (·.dispatchCount) ∨
      existing.automation.bind (·.lastDispatchAt) ≠ next.automation.bind (·.lastDispatchAt) then { kind := .dispatch }
  else if existing.archivedAt = none ∧ next.archivedAt ≠ none then { kind := .archived }
  else if existing.archivedAt ≠ none ∧ next.archivedAt = none then { kind := .unarchived }
  else if existing.stale = none ∧ next.stale ≠ none then { kind := .stale }
  else { kind := .edited }

def updateEvent (existing next : WorkboardCard) : EventEntry :=
  if violates existing next then { kind := .protocolViolation }
  else if existing.status ≠ next.status ∨ existing.position ≠ next.position then
    { kind := .moved, fromStatus := some existing.status, toStatus := some next.status }
  else if cardSessionKey existing ≠ cardSessionKey next then { kind := .linked, sessionKey := cardSessionKey next }
  else if existing.metadata.claim.map (·.token) ≠ next.metadata.claim.map (·.token) then { kind := .claimed }
  else if existing.metadata.claim.map (·.lastHeartbeatAt) ≠ next.metadata.claim.map (·.lastHeartbeatAt) then
    { kind := .heartbeat }
  else if existing.execution.map (·.status) ≠ next.execution.map (·.status) ∨
      existing.execution.map (·.engine) ≠ next.execution.map (·.engine) ∨ cardRunId existing ≠ cardRunId next then
    executionEvent existing next
  else metadataEvent existing.metadata next.metadata

def lifecycleStatusSourceUpdatedAtFromPatch (metadata : Field RawMetadata) : Option ℕ :=
  match metadata with
  | .object record => record.lifecycleStatusSourceUpdatedAt.map fun value => normalizeTimestamp value 0
  | _ => none

def isStatusTransition (status : WorkboardStatus) (event : WorkboardEvent) : Bool :=
  ((event.kind = .created && status ≠ .todo) || (event.kind = .moved && event.fromStatus ≠ event.toStatus)) &&
    event.toStatus = some status

def latestStatusTransitionAt : Option ℕ :=
  (card.events.reverse.find? (isStatusTransition card.status)).map (·.eventAt)

def shouldSkipPersistedLifecycleStatusUpdate (existing : WorkboardCard) (sourceUpdatedAt : ℕ) : Bool :=
  match existing.metadata.lifecycleStatusSourceUpdatedAt with
  | some lifecycleStatusSourceUpdatedAt => sourceUpdatedAt < lifecycleStatusSourceUpdatedAt
  | none => (latestStatusTransitionAt existing).any fun statusTransitionAt => sourceUpdatedAt < statusTransitionAt

/-! ## Links and dependencies -/

def appendLinkPreservingDependencies (links : List WorkboardLink) (link : WorkboardLink) :
    Except JsString (List WorkboardLink) :=
  if links.length + 1 ≤ MAX_CARD_LINKS then .ok (links ++ [link])
  else if links.all (·.isDependencyLink) then .error (js "card link limit reached.")
  else .ok (dropFirstNonDependencyLink links ++ [link])

def linkTargets (type : WorkboardLinkType) (card : WorkboardCard) : List (Bounded 120) :=
  ((card.metadata.links.filter (·.type = type)).filterMap (·.targetCardId)).eraseDups

def cardParentIds : List (Bounded 120) :=
  linkTargets .parent card

def cardChildIds : List (Bounded 120) :=
  linkTargets .child card

def isDependencyPromotableStatus : WorkboardStatus → Bool
  | .backlog | .triage | .todo | .scheduled | .ready => true
  | _ => false

def isActiveDependencyTarget (allowStatusOnly : Bool) : Bool :=
  card.metadata.claim.isSome || card.execution.any (·.status = .running) || (latestRunningAttempt card).isSome ||
    (!allowStatusOnly && (card.status = .running || card.status = .review))

def compareCards (left right : WorkboardCard) : Ordering :=
  (Ord.compare (WORKBOARD_STATUSES.idxOf left.status) (WORKBOARD_STATUSES.idxOf right.status)).then
    ((Ord.compare left.position right.position).then (Ord.compare left.createdAt right.createdAt))

/-! ## Claims -/

structure WorkboardMutationScope where
  ownerId : Unknown
  token : Unknown

/-- The scope names the owner or carries the token. -/
def matchesClaim (scope : WorkboardMutationScope) (claim : WorkboardClaim) : Bool :=
  normalizeOptionalString scope.ownerId = some claim.ownerId.val ||
    normalizeOptionalString scope.token = some claim.token.val

def assertCanMutateClaimedCard (scope : Option WorkboardMutationScope) : Except JsString Unit :=
  match scope, card.metadata.claim with
  | some scope, some claim =>
    if matchesClaim scope claim then .ok ()
    else .error (js "card is claimed by " ++ claim.ownerId.val.text ++ js ".")
  | _, _ => .ok ()

def retryBudgetExhausted : Bool :=
  (card.metadata.automation.bind (·.maxRetries)).any fun maxRetries => card.metadata.failureCount > maxRetries.val

def MAX_DATE_TIMESTAMP_MS : ℕ := 8640000000000000
def DEFAULT_CLAIM_TTL_MS : ℕ := 30 * 60 * 1000

def secondsToDurationMs (seconds : ℕ) : ℕ :=
  min MAX_DATE_TIMESTAMP_MS (max 1 (seconds * 1000))

/-- `resolveExpiresAtMsFromDurationMs(durationMs, { nowMs: now }) ?? MAX_DATE_TIMESTAMP_MS`,
  of a whole positive time. -/
def addWorkboardDurationMs (now durationMs : ℕ) : ℕ :=
  if now + durationMs ≤ MAX_DATE_TIMESTAMP_MS then now + durationMs else MAX_DATE_TIMESTAMP_MS

theorem addWorkboardDurationMs_pos {now : ℕ} (h : 0 < now) (durationMs : ℕ) :
    0 < addWorkboardDurationMs now durationMs := by
  unfold addWorkboardDurationMs
  split
  · omega
  · decide

def isFutureDateTimestampMs (value : Option Positive) (nowMs : ℕ) : Bool :=
  value.any fun timestampMs =>
    timestampMs.val ≤ MAX_DATE_TIMESTAMP_MS && nowMs ≤ MAX_DATE_TIMESTAMP_MS && timestampMs.val > nowMs

/-! ## Diagnostics -/

def READY_STRANDED_MS : ℕ := 60 * 60 * 1000
def RUNNING_HEARTBEAT_STALE_MS : ℕ := 20 * 60 * 1000
def BLOCKED_TOO_LONG_MS : ℕ := 24 * 60 * 60 * 1000
def CLAIM_RECLAIM_MS : ℕ := 5 * 60 * 1000

def clearDiagnostics (metadata : WorkboardMetadata) (kinds : List WorkboardDiagnosticKind) : WorkboardMetadata :=
  { metadata with diagnostics := metadata.diagnostics.filter (·.kind ∉ kinds) }

/-- A fixed text of the source. -/
def fixed (limit : ℕ) (s : String) (h : trim (js s) = js s ∧ js s ≠ [] ∧ (js s).length ≤ limit) : Bounded limit :=
  ⟨⟨js s, h.1, h.2.1⟩, h.2.2⟩

def diagnostic (kind : WorkboardDiagnosticKind) (severity : WorkboardDiagnosticSeverity) (title : Bounded 160)
    (detail : Bounded 800) (actions : {l : List WorkboardDiagnosticAction // l.length ≤ 4}) (now : ℕ) :
    WorkboardDiagnostic :=
  ⟨kind, severity, title, detail, now, now, ⟨1, one_pos⟩, actions⟩

def strandedReady : ℕ → WorkboardDiagnostic :=
  diagnostic .strandedReady .warning (fixed _ "Assigned card is waiting" (by decide))
    (fixed _ "The card has an assigned agent but has not been claimed recently." (by decide))
    ⟨[⟨.claim, fixed _ "Claim card" (by decide)⟩], by decide⟩

def runningWithoutHeartbeat : ℕ → WorkboardDiagnostic :=
  diagnostic .runningWithoutHeartbeat .error (fixed _ "Running card has no recent heartbeat" (by decide))
    (fixed _ "The linked run or claim has not reported recent activity." (by decide))
    ⟨[⟨.openSession, fixed _ "Open session" (by decide)⟩, ⟨.reassign, fixed _ "Reassign card" (by decide)⟩], by decide⟩

def blockedTooLong : ℕ → WorkboardDiagnostic :=
  diagnostic .blockedTooLong .warning (fixed _ "Blocked card needs attention" (by decide))
    (fixed _ "The card has been blocked for more than a day." (by decide))
    ⟨[⟨.unblock, fixed _ "Move to todo" (by decide)⟩], by decide⟩

def repeatedFailures : ℕ → WorkboardDiagnostic :=
  diagnostic .repeatedFailures .error (fixed _ "Repeated run failures" (by decide))
    (fixed _ "Multiple attempts failed or blocked on this card." (by decide))
    ⟨[⟨.reassign, fixed _ "Reassign card" (by decide)⟩], by decide⟩

def missingProof : ℕ → WorkboardDiagnostic :=
  diagnostic .missingProof .warning (fixed _ "Done card has no proof" (by decide))
    (fixed _ "The card is marked done without proof or an attached artifact." (by decide))
    ⟨[⟨.addProof, fixed _ "Add proof" (by decide)⟩], by decide⟩

def orphanedSession : ℕ → WorkboardDiagnostic :=
  diagnostic .orphanedSession .warning (fixed _ "Running card has only a loose session link" (by decide))
    (fixed _ "The card is running but has no execution record for lifecycle handoff." (by decide))
    ⟨[⟨.openSession, fixed _ "Open session" (by decide)⟩], by decide⟩

def computeCardDiagnostics (now : ℕ) : List WorkboardDiagnostic :=
  let lastHeartbeatAt := ((card.metadata.claim.map (·.lastHeartbeatAt.val)).or
    (card.execution.map (·.updatedAt))).getD card.updatedAt
  let waits := card.status = .todo ∨ card.status = .backlog ∨ card.status = .ready
  (if waits ∧ card.agentId ≠ none ∧ now - card.updatedAt > READY_STRANDED_MS then [strandedReady now] else []) ++
  (if card.status = .running ∧ now - lastHeartbeatAt > RUNNING_HEARTBEAT_STALE_MS then
    [runningWithoutHeartbeat now] else []) ++
  (if card.status = .blocked ∧ now - card.updatedAt > BLOCKED_TOO_LONG_MS then [blockedTooLong now] else []) ++
  (if card.metadata.failureCount ≥ 2 then [repeatedFailures now] else []) ++
  (if card.status = .done ∧ card.metadata.proof = [] ∧ card.metadata.artifacts = [] ∧ card.metadata.attachments = []
    then [missingProof now] else []) ++
  (if card.sessionKey ≠ none ∧ card.execution = none ∧ card.status = .running then [orphanedSession now] else [])

/-- The last entry of a kind is the one that counts. -/
def mergeDiagnostics (previous next : List WorkboardDiagnostic) : List WorkboardDiagnostic :=
  next.map fun entry =>
    match previous.reverse.find? (·.kind = entry.kind) with
    | some prior => { entry with firstSeenAt := prior.firstSeenAt, count := ⟨prior.count.val + 1, Nat.succ_pos _⟩ }
    | none => entry

/-! ## Notifications -/

/-- `value.length <= max ? value : value.slice(0, max - 1) + "…"`. -/
def capText (value : JsString) (max : ℕ) : JsString :=
  if value.length ≤ max then value else value.take (max - 1) ++ [0x2026]

theorem length_capText (value : JsString) {max : ℕ} (h : 0 < max) : (capText value max).length ≤ max := by
  unfold capText
  split
  · assumption
  · rw [length_append, length_take, length_singleton]
    omega

theorem trim_eq_self {s : JsString} (hhead : ∀ u ∈ s.head?, isWhiteSpace u = false)
    (hlast : ∀ u ∈ s.getLast?, isWhiteSpace u = false) : trim s = s := by
  have hleft : s.dropWhile isWhiteSpace = s := by
    cases s with
    | nil => rfl
    | cons u rest => exact dropWhile_cons_of_neg (by simp [hhead u rfl])
  rw [trim, hleft, rdropWhile_eq_self_iff]
  intro hne
  simp [hlast _ (getLast?_eq_some_getLast hne)]

theorem head_of_trimmed {s : JsString} (h : trim s = s) : ∀ u ∈ s.head?, isWhiteSpace u = false := by
  intro u hu
  cases s with
  | nil => cases hu
  | cons v rest =>
    obtain rfl : v = u := Option.some.inj hu
    by_contra hwhite
    have hdrop : (v :: rest).dropWhile isWhiteSpace = rest.dropWhile isWhiteSpace :=
      dropWhile_cons_of_pos (by simpa using hwhite)
    have hprefix : trim (v :: rest) <+: rest.dropWhile isWhiteSpace := by
      rw [trim, hdrop]
      exact rdropWhile_prefix _ _
    have hlong := hprefix.length_le
    rw [h, length_cons] at hlong
    have hshort := (dropWhile_suffix isWhiteSpace (l := rest)).length_le
    omega

theorem trim_capText (t : NonBlank) {max : ℕ} (h : 1 < max) : trim (capText t.text max) = capText t.text max := by
  unfold capText
  split
  · exact t.trimmed
  apply trim_eq_self
  · intro u hu
    refine head_of_trimmed t.trimmed u ?_
    obtain ⟨v, rest, htext⟩ := exists_cons_of_ne_nil t.nonempty
    obtain ⟨n, hn⟩ : ∃ n, max - 1 = n + 1 := ⟨max - 2, by omega⟩
    rw [htext, hn] at hu
    rw [htext]
    exact hu
  · intro u hu
    rw [getLast?_concat] at hu
    obtain rfl := Option.some.inj hu
    decide

theorem capText_ne_nil (t : NonBlank) (max : ℕ) : capText t.text max ≠ [] := by
  unfold capText
  split
  · exact t.nonempty
  · exact append_ne_nil_of_right_ne_nil _ (by decide)

def capMessage (t : NonBlank) : Bounded 240 :=
  ⟨⟨capText t.text 240, trim_capText t (by decide), capText_ne_nil t _⟩, length_capText _ (by decide)⟩

end ClawWorks.Workboard
