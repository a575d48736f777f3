import ClawWorks.Workboard.Input

/-!
# Cards of the workboard

The records of the store. Their fields carry what the normalizers check, so that a record read back from the store is
one that they let through. The store also makes runs, events and notifications out of the texts of a card, which have
no limit there; the fields that hold such a text carry less.

An absent list is an empty one and an absent `failureCount` is zero: the store deletes both before it writes.
-/

namespace ClawWorks.Workboard

/-! ## Enumerations -/

inductive WorkboardStatus
  | triage
  | backlog
  | todo
  | scheduled
  | ready
  | running
  | review
  | blocked
  | done
  deriving DecidableEq

def WORKBOARD_STATUSES : List WorkboardStatus :=
  [.triage, .backlog, .todo, .scheduled, .ready, .running, .review, .blocked, .done]

inductive WorkboardPriority
  | low
  | normal
  | high
  | urgent
  deriving DecidableEq

inductive WorkboardExecutionEngine
  | codex
  | claude
  deriving DecidableEq

inductive WorkboardExecutionMode
  | autonomous
  | manual
  deriving DecidableEq

inductive WorkboardExecutionStatus
  | idle
  | running
  | review
  | blocked
  | done
  deriving DecidableEq

inductive WorkboardEventKind
  | created
  | edited
  | moved
  | linked
  | specified
  | decomposed
  | claimed
  | heartbeat
  | executionUpdated
  | attemptStarted
  | attemptUpdated
  | commentAdded
  | linkAdded
  | proofAdded
  | artifactAdded
  | attachmentAdded
  | diagnostic
  | notification
  | dispatch
  | orchestration
  | protocolViolation
  | archived
  | unarchived
  | stale
  deriving DecidableEq

inductive WorkboardAttemptStatus
  | running
  | succeeded
  | failed
  | blocked
  | stopped
  deriving DecidableEq

inductive WorkboardLinkType
  | parent
  | child
  | blocks
  | blockedBy
  | relatesTo
  deriving DecidableEq

inductive WorkboardProofStatus
  | passed
  | failed
  | skipped
  | unknown
  deriving DecidableEq

inductive WorkboardTemplateId
  | bugfix
  | docs
  | release
  | prReview
  | plugin
  deriving DecidableEq

inductive WorkboardDiagnosticKind
  | strandedReady
  | runningWithoutHeartbeat
  | blockedTooLong
  | repeatedFailures
  | missingProof
  | orphanedSession
  deriving DecidableEq

inductive WorkboardDiagnosticSeverity
  | warning
  | error
  | critical
  deriving DecidableEq

inductive WorkboardNotificationKind
  | completed
  | failed
  | stale
  deriving DecidableEq

inductive WorkerLogLevel
  | info
  | warning
  | error
  deriving DecidableEq

inductive WorkerProtocolState
  | idle
  | running
  | completed
  | blocked
  | violated
  deriving DecidableEq

inductive WorkspaceKind
  | scratch
  | dir
  | worktree
  deriving DecidableEq

/-- The actions that `normalizeDiagnosticAction` lets through. -/
inductive DiagnosticActionKind
  | claim
  | unblock
  | reassign
  | addProof
  | openSession
  deriving DecidableEq

/-! ## Records of a card's metadata -/

structure WorkboardExecution where
  id : NonBlank
  engine : WorkboardExecutionEngine
  mode : WorkboardExecutionMode
  status : WorkboardExecutionStatus
  model : NonBlank
  sessionKey : Option NonBlank
  runId : Option NonBlank
  startedAt : ℕ
  updatedAt : ℕ

structure WorkboardEvent where
  id : NonBlank
  kind : WorkboardEventKind
  eventAt : ℕ
  fromStatus : Option WorkboardStatus
  toStatus : Option WorkboardStatus
  sessionKey : Option NonBlank
  runId : Option NonBlank

structure WorkboardRunAttempt where
  id : NonBlank
  status : WorkboardAttemptStatus
  startedAt : ℕ
  endedAt : Option ℕ
  engine : Option WorkboardExecutionEngine
  mode : Option WorkboardExecutionMode
  model : Option NonBlank
  sessionKey : Option NonBlank
  runId : Option NonBlank
  error : Option NonBlank
  deriving DecidableEq

structure WorkboardComment where
  id : NonBlank
  body : Bounded 2000
  createdAt : Positive
  updatedAt : Option Positive
  deriving DecidableEq

structure WorkboardLink where
  id : NonBlank
  type : WorkboardLinkType
  createdAt : Positive
  targetCardId : Option (Bounded 120)
  title : Option (Bounded 180)
  url : Option (Bounded 2000)
  leads : (targetCardId.isSome || url.isSome) = true
  deriving DecidableEq

structure WorkboardProof where
  id : NonBlank
  status : WorkboardProofStatus
  createdAt : Positive
  label : Option (Bounded 160)
  command : Option (Bounded 1000)
  url : Option (Bounded 2000)
  note : Option (Bounded 2000)
  deriving DecidableEq

structure WorkboardArtifact where
  id : NonBlank
  createdAt : ℕ
  label : Option (Bounded 160)
  url : Option (Bounded 2000)
  path : Option (Bounded 2000)
  mimeType : Option (Bounded 160)
  leads : (url.isSome || path.isSome) = true
  deriving DecidableEq

structure WorkboardAttachment where
  id : NonBlank
  cardId : Bounded 120
  createdAt : Positive
  fileName : Bounded 240
  byteSize : Positive
  mimeType : Option (Bounded 160)
  note : Option (Bounded 400)
  deriving DecidableEq

structure WorkboardWorkerLog where
  id : NonBlank
  level : WorkerLogLevel
  message : Bounded 800
  createdAt : ℕ
  sessionKey : Option (Bounded 240)
  runId : Option (Bounded 160)
  deriving DecidableEq

structure WorkboardWorkerProtocol where
  state : WorkerProtocolState
  updatedAt : ℕ
  detail : Option (Bounded 800)
  deriving DecidableEq

structure WorkboardStaleState where
  detectedAt : ℕ
  lastSessionUpdatedAt : Option Positive
  reason : Bounded 240
  deriving DecidableEq

structure WorkboardClaim where
  ownerId : Bounded 120
  token : Bounded 160
  claimedAt : Positive
  lastHeartbeatAt : Positive
  expiresAt : Option Positive
  deriving DecidableEq

structure WorkboardDiagnosticAction where
  kind : DiagnosticActionKind
  label : Bounded 120
  deriving DecidableEq

structure WorkboardDiagnostic where
  kind : WorkboardDiagnosticKind
  severity : WorkboardDiagnosticSeverity
  title : Bounded 160
  detail : Bounded 800
  firstSeenAt : ℕ
  lastSeenAt : ℕ
  count : Positive
  actions : {l : List WorkboardDiagnosticAction // l.length ≤ 4}
  deriving DecidableEq

structure WorkboardNotification where
  id : NonBlank
  kind : WorkboardNotificationKind
  createdAt : ℕ
  sequence : Option Positive
  message : Bounded 240
  sessionKey : Option NonBlank
  runId : Option NonBlank
  deriving DecidableEq

/-- `value.startsWith("/") || /^[A-Za-z]:[\\/]/.test(value) || /^\\\\[^\\]+\\[^\\]+/.test(value)`. -/
def isAbsoluteWorkspacePath : JsString → Bool
  | 47 :: _ => true
  | 92 :: 92 :: share =>
    match share.span (· ≠ 92) with
    | (_ :: _, _ :: u :: _) => u ≠ 92
    | _ => false
  | letter :: 58 :: slash :: _ => isAlphanumeric letter && !isDigit letter && (slash = 92 || slash = 47)
  | _ => false

structure WorkboardWorkspace where
  kind : WorkspaceKind
  path : Option (Bounded 2000)
  branch : Option (Bounded 160)
  absolute : kind = .dir → path.any (fun p => isAbsoluteWorkspacePath p.val.text) = true
  deriving DecidableEq

/-- `/^[a-z0-9][a-z0-9._-]{0,79}$/`. -/
def isBoardId (s : JsString) : Bool :=
  let lower (u : UInt16) : Bool := isDigit u || (97 ≤ u && u ≤ 122)
  match s with
  | [] => false
  | u :: rest => lower u && rest.length ≤ 79 && rest.all fun v => lower v || v = 46 || v = 95 || v = 45

abbrev BoardId := {t : Bounded 80 // isBoardId t.val.text = true}

structure WorkboardAutomation where
  tenant : Option (Bounded 80)
  boardId : Option BoardId
  createdByCardId : Option (Bounded 120)
  idempotencyKey : Option (Bounded 160)
  skills : StringList 80
  workspace : Option WorkboardWorkspace
  maxRuntimeSeconds : Option Positive
  maxRetries : Option Positive
  scheduledAt : Option Positive
  summary : Option (Bounded 2000)
  createdCardIds : StringList 120
  dispatchCount : Option Positive
  lastDispatchAt : Option Positive
  deriving DecidableEq

def WorkboardAutomation.empty : WorkboardAutomation :=
  ⟨none, none, none, none, .empty, none, none, none, none, none, .empty, none, none⟩

structure WorkboardMetadata where
  attempts : List WorkboardRunAttempt
  comments : List WorkboardComment
  links : List WorkboardLink
  proof : List WorkboardProof
  artifacts : List WorkboardArtifact
  attachments : List WorkboardAttachment
  workerLogs : List WorkboardWorkerLog
  workerProtocol : Option WorkboardWorkerProtocol
  automation : Option WorkboardAutomation
  claim : Option WorkboardClaim
  diagnostics : List WorkboardDiagnostic
  notifications : List WorkboardNotification
  templateId : Option WorkboardTemplateId
  archivedAt : Option Positive
  stale : Option WorkboardStaleState
  lifecycleStatusSourceUpdatedAt : Option ℕ
  failureCount : ℕ
  deriving DecidableEq

def WorkboardMetadata.empty : WorkboardMetadata :=
  ⟨[], [], [], [], [], [], [], none, none, none, [], [], none, none, none, none, 0⟩

abbrev CardId := Bounded 36

/-- A card's id as a link or an attachment holds it. -/
def CardId.target (id : CardId) : Bounded 120 :=
  ⟨id.val, id.property.trans (by decide)⟩

structure WorkboardCard where
  id : CardId
  title : Bounded 180
  notes : Option (Bounded 4000)
  status : WorkboardStatus
  priority : WorkboardPriority
  labels : List (Bounded 40)
  agentId : Option NonBlank
  sessionKey : Option NonBlank
  runId : Option NonBlank
  taskId : Option NonBlank
  sourceUrl : Option NonBlank
  execution : Option WorkboardExecution
  position : ℕ
  createdAt : ℕ
  updatedAt : ℕ
  startedAt : Option ℕ
  completedAt : Option ℕ
  events : List WorkboardEvent
  metadata : WorkboardMetadata

structure WorkboardOrchestrationSettings where
  autoDecompose : Option Bool
  autoDecomposePerDispatch : Option Positive
  defaultAssignee : Option (Bounded 120)
  orchestratorProfile : Option (Bounded 120)
  deriving DecidableEq

structure WorkboardBoardMetadata where
  id : BoardId
  name : Option (Bounded 120)
  description : Option (Bounded 1000)
  icon : Option (Bounded 40)
  color : Option (Bounded 40)
  defaultWorkspace : Option WorkboardWorkspace
  orchestration : Option WorkboardOrchestrationSettings
  createdAt : ℕ
  updatedAt : ℕ
  archivedAt : Option Positive

structure WorkboardNotificationSubscription where
  id : NonBlank
  boardId : BoardId
  cardId : Option (Bounded 120)
  sessionKey : Option (Bounded 240)
  runId : Option (Bounded 160)
  target : Option (Bounded 240)
  eventKinds : List WorkboardNotificationKind
  lastEventAt : Option ℕ
  lastEventId : Option JsString
  lastEventSequence : Option ℕ
  createdAt : ℕ
  updatedAt : ℕ

end ClawWorks.Workboard
