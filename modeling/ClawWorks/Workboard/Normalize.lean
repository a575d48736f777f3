import ClawWorks.Workboard.Types

/-!
# Normalizers

What callers or the store itself put into the metadata of a card passes through a normalizer for each kind of record:
its fields are read one by one (`Raw…`), a record without what it needs is dropped, a text that is too long is an
error. `raw` is a record as the store writes it into a patch; reading it gives the record back (`normalizeLink_raw`
and its like). Runs and notifications hold texts that have a limit only where they are read, so reading one may fail.
-/

namespace ClawWorks.Workboard

open Except

structure RawAttempt where
  id : Unknown
  status : Option WorkboardAttemptStatus
  startedAt : Unknown
  endedAt : Unknown
  engine : Option WorkboardExecutionEngine
  mode : Option WorkboardExecutionMode
  model : Unknown
  sessionKey : Unknown
  runId : Unknown
  error : Unknown
  deriving DecidableEq

def normalizeAttempt (record : RawAttempt) : Except JsString (Option WorkboardRunAttempt) :=
  let startedAt := normalizeTimestamp record.startedAt 0
  match normalizeOptionalString record.id with
  | none => .ok none
  | some id =>
    if startedAt = 0 then .ok none
    else do
      let error : Option (Bounded 800) ← normalizeBoundedString record.error none (js "attempt error")
      let model : Option (Bounded 160) ← normalizeBoundedString record.model none (js "attempt model")
      return some {
        id, startedAt
        status := record.status.getD .running
        endedAt := (positive? (normalizeTimestamp record.endedAt 0)).map (·.val)
        engine := record.engine
        mode := record.mode
        model := model.map (·.val)
        sessionKey := normalizeOptionalString record.sessionKey
        runId := normalizeOptionalString record.runId
        error := error.map (·.val) }

def WorkboardRunAttempt.raw (a : WorkboardRunAttempt) : RawAttempt where
  id := a.id.raw
  status := some a.status
  startedAt := rawNumber a.startedAt
  endedAt := a.endedAt.elim .undefined rawNumber
  engine := a.engine
  mode := a.mode
  model := rawText a.model
  sessionKey := rawText a.sessionKey
  runId := rawText a.runId
  error := rawText a.error

/-! ## Comments, links, proofs, artifacts -/

structure RawComment where
  id : Unknown
  body : Unknown
  createdAt : Unknown
  updatedAt : Unknown
  deriving DecidableEq

def normalizeComment (record : RawComment) : Except JsString (Option WorkboardComment) := do
  let body : Option (Bounded 2000) ← normalizeBoundedString record.body none (js "comment body")
  match normalizeOptionalString record.id, body, positive? (normalizeTimestamp record.createdAt 0) with
  | some id, some body, some createdAt =>
    return some { id, body, createdAt, updatedAt := positive? (normalizeTimestamp record.updatedAt 0) }
  | _, _, _ => return none

def WorkboardComment.raw (c : WorkboardComment) : RawComment where
  id := c.id.raw
  body := c.body.val.raw
  createdAt := rawNumber c.createdAt.val
  updatedAt := rawPositive c.updatedAt

@[simp] theorem normalizeComment_raw (c : WorkboardComment) : normalizeComment c.raw = .ok (some c) := by
  simp [normalizeComment, WorkboardComment.raw, pure, Except.pure, bind, Except.bind]

structure RawLink where
  id : Unknown
  type : Option WorkboardLinkType
  createdAt : Unknown
  targetCardId : Unknown
  title : Unknown
  url : Unknown
  deriving DecidableEq

def normalizeLink (record : RawLink) : Except JsString (Option WorkboardLink) :=
  match normalizeOptionalString record.id, positive? (normalizeTimestamp record.createdAt 0) with
  | some id, some createdAt => do
    let targetCardId : Option (Bounded 120) ← normalizeBoundedString record.targetCardId none (js "link target")
    let title : Option (Bounded 180) ← normalizeBoundedString record.title none (js "link title")
    let url : Option (Bounded 2000) ← normalizeBoundedString record.url none (js "link URL")
    if leads : (targetCardId.isSome || url.isSome) = true then
      return some { id, type := record.type.getD .relatesTo, createdAt, targetCardId, title, url, leads }
    else return none
  | _, _ => .ok none

def WorkboardLink.raw (l : WorkboardLink) : RawLink where
  id := l.id.raw
  type := some l.type
  createdAt := rawNumber l.createdAt.val
  targetCardId := rawBounded l.targetCardId
  title := rawBounded l.title
  url := rawBounded l.url

@[simp] theorem normalizeLink_raw (l : WorkboardLink) : normalizeLink l.raw = .ok (some l) := by
  simp [normalizeLink, WorkboardLink.raw, pure, Except.pure, bind, Except.bind, l.leads]

def WorkboardLink.isDependencyLink (l : WorkboardLink) : Bool :=
  l.type = .parent || l.type = .child

structure RawProof where
  id : Unknown
  status : Option WorkboardProofStatus
  createdAt : Unknown
  label : Unknown
  command : Unknown
  url : Unknown
  note : Unknown
  deriving DecidableEq

def normalizeProof (record : RawProof) : Except JsString (Option WorkboardProof) :=
  match normalizeOptionalString record.id, positive? (normalizeTimestamp record.createdAt 0) with
  | some id, some createdAt => do
    let label : Option (Bounded 160) ← normalizeBoundedString record.label none (js "proof label")
    let command : Option (Bounded 1000) ← normalizeBoundedString record.command none (js "proof command")
    let url : Option (Bounded 2000) ← normalizeBoundedString record.url none (js "proof URL")
    let note : Option (Bounded 2000) ← normalizeBoundedString record.note none (js "proof note")
    return some { id, status := record.status.getD .unknown, createdAt, label, command, url, note }
  | _, _ => .ok none

def WorkboardProof.raw (p : WorkboardProof) : RawProof where
  id := p.id.raw
  status := some p.status
  createdAt := rawNumber p.createdAt.val
  label := rawBounded p.label
  command := rawBounded p.command
  url := rawBounded p.url
  note := rawBounded p.note

@[simp] theorem normalizeProof_raw (p : WorkboardProof) : normalizeProof p.raw = .ok (some p) := by
  simp [normalizeProof, WorkboardProof.raw, pure, Except.pure, bind, Except.bind]

structure RawArtifact where
  id : Unknown
  createdAt : Unknown
  label : Unknown
  url : Unknown
  path : Unknown
  mimeType : Unknown
  deriving DecidableEq

/-- `fresh` is the id drawn where the record has none, `now` the time where it has none. -/
def normalizeArtifact (record : RawArtifact) (fresh : NonBlank) (now : ℕ) :
    Except JsString (Option WorkboardArtifact) := do
  let label : Option (Bounded 160) ← normalizeBoundedString record.label none (js "artifact label")
  let url : Option (Bounded 2000) ← normalizeBoundedString record.url none (js "artifact URL")
  let path : Option (Bounded 2000) ← normalizeBoundedString record.path none (js "artifact path")
  let mimeType : Option (Bounded 160) ← normalizeBoundedString record.mimeType none (js "artifact MIME type")
  if leads : (url.isSome || path.isSome) = true then
    return some {
      id := (normalizeOptionalString record.id).getD fresh
      createdAt := normalizeTimestamp record.createdAt now
      label, url, path, mimeType, leads }
  else return none

def WorkboardArtifact.raw (a : WorkboardArtifact) : RawArtifact where
  id := a.id.raw
  createdAt := rawNumber a.createdAt
  label := rawBounded a.label
  url := rawBounded a.url
  path := rawBounded a.path
  mimeType := rawBounded a.mimeType

@[simp] theorem normalizeArtifact_raw (a : WorkboardArtifact) (fresh : NonBlank) (now : ℕ) :
    normalizeArtifact a.raw fresh now = .ok (some a) := by
  simp [normalizeArtifact, WorkboardArtifact.raw, pure, Except.pure, bind, Except.bind, a.leads]

structure RawAttachment where
  id : Unknown
  cardId : Unknown
  createdAt : Unknown
  fileName : Unknown
  byteSize : Unknown
  mimeType : Unknown
  note : Unknown
  deriving DecidableEq

def normalizeAttachment (record : RawAttachment) : Except JsString (Option WorkboardAttachment) := do
  let cardId : Option (Bounded 120) ← normalizeBoundedString record.cardId none (js "card id")
  let fileName : Option (Bounded 240) ← normalizeBoundedString record.fileName none (js "attachment file name")
  match normalizeOptionalString record.id, cardId, fileName, positive? (normalizeTimestamp record.createdAt 0),
    positive? (normalizeTimestamp record.byteSize 0) with
  | some id, some cardId, some fileName, some createdAt, some byteSize => do
    let mimeType : Option (Bounded 160) ← normalizeBoundedString record.mimeType none (js "attachment MIME type")
    let note : Option (Bounded 400) ← normalizeBoundedString record.note none (js "attachment note")
    return some { id, cardId, createdAt, fileName, byteSize, mimeType, note }
  | _, _, _, _, _ => return none

def WorkboardAttachment.raw (a : WorkboardAttachment) : RawAttachment where
  id := a.id.raw
  cardId := a.cardId.val.raw
  createdAt := rawNumber a.createdAt.val
  fileName := a.fileName.val.raw
  byteSize := rawNumber a.byteSize.val
  mimeType := rawBounded a.mimeType
  note := rawBounded a.note

@[simp] theorem normalizeAttachment_raw (a : WorkboardAttachment) : normalizeAttachment a.raw = .ok (some a) := by
  simp [normalizeAttachment, WorkboardAttachment.raw, pure, Except.pure, bind, Except.bind]

/-! ## Logs, protocol, claims -/

structure RawWorkerLog where
  id : Unknown
  level : Option WorkerLogLevel
  message : Unknown
  createdAt : Unknown
  sessionKey : Unknown
  runId : Unknown
  deriving DecidableEq

def normalizeWorkerLog (record : RawWorkerLog) : Except JsString (Option WorkboardWorkerLog) := do
  let message : Option (Bounded 800) ← normalizeBoundedString record.message none (js "worker log message")
  match normalizeOptionalString record.id, message, positive? (normalizeTimestamp record.createdAt 0) with
  | some id, some message, some createdAt => do
    let sessionKey : Option (Bounded 240) ← normalizeBoundedString record.sessionKey none (js "session key")
    let runId : Option (Bounded 160) ← normalizeBoundedString record.runId none (js "run id")
    return some { id, level := record.level.getD .info, message, createdAt := createdAt.val, sessionKey, runId }
  | _, _, _ => return none

def WorkboardWorkerLog.raw (l : WorkboardWorkerLog) : RawWorkerLog where
  id := l.id.raw
  level := some l.level
  message := l.message.val.raw
  createdAt := rawNumber l.createdAt
  sessionKey := rawBounded l.sessionKey
  runId := rawBounded l.runId

structure RawWorkerProtocol where
  state : Option WorkerProtocolState
  updatedAt : Unknown
  detail : Unknown
  deriving DecidableEq

def normalizeWorkerProtocol (record : RawWorkerProtocol) (fallback : Option WorkboardWorkerProtocol) (now : ℕ) :
    Except JsString (Option WorkboardWorkerProtocol) :=
  match record.state.or (fallback.map (·.state)) with
  | none => .ok none
  | some state => do
    let detail ← normalizeBoundedString record.detail (fallback.bind (·.detail)) (js "protocol detail")
    return some {
      state, detail
      updatedAt := normalizeTimestamp record.updatedAt ((fallback.map (·.updatedAt)).getD now) }

def WorkboardWorkerProtocol.raw (p : WorkboardWorkerProtocol) : RawWorkerProtocol where
  state := some p.state
  updatedAt := rawNumber p.updatedAt
  detail := rawBounded p.detail

@[simp] theorem normalizeWorkerProtocol_raw (p : WorkboardWorkerProtocol) (now : ℕ) :
    normalizeWorkerProtocol p.raw (some p) now = .ok (some p) := by
  simp [normalizeWorkerProtocol, WorkboardWorkerProtocol.raw, pure, Except.pure, bind, Except.bind]

structure RawClaim where
  ownerId : Unknown
  token : Unknown
  claimedAt : Unknown
  lastHeartbeatAt : Unknown
  expiresAt : Unknown
  deriving DecidableEq

def normalizeClaim (record : RawClaim) (fallback : Option WorkboardClaim) (now : ℕ) :
    Except JsString (Option WorkboardClaim) := do
  let ownerId ← normalizeBoundedString record.ownerId (fallback.map (·.ownerId)) (js "claim owner")
  let token ← normalizeBoundedString record.token (fallback.map (·.token)) (js "claim token")
  let claimedAt := normalizeTimestamp record.claimedAt ((fallback.map (·.claimedAt.val)).getD now)
  let lastHeartbeatAt :=
    normalizeTimestamp record.lastHeartbeatAt ((fallback.map (·.lastHeartbeatAt.val)).getD claimedAt)
  let expiresAt := normalizeTimestamp record.expiresAt (((fallback.bind (·.expiresAt)).map (·.val)).getD 0)
  match ownerId, token, positive? claimedAt, positive? lastHeartbeatAt with
  | some ownerId, some token, some claimedAt, some lastHeartbeatAt =>
    return some { ownerId, token, claimedAt, lastHeartbeatAt, expiresAt := positive? expiresAt }
  | _, _, _, _ => return none

def WorkboardClaim.raw (c : WorkboardClaim) : RawClaim where
  ownerId := c.ownerId.val.raw
  token := c.token.val.raw
  claimedAt := rawNumber c.claimedAt.val
  lastHeartbeatAt := rawNumber c.lastHeartbeatAt.val
  expiresAt := rawPositive c.expiresAt

theorem normalizeClaim_raw (c : WorkboardClaim) (fallback : Option WorkboardClaim) (now : ℕ)
    (h : c.expiresAt.isSome) : normalizeClaim c.raw fallback now = .ok (some c) := by
  obtain ⟨e, he⟩ := Option.isSome_iff_exists.mp h
  obtain ⟨ownerId, token, claimedAt, lastHeartbeatAt, expiresAt⟩ := c
  cases he
  simp [normalizeClaim, WorkboardClaim.raw, rawPositive, pure, Except.pure, bind, Except.bind]

/-! ## Diagnostics and notifications -/

structure RawDiagnosticAction where
  kind : Option DiagnosticActionKind
  label : Unknown
  deriving DecidableEq

def normalizeDiagnosticAction (record : RawDiagnosticAction) : Except JsString (Option WorkboardDiagnosticAction) := do
  let label : Option (Bounded 120) ← normalizeBoundedString record.label none (js "diagnostic action label")
  match record.kind, label with
  | some kind, some label => return some { kind, label }
  | _, _ => return none

def WorkboardDiagnosticAction.raw (a : WorkboardDiagnosticAction) : RawDiagnosticAction where
  kind := some a.kind
  label := a.label.val.raw

structure RawDiagnostic where
  kind : Option WorkboardDiagnosticKind
  severity : Option WorkboardDiagnosticSeverity
  title : Unknown
  detail : Unknown
  firstSeenAt : Unknown
  lastSeenAt : Unknown
  count : Unknown
  actions : List RawDiagnosticAction
  deriving DecidableEq

def normalizeDiagnostic (record : RawDiagnostic) (now : ℕ) : Except JsString (Option WorkboardDiagnostic) := do
  let title : Option (Bounded 160) ← normalizeBoundedString record.title none (js "diagnostic title")
  let detail : Option (Bounded 800) ← normalizeBoundedString record.detail none (js "diagnostic detail")
  let firstSeenAt := normalizeTimestamp record.firstSeenAt now
  let lastSeenAt := normalizeTimestamp record.lastSeenAt firstSeenAt
  match record.kind, title, detail with
  | some kind, some title, some detail => do
    let actions ← collect normalizeDiagnosticAction record.actions
    return some {
      kind, title, detail, firstSeenAt, lastSeenAt
      severity := record.severity.getD .warning
      count := ⟨max 1 (normalizeTimestamp record.count 1), lt_of_lt_of_le one_pos (le_max_left _ _)⟩
      actions := ⟨actions.take 4, by rw [List.length_take]; exact min_le_left _ _⟩ }
  | _, _, _ => return none

def WorkboardDiagnostic.raw (d : WorkboardDiagnostic) : RawDiagnostic where
  kind := some d.kind
  severity := some d.severity
  title := d.title.val.raw
  detail := d.detail.val.raw
  firstSeenAt := rawNumber d.firstSeenAt
  lastSeenAt := rawNumber d.lastSeenAt
  count := rawNumber d.count.val
  actions := d.actions.val.map (·.raw)

theorem collect_raw {α ρ : Type} {read : ρ → Except JsString (Option α)} {raw : α → ρ}
    (h : ∀ a, read (raw a) = .ok (some a)) (items : List α) : collect read (items.map raw) = .ok items := by
  induction items with
  | nil => rfl
  | cons a items ih =>
    rw [List.map_cons, collect_cons_eq_ok]
    exact ⟨some a, items, h a, ih, rfl⟩

@[simp] theorem normalizeDiagnosticAction_raw (a : WorkboardDiagnosticAction) :
    normalizeDiagnosticAction a.raw = .ok (some a) := by
  simp [normalizeDiagnosticAction, WorkboardDiagnosticAction.raw, pure, Except.pure, bind, Except.bind]

@[simp] theorem normalizeDiagnostic_raw (d : WorkboardDiagnostic) (now : ℕ) :
    normalizeDiagnostic d.raw now = .ok (some d) := by
  have hcount : max 1 d.count.val = d.count.val := max_eq_right d.count.property
  have hactions : d.actions.val.take 4 = d.actions.val := List.take_of_length_le d.actions.property
  have hcollect := collect_raw normalizeDiagnosticAction_raw d.actions.val
  simp [normalizeDiagnostic, WorkboardDiagnostic.raw, pure, Except.pure, bind, Except.bind, hcollect, hcount, hactions]

structure RawNotification where
  id : Unknown
  kind : Option WorkboardNotificationKind
  createdAt : Unknown
  sequence : Unknown
  message : Unknown
  sessionKey : Unknown
  runId : Unknown
  deriving DecidableEq

def normalizeNotification (record : RawNotification) (fresh : NonBlank) (now : ℕ) :
    Except JsString (Option WorkboardNotification) := do
  let message : Option (Bounded 240) ← normalizeBoundedString record.message none (js "notification message")
  match record.kind, message with
  | some kind, some message => do
    let sessionKey : Option (Bounded 240) ← normalizeBoundedString record.sessionKey none (js "session key")
    let runId : Option (Bounded 120) ← normalizeBoundedString record.runId none (js "run id")
    return some {
      id := (normalizeOptionalString record.id).getD fresh
      kind, message
      sessionKey := sessionKey.map (·.val)
      runId := runId.map (·.val)
      createdAt := normalizeTimestamp record.createdAt now
      sequence := positive? (normalizeTimestamp record.sequence 0) }
  | _, _ => return none

def WorkboardNotification.raw (n : WorkboardNotification) : RawNotification where
  id := n.id.raw
  kind := some n.kind
  createdAt := rawNumber n.createdAt
  sequence := rawPositive n.sequence
  message := n.message.val.raw
  sessionKey := rawText n.sessionKey
  runId := rawText n.runId

theorem normalizeNotification_raw {n : WorkboardNotification} {fresh : NonBlank} {now : ℕ}
    {read : Option WorkboardNotification} (h : normalizeNotification n.raw fresh now = .ok read) : read = some n := by
  simp only [normalizeNotification, WorkboardNotification.raw, normalizeBoundedString_raw, bind_eq_ok,
    ok.injEq, exists_eq_left', normalizeOptionalString_raw, Option.getD_some, normalizeTimestamp_rawNumber,
    positive?_rawPositive] at h
  obtain ⟨sessionKey, hsessionKey, runId, hrunId, hread⟩ := h
  rw [← ok.inj hread, normalizeBoundedString_rawText hsessionKey, normalizeBoundedString_rawText hrunId]

structure RawWorkspace where
  kind : Option WorkspaceKind
  path : Unknown
  branch : Unknown
  deriving DecidableEq

def normalizeWorkspace (value : Field RawWorkspace) (fallback : Option WorkboardWorkspace) :
    Except JsString (Option WorkboardWorkspace) :=
  match value with
  | .object record =>
    match record.kind.or (fallback.map (·.kind)) with
    | none => .error (js "workspace kind must be scratch, dir, or worktree.")
    | some kind => do
      let path ← normalizeBoundedString record.path (fallback.bind (·.path)) (js "workspace path")
      if absolute : kind = .dir → path.any (fun p => isAbsoluteWorkspacePath p.val.text) = true then do
        let branch ← normalizeBoundedString record.branch (fallback.bind (·.branch)) (js "workspace branch")
        return some { kind, path, branch, absolute }
      else .error (js "dir workspace path must be absolute.")
  | _ => .ok fallback

def WorkboardWorkspace.raw (w : WorkboardWorkspace) : RawWorkspace where
  kind := some w.kind
  path := rawBounded w.path
  branch := rawBounded w.branch

@[simp] theorem normalizeWorkspace_raw (w : WorkboardWorkspace) :
    normalizeWorkspace (.object w.raw) (some w) = .ok (some w) := by
  simp [normalizeWorkspace, WorkboardWorkspace.raw, pure, Except.pure, bind, Except.bind, dif_pos w.absolute]

end ClawWorks.Workboard
