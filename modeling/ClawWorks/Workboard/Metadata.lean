import ClawWorks.Lib.KeyedTable
import ClawWorks.Workboard.Normalize

/-!
# The metadata of a card

Every write of a card's metadata reads it anew, record by record (`normalizeMetadata`), and then drops entries until
it fits its budget (`trimMetadataToBudget`): runs first, comments last, claims, automation and dependency links never.

What lies outside the store is a parameter (`Platform`): the clock, the ids that `randomUUID` draws, how long the JSON
text of a card's metadata is, and which card writes the table below accepts.
-/

namespace ClawWorks.Workboard

open Except List

/--
The clock by reading, the ids by drawing; the size of `JSON.stringify(metadata)` in bytes; the order of texts in the
locale; the writes accepted.
-/
class Platform extends casing : LowerCase where
  clock : ℕ → ℕ
  clock_pos : ∀ n, 0 < clock n
  uuid : ℕ → CardId
  metadataByteSize : WorkboardMetadata → ℕ
  localeCompare : JsString → JsString → Ordering
  accepts : KeyedTable WorkboardCard.id → WorkboardCard → Bool

export Platform (clock uuid metadataByteSize localeCompare accepts)

def MAX_CARD_EVENTS : ℕ := 50
def MAX_CARD_ATTEMPTS : ℕ := 30
def MAX_CARD_COMMENTS : ℕ := 50
def MAX_CARD_LINKS : ℕ := 50
def MAX_CARD_PROOF : ℕ := 40
def MAX_CARD_ARTIFACTS : ℕ := 40
def MAX_CARD_ATTACHMENTS : ℕ := 20
def MAX_CARD_WORKER_LOGS : ℕ := 40
def MAX_CARD_DIAGNOSTICS : ℕ := 12
def MAX_CARD_NOTIFICATIONS : ℕ := 20
def MAX_CARD_METADATA_BYTES : ℕ := 24 * 1024

/-! ## Boards -/

def boardIdPattern : JsString :=
  js "board id must start with a letter or number and use letters, numbers, dots, dashes, or underscores."

def isBoardIdUnit (u : UInt16) : Bool :=
  isDigit u || (97 ≤ u && u ≤ 122) || u = 46 || u = 95 || u = 45

theorem isWhiteSpace_of_isBoardIdUnit {u : UInt16} (h : isBoardIdUnit u) : isWhiteSpace u = false := by
  simp only [isBoardIdUnit, isDigit, Bool.or_eq_true, Bool.and_eq_true, decide_eq_true_eq,
    UInt16.le_iff_toNat_le, ← UInt16.toNat_inj] at h
  simp at h
  exact isWhiteSpace_of_printable (by omega) (by omega)

theorem isBoardIdUnit_of_mem {s : JsString} (h : isBoardId s) : ∀ u ∈ s, isBoardIdUnit u := by
  cases s with
  | nil => cases h
  | cons u rest =>
    simp only [isBoardId, Bool.and_eq_true, all_eq_true] at h
    rw [forall_mem_cons]
    refine ⟨?_, fun v hv => ?_⟩
    · simp only [isBoardIdUnit, h.1.1, Bool.true_or]
    · simpa only [isBoardIdUnit] using h.2 v hv

theorem length_of_isBoardId {s : JsString} (h : isBoardId s = true) : s.length ≤ 80 := by
  cases s with
  | nil => cases h
  | cons u rest =>
    simp only [isBoardId, Bool.and_eq_true, decide_eq_true_eq] at h
    rw [length_cons]
    omega

/-- What the pattern lets through, as the id of a board. -/
def BoardId.of (s : JsString) (h : isBoardId s = true) : BoardId :=
  ⟨⟨⟨s, trim_eq_self fun u hu => isWhiteSpace_of_isBoardIdUnit (isBoardIdUnit_of_mem h u hu),
      fun hnil => by rw [hnil] at h; cases h⟩, length_of_isBoardId h⟩, h⟩

section Boards

variable [LowerCase]

def normalizeBoardId (value : Unknown) (fallback : Option BoardId) : Except JsString (Option BoardId) := do
  let raw ← normalizeBoundedString value (fallback.map (·.val)) (js "board id")
  match raw with
  | none => return none
  | some raw =>
    if h : isBoardId (toLowerCase raw.val.text) = true then return some (.of _ h)
    else throw boardIdPattern

end Boards

def BoardId.default : BoardId :=
  .of (js "default") (by decide)

/-- The fields that `Object.hasOwn` is asked about are there or not. -/
structure RawAutomation where
  tenant : Unknown
  boardId : Option Unknown
  createdByCardId : Unknown
  idempotencyKey : Unknown
  skills : Option Unknown
  workspace : Option (Field RawWorkspace)
  maxRuntimeSeconds : Option Unknown
  maxRetries : Option Unknown
  scheduledAt : Option Unknown
  summary : Unknown
  createdCardIds : Option Unknown
  dispatchCount : Option Unknown
  lastDispatchAt : Option Unknown
  deriving DecidableEq

/-- `Object.keys(automation).length ? automation : undefined`. -/
def WorkboardAutomation.present (a : WorkboardAutomation) : Option WorkboardAutomation :=
  if a = .empty then none else some a

def ownTimestamp (value : Option Unknown) (fallback : Option Positive) : Option Positive :=
  value.elim fallback fun value => positive? (normalizeTimestamp value 0)

/-- A record that is no object reads as the fallback. -/
def normalizeAutomation [LowerCase] (value : Option RawAutomation) (fallback : Option WorkboardAutomation) :
    Except JsString (Option WorkboardAutomation) :=
  match value with
  | none => .ok fallback
  | some record => do
    let old := fallback.getD .empty
    let tenant ← normalizeBoundedString record.tenant old.tenant (js "tenant")
    let boardId ← record.boardId.elim (.ok old.boardId) fun value => normalizeBoardId value old.boardId
    let createdByCardId ← normalizeBoundedString record.createdByCardId old.createdByCardId (js "created by card id")
    let idempotencyKey ← normalizeBoundedString record.idempotencyKey old.idempotencyKey (js "idempotency key")
    let summary ← normalizeBoundedString record.summary old.summary (js "summary")
    let skills ← record.skills.elim (.ok old.skills) fun value => normalizeStringList value (js "skills")
    let createdCardIds ← record.createdCardIds.elim (.ok old.createdCardIds) fun value =>
      normalizeStringList value (js "created card ids")
    let maxRuntimeSeconds ← record.maxRuntimeSeconds.elim (.ok old.maxRuntimeSeconds) fun value =>
      normalizePositiveInteger value (js "max runtime seconds")
    let maxRetries ← record.maxRetries.elim (.ok old.maxRetries) fun value =>
      normalizePositiveInteger value (js "max retries")
    let workspace ← record.workspace.elim (.ok old.workspace) fun value => normalizeWorkspace value old.workspace
    let next : WorkboardAutomation := {
      tenant, boardId, createdByCardId, idempotencyKey, skills, workspace, maxRuntimeSeconds, maxRetries
      summary, createdCardIds
      scheduledAt := ownTimestamp record.scheduledAt old.scheduledAt
      dispatchCount := ownTimestamp record.dispatchCount old.dispatchCount
      lastDispatchAt := ownTimestamp record.lastDispatchAt old.lastDispatchAt }
    return next.present

/-- `{ ...automation }`: a field that is absent is no property. -/
def WorkboardAutomation.raw (a : WorkboardAutomation) : RawAutomation where
  tenant := rawBounded a.tenant
  boardId := a.boardId.map (·.val.val.raw)
  createdByCardId := rawBounded a.createdByCardId
  idempotencyKey := rawBounded a.idempotencyKey
  skills := if a.skills.val = [] then none else some (rawList a.skills.val)
  workspace := a.workspace.map (.object ·.raw)
  maxRuntimeSeconds := a.maxRuntimeSeconds.map (rawNumber ·.val)
  maxRetries := a.maxRetries.map (rawNumber ·.val)
  scheduledAt := a.scheduledAt.map (rawNumber ·.val)
  summary := rawBounded a.summary
  createdCardIds := if a.createdCardIds.val = [] then none else some (rawList a.createdCardIds.val)
  dispatchCount := a.dispatchCount.map (rawNumber ·.val)
  lastDispatchAt := a.lastDispatchAt.map (rawNumber ·.val)

section Budget

variable [Platform]

def dropFirstNonDependencyLink (links : List WorkboardLink) : List WorkboardLink :=
  links.eraseP (!·.isDependencyLink)

/-- The next entry to go. -/
def dropNext (m : WorkboardMetadata) : WorkboardMetadata :=
  if m.attempts ≠ [] then { m with attempts := m.attempts.tail }
  else if m.diagnostics ≠ [] then { m with diagnostics := m.diagnostics.tail }
  else if m.notifications ≠ [] then { m with notifications := m.notifications.tail }
  else if m.proof ≠ [] then { m with proof := m.proof.tail }
  else if m.artifacts ≠ [] then { m with artifacts := m.artifacts.tail }
  else if m.attachments ≠ [] then { m with attachments := m.attachments.tail }
  else if m.workerLogs ≠ [] then { m with workerLogs := m.workerLogs.tail }
  else if (dropFirstNonDependencyLink m.links).length ≠ m.links.length then
    { m with links := dropFirstNonDependencyLink m.links }
  else { m with comments := m.comments.tail }

/-- The loop stops where the text fits or does not get shorter, so its first size bounds its passes. -/
def trimWithin : ℕ → WorkboardMetadata → WorkboardMetadata
  | 0, m => m
  | passes + 1, m =>
    if metadataByteSize m ≤ MAX_CARD_METADATA_BYTES then m
    else if metadataByteSize (dropNext m) ≥ metadataByteSize m then dropNext m
    else trimWithin passes (dropNext m)

def trimMetadataToBudget (m : WorkboardMetadata) : WorkboardMetadata :=
  trimWithin (metadataByteSize m) m

theorem trimMetadataToBudget_induction {P : WorkboardMetadata → Prop} (hdrop : ∀ m, P m → P (dropNext m))
    {m : WorkboardMetadata} (h : P m) : P (trimMetadataToBudget m) := by
  unfold trimMetadataToBudget
  generalize metadataByteSize m = passes
  induction passes generalizing m with
  | zero => exact h
  | succ passes ih =>
    rw [trimWithin]
    split
    · exact h
    · split
      · exact hdrop m h
      · exact ih (hdrop m h)

theorem trimWithin_stops (passes : ℕ) (m : WorkboardMetadata) (h : metadataByteSize m ≤ passes) :
    metadataByteSize (trimWithin passes m) ≤ MAX_CARD_METADATA_BYTES ∨
      ∃ before, trimWithin passes m = dropNext before ∧
        metadataByteSize before ≤ metadataByteSize (dropNext before) := by
  induction passes generalizing m with
  | zero => exact Or.inl (h.trans (Nat.zero_le _))
  | succ passes ih =>
    rw [trimWithin]
    split_ifs with hfits hshorter
    · exact Or.inl hfits
    · exact Or.inr ⟨m, rfl, hshorter⟩
    · exact ih _ (by omega)

end Budget

/-! ## What trimming leaves alone -/

/-- The parts of metadata that no entry list holds, and the dependency links. -/
structure WorkboardMetadata.Agrees (m m' : WorkboardMetadata) : Prop where
  workerProtocol : m'.workerProtocol = m.workerProtocol
  automation : m'.automation = m.automation
  claim : m'.claim = m.claim
  templateId : m'.templateId = m.templateId
  archivedAt : m'.archivedAt = m.archivedAt
  stale : m'.stale = m.stale
  lifecycle : m'.lifecycleStatusSourceUpdatedAt = m.lifecycleStatusSourceUpdatedAt
  failureCount : m'.failureCount = m.failureCount
  dependencies : m'.links.filter (·.isDependencyLink) = m.links.filter (·.isDependencyLink)
  attempts : m'.attempts <:+ m.attempts
  comments : m'.comments <:+ m.comments
  links : m'.links.Sublist m.links
  proof : m'.proof <:+ m.proof
  artifacts : m'.artifacts <:+ m.artifacts
  attachments : m'.attachments <:+ m.attachments
  workerLogs : m'.workerLogs <:+ m.workerLogs
  diagnostics : m'.diagnostics <:+ m.diagnostics
  notifications : m'.notifications <:+ m.notifications

open WorkboardMetadata

open WorkboardMetadata.Agrees

namespace WorkboardMetadata.Agrees

theorem refl (m : WorkboardMetadata) : m.Agrees m where
  workerProtocol := rfl
  automation := rfl
  claim := rfl
  templateId := rfl
  archivedAt := rfl
  stale := rfl
  lifecycle := rfl
  failureCount := rfl
  dependencies := rfl
  attempts := suffix_rfl
  comments := suffix_rfl
  links := List.Sublist.refl _
  proof := suffix_rfl
  artifacts := suffix_rfl
  attachments := suffix_rfl
  workerLogs := suffix_rfl
  diagnostics := suffix_rfl
  notifications := suffix_rfl

theorem trans {a b c : WorkboardMetadata} (h : a.Agrees b) (h' : b.Agrees c) : a.Agrees c where
  workerProtocol := h'.workerProtocol.trans h.workerProtocol
  automation := h'.automation.trans h.automation
  claim := h'.claim.trans h.claim
  templateId := h'.templateId.trans h.templateId
  archivedAt := h'.archivedAt.trans h.archivedAt
  stale := h'.stale.trans h.stale
  lifecycle := h'.lifecycle.trans h.lifecycle
  failureCount := h'.failureCount.trans h.failureCount
  dependencies := h'.dependencies.trans h.dependencies
  attempts := h'.attempts.trans h.attempts
  comments := h'.comments.trans h.comments
  links := h'.links.trans h.links
  proof := h'.proof.trans h.proof
  artifacts := h'.artifacts.trans h.artifacts
  attachments := h'.attachments.trans h.attachments
  workerLogs := h'.workerLogs.trans h.workerLogs
  diagnostics := h'.diagnostics.trans h.diagnostics
  notifications := h'.notifications.trans h.notifications

end WorkboardMetadata.Agrees

theorem filter_dropFirstNonDependencyLink (links : List WorkboardLink) :
    (dropFirstNonDependencyLink links).filter (·.isDependencyLink) = links.filter (·.isDependencyLink) := by
  unfold dropFirstNonDependencyLink
  induction links with
  | nil => rfl
  | cons link links ih =>
    cases hlink : link.isDependencyLink with
    | true => simp [hlink, ih]
    | false => simp [hlink]

theorem agrees_dropNext (m : WorkboardMetadata) : m.Agrees (dropNext m) := by
  unfold dropNext
  split_ifs
  · exact { refl m with attempts := tail_suffix _ }
  · exact { refl m with diagnostics := tail_suffix _ }
  · exact { refl m with notifications := tail_suffix _ }
  · exact { refl m with proof := tail_suffix _ }
  · exact { refl m with artifacts := tail_suffix _ }
  · exact { refl m with attachments := tail_suffix _ }
  · exact { refl m with workerLogs := tail_suffix _ }
  · exact { refl m with
      links := eraseP_sublist, dependencies := filter_dropFirstNonDependencyLink _ }
  · exact { refl m with comments := tail_suffix _ }

/-- **Trimming** drops entries from the front of the lists, and no dependency link. -/
theorem agrees_trim [Platform] (m : WorkboardMetadata) : m.Agrees (trimMetadataToBudget m) :=
  trimMetadataToBudget_induction (fun _ h => h.trans (agrees_dropNext _)) (.refl m)

/-- Of the metadata that was read, the card keeps the end of each list, the dependencies and the marks. -/
structure Follows (m m' : WorkboardMetadata) : Prop where
  claim : m'.claim = m.claim
  stale : m'.stale = m.stale
  archivedAt : m'.archivedAt = m.archivedAt
  dependencies : m'.links.filter (·.isDependencyLink) = m.links.filter (·.isDependencyLink)
  links : m'.links.Sublist m.links
  comments : m'.comments <:+ m.comments
  proof : m'.proof <:+ m.proof
  artifacts : m'.artifacts <:+ m.artifacts
  attachments : m'.attachments <:+ m.attachments
  notifications : m'.notifications <:+ m.notifications

theorem Follows.trans {a b c : WorkboardMetadata} (h : Follows a b) (h' : Follows b c) : Follows a c where
  claim := h'.claim.trans h.claim
  stale := h'.stale.trans h.stale
  archivedAt := h'.archivedAt.trans h.archivedAt
  dependencies := h'.dependencies.trans h.dependencies
  links := h'.links.trans h.links
  comments := h'.comments.trans h.comments
  proof := h'.proof.trans h.proof
  artifacts := h'.artifacts.trans h.artifacts
  attachments := h'.attachments.trans h.attachments
  notifications := h'.notifications.trans h.notifications

theorem WorkboardMetadata.Agrees.follows {m m' : WorkboardMetadata} (h : m.Agrees m') : Follows m m' :=
  ⟨h.claim, h.stale, h.archivedAt, h.dependencies, h.links, h.comments, h.proof, h.artifacts, h.attachments,
    h.notifications⟩

theorem Follows.refl (m : WorkboardMetadata) : Follows m m := (WorkboardMetadata.Agrees.refl m).follows

/-! ## Reading metadata -/

structure RawStale where
  detectedAt : Unknown
  lastSessionUpdatedAt : Unknown
  reason : Unknown
  deriving DecidableEq

/--
`Record<string, unknown>`, field by field. A list is there or not; `claim`, `stale`, `archivedAt` and the lifecycle mark
are properties or not, and of these a claim or a stale mark that is no object clears what was there.
-/
structure RawMetadata where
  attempts : Option (List RawAttempt)
  comments : Option (List RawComment)
  links : Option (List RawLink)
  proof : Option (List RawProof)
  artifacts : Option (List RawArtifact)
  attachments : Option (List RawAttachment)
  workerLogs : Option (List RawWorkerLog)
  workerProtocol : Option RawWorkerProtocol
  automation : Option RawAutomation
  claim : Option (Field RawClaim)
  diagnostics : Option (List RawDiagnostic)
  notifications : Option (List RawNotification)
  templateId : Option WorkboardTemplateId
  archivedAt : Option Unknown
  stale : Option (Option RawStale)
  lifecycleStatusSourceUpdatedAt : Option Unknown
  failureCount : Unknown
  deriving DecidableEq

def normalizeList {ρ α : Type} (read : ρ → Except JsString (Option α)) (limit : ℕ) (old : List α) :
    Option (List ρ) → Except JsString (List α)
  | none => .ok old
  | some records => do
    let entries ← collect read records
    return entries.rtake limit

theorem normalizeList_raw {α ρ : Type} {read : ρ → Except JsString (Option α)} {raw : α → ρ}
    (h : ∀ a, read (raw a) = .ok (some a)) (limit : ℕ) (old items : List α) :
    normalizeList read limit old (some (items.map raw)) = .ok (items.rtake limit) := by
  simp only [normalizeList, collect_raw h]
  rfl

theorem collect_zipIdx_raw {α ρ : Type} {read : ρ × ℕ → Except JsString (Option α)} {raw : α → ρ}
    (h : ∀ a i r, read (raw a, i) = .ok r → r = some a) {items found : List α} {start : ℕ}
    (hfound : collect read ((items.map raw).zipIdx start) = .ok found) : found = items := by
  induction items generalizing start found with
  | nil => exact (ok.inj hfound).symm
  | cons a items ih =>
    rw [map_cons, zipIdx_cons] at hfound
    obtain ⟨first, rest, hfirst, hrest, rfl⟩ := collect_cons_eq_ok.mp hfound
    rw [h a start first hfirst, ih hrest]
    rfl

/-- Callers of `update` may not touch the dependency links. -/
def normalizeLinks (records : Option (List RawLink)) (old : List WorkboardLink) (allowDependencyLinks : Bool) :
    Except JsString (List WorkboardLink) :=
  match records with
  | none => .ok old
  | some records => do
    let links ← collect normalizeLink records
    if allowDependencyLinks then return links.rtake MAX_CARD_LINKS
    else
      let dependencyLinks := old.filter (·.isDependencyLink)
      let ordinaryCapacity := MAX_CARD_LINKS - dependencyLinks.length
      return dependencyLinks.rtake MAX_CARD_LINKS ++ (links.filter (!·.isDependencyLink)).rtake ordinaryCapacity

/-- `undefined` clears a claim, and what is neither that nor an object keeps it. -/
def normalizeClaimEntry (value : Option (Field RawClaim)) (old : Option WorkboardClaim) (now : ℕ) :
    Except JsString (Option WorkboardClaim) :=
  match value with
  | none => .ok old
  | some .undefined => .ok none
  | some .notObject => .ok old
  | some (.object record) => normalizeClaim record old now

def staleReason : Bounded 240 :=
  ⟨⟨js "Session has not reported recent activity.", by decide, by decide⟩, by decide⟩

def normalizeStale (value : Option (Option RawStale)) (old : Option WorkboardStaleState) (now : ℕ) :
    Except JsString (Option WorkboardStaleState) :=
  match value with
  | none => .ok old
  | some none => .ok none
  | some (some record) => do
    let reason ← normalizeBoundedString record.reason (old.map (·.reason)) (js "stale reason")
    return some {
      detectedAt := normalizeTimestamp record.detectedAt now
      lastSessionUpdatedAt := positive? (normalizeTimestamp record.lastSessionUpdatedAt 0)
      reason := reason.getD staleReason }

/-- How many ids reading the record may draw. -/
def RawMetadata.draws (record : RawMetadata) : ℕ :=
  (record.artifacts.getD []).length + (record.notifications.getD []).length

variable [Platform]

/-- `fresh` are the ids drawn for entries that have none, `now` the time for what has none. -/
def normalizeMetadata (value : Field RawMetadata) (fallback : WorkboardMetadata) (allowDependencyLinks : Bool)
    (fresh : ℕ → NonBlank) (now : ℕ) : Except JsString WorkboardMetadata :=
  match value with
  | .object record => do
    let links ← normalizeLinks record.links fallback.links allowDependencyLinks
    let attempts ← normalizeList normalizeAttempt MAX_CARD_ATTEMPTS fallback.attempts record.attempts
    let comments ← normalizeList normalizeComment MAX_CARD_COMMENTS fallback.comments record.comments
    let proof ← normalizeList normalizeProof MAX_CARD_PROOF fallback.proof record.proof
    let artifacts ← normalizeList (fun entry => normalizeArtifact entry.1 (fresh entry.2) now) MAX_CARD_ARTIFACTS
      fallback.artifacts (record.artifacts.map (·.zipIdx))
    let attachments ← normalizeList normalizeAttachment MAX_CARD_ATTACHMENTS fallback.attachments record.attachments
    let workerLogs ← normalizeList normalizeWorkerLog MAX_CARD_WORKER_LOGS fallback.workerLogs record.workerLogs
    let workerProtocol ← record.workerProtocol.elim (.ok fallback.workerProtocol) fun record =>
      normalizeWorkerProtocol record fallback.workerProtocol now
    let automation ← normalizeAutomation record.automation fallback.automation
    let claim ← normalizeClaimEntry record.claim fallback.claim now
    let diagnostics ←
      normalizeList (normalizeDiagnostic · now) MAX_CARD_DIAGNOSTICS fallback.diagnostics record.diagnostics
    let notifications ← normalizeList
      (fun entry => normalizeNotification entry.1 (fresh ((record.artifacts.getD []).length + entry.2)) now)
      MAX_CARD_NOTIFICATIONS fallback.notifications (record.notifications.map (·.zipIdx))
    let stale ← normalizeStale record.stale fallback.stale now
    return trimMetadataToBudget {
      attempts, comments, links, proof, artifacts, attachments, workerLogs, workerProtocol, automation, claim
      diagnostics, notifications, stale
      templateId := record.templateId.or fallback.templateId
      archivedAt := ownTimestamp record.archivedAt fallback.archivedAt
      lifecycleStatusSourceUpdatedAt := record.lifecycleStatusSourceUpdatedAt.elim
        fallback.lifecycleStatusSourceUpdatedAt fun value => some (normalizeTimestamp value 0)
      failureCount := normalizeTimestamp record.failureCount fallback.failureCount }
  | _ => .ok (trimMetadataToBudget fallback)

structure ReadAs (record : RawMetadata) (fallback : WorkboardMetadata) (allowDependencyLinks : Bool)
    (fresh : ℕ → NonBlank) (now : ℕ) (m : WorkboardMetadata) : Prop where
  links : normalizeLinks record.links fallback.links allowDependencyLinks = .ok m.links
  attempts : normalizeList normalizeAttempt MAX_CARD_ATTEMPTS fallback.attempts record.attempts = .ok m.attempts
  comments : normalizeList normalizeComment MAX_CARD_COMMENTS fallback.comments record.comments = .ok m.comments
  proof : normalizeList normalizeProof MAX_CARD_PROOF fallback.proof record.proof = .ok m.proof
  artifacts : normalizeList (fun entry => normalizeArtifact entry.1 (fresh entry.2) now) MAX_CARD_ARTIFACTS
    fallback.artifacts (record.artifacts.map (·.zipIdx)) = .ok m.artifacts
  attachments : normalizeList normalizeAttachment MAX_CARD_ATTACHMENTS fallback.attachments record.attachments =
    .ok m.attachments
  workerLogs : normalizeList normalizeWorkerLog MAX_CARD_WORKER_LOGS fallback.workerLogs record.workerLogs =
    .ok m.workerLogs
  automation : normalizeAutomation record.automation fallback.automation = .ok m.automation
  claim : normalizeClaimEntry record.claim fallback.claim now = .ok m.claim
  diagnostics : normalizeList (normalizeDiagnostic · now) MAX_CARD_DIAGNOSTICS fallback.diagnostics
    record.diagnostics = .ok m.diagnostics
  notifications : normalizeList
    (fun entry => normalizeNotification entry.1 (fresh ((record.artifacts.getD []).length + entry.2)) now)
    MAX_CARD_NOTIFICATIONS fallback.notifications (record.notifications.map (·.zipIdx)) = .ok m.notifications
  stale : normalizeStale record.stale fallback.stale now = .ok m.stale
  archivedAt : m.archivedAt = ownTimestamp record.archivedAt fallback.archivedAt
  lifecycle : m.lifecycleStatusSourceUpdatedAt = record.lifecycleStatusSourceUpdatedAt.elim
    fallback.lifecycleStatusSourceUpdatedAt fun value => some (normalizeTimestamp value 0)

theorem normalizeMetadata_object {record : RawMetadata} {fallback next : WorkboardMetadata} {allow : Bool}
    {fresh : ℕ → NonBlank} {now : ℕ} (h : normalizeMetadata (.object record) fallback allow fresh now = .ok next) :
    ∃ m, ReadAs record fallback allow fresh now m ∧ next = trimMetadataToBudget m := by
  simp only [normalizeMetadata, bind_eq_ok] at h
  obtain ⟨links, hlinks, attempts, hattempts, comments, hcomments, proof, hproof, artifacts, hartifacts, attachments,
    hattachments, workerLogs, hworkerLogs, workerProtocol, -, automation, hautomation, claim, hclaim, diagnostics,
    hdiagnostics, notifications, hnotifications, stale, hstale, hnext⟩ := h
  exact ⟨_, ⟨hlinks, hattempts, hcomments, hproof, hartifacts, hattachments, hworkerLogs, hautomation, hclaim,
    hdiagnostics, hnotifications, hstale, rfl, rfl⟩, (ok.inj hnext).symm⟩

/-- `{ ...metadata }`: a field that is absent is no property, but for what clears the old value. -/
def WorkboardMetadata.raw (m : WorkboardMetadata) : RawMetadata where
  attempts := some (m.attempts.map (·.raw))
  comments := some (m.comments.map (·.raw))
  links := some (m.links.map (·.raw))
  proof := some (m.proof.map (·.raw))
  artifacts := some (m.artifacts.map (·.raw))
  attachments := some (m.attachments.map (·.raw))
  workerLogs := some (m.workerLogs.map (·.raw))
  workerProtocol := m.workerProtocol.map (·.raw)
  automation := m.automation.map (·.raw)
  claim := some (m.claim.elim .undefined (.object ·.raw))
  diagnostics := some (m.diagnostics.map (·.raw))
  notifications := some (m.notifications.map (·.raw))
  templateId := m.templateId
  archivedAt := m.archivedAt.map (rawNumber ·.val)
  stale := some (m.stale.map fun stale =>
    ⟨rawNumber stale.detectedAt, rawPositive stale.lastSessionUpdatedAt, stale.reason.val.raw⟩)
  lifecycleStatusSourceUpdatedAt := m.lifecycleStatusSourceUpdatedAt.map rawNumber
  failureCount := rawNumber m.failureCount

/-- What the store spreads reads as itself, cut to the limits, if it can be read. -/
structure SpreadAs (m fallback base : WorkboardMetadata) : Prop where
  links : base.links = m.links.rtake MAX_CARD_LINKS
  comments : base.comments = m.comments.rtake MAX_CARD_COMMENTS
  proof : base.proof = m.proof.rtake MAX_CARD_PROOF
  artifacts : base.artifacts = m.artifacts.rtake MAX_CARD_ARTIFACTS
  attachments : base.attachments = m.attachments.rtake MAX_CARD_ATTACHMENTS
  notifications : base.notifications = m.notifications.rtake MAX_CARD_NOTIFICATIONS
  claim : (∀ c ∈ m.claim, c.expiresAt.isSome = true) → base.claim = m.claim
  stale : base.stale = m.stale
  lifecycle : base.lifecycleStatusSourceUpdatedAt =
    m.lifecycleStatusSourceUpdatedAt.or fallback.lifecycleStatusSourceUpdatedAt
  automation : normalizeAutomation (m.automation.map (·.raw)) fallback.automation = .ok base.automation

theorem ReadAs.spread {m fallback base : WorkboardMetadata} {archivedAt : Option Unknown} {fresh : ℕ → NonBlank}
    {now : ℕ} (h : ReadAs { m.raw with archivedAt } fallback true fresh now base) : SpreadAs m fallback base where
  links := by
    have hlinks := h.links
    simp only [raw, normalizeLinks, collect_raw normalizeLink_raw] at hlinks
    exact (ok.inj hlinks).symm
  comments := (ok.inj ((normalizeList_raw normalizeComment_raw _ _ _).symm.trans h.comments)).symm
  proof := (ok.inj ((normalizeList_raw normalizeProof_raw _ _ _).symm.trans h.proof)).symm
  artifacts := by
    obtain ⟨read, hread, hartifacts⟩ := bind_eq_ok.mp h.artifacts
    have hsame := collect_zipIdx_raw (fun a i r hr => by
      dsimp only at hr
      rw [normalizeArtifact_raw a (fresh i) now] at hr
      exact (ok.inj hr).symm) hread
    rw [← ok.inj hartifacts, hsame]
  attachments := (ok.inj ((normalizeList_raw normalizeAttachment_raw _ _ _).symm.trans h.attachments)).symm
  notifications := by
    obtain ⟨read, hread, hnotifications⟩ := bind_eq_ok.mp h.notifications
    have hsame := collect_zipIdx_raw (fun _ _ _ hr => normalizeNotification_raw hr) hread
    rw [← ok.inj hnotifications, hsame]
  claim hends := by
    have hclaim := h.claim
    cases hc : m.claim with
    | none =>
      simp only [raw, hc, Option.elim_none, normalizeClaimEntry] at hclaim
      exact (ok.inj hclaim).symm
    | some c =>
      simp only [raw, hc, Option.elim_some, normalizeClaimEntry,
        normalizeClaim_raw c _ _ (hends c hc)] at hclaim
      exact (ok.inj hclaim).symm
  stale := by
    have hstale := h.stale
    cases hs : m.stale with
    | none =>
      simp only [raw, hs, Option.map_none, normalizeStale] at hstale
      exact (ok.inj hstale).symm
    | some stale =>
      simp only [raw, hs, Option.map_some, normalizeStale, normalizeBoundedString_raw,
        normalizeTimestamp_rawNumber, positive?_rawPositive] at hstale
      exact (ok.inj hstale).symm
  lifecycle := by
    rw [h.lifecycle]
    cases hl : m.lifecycleStatusSourceUpdatedAt with
    | none | some at' => simp [raw, hl]
  automation := h.automation

end ClawWorks.Workboard
