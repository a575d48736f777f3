import ClawWorks.Workboard.Claims

/-!
# Metadata that is read again

Every write of a card spreads its metadata into a patch and reads it anew. Runs and notifications hold texts that have
a limit only there, so a card can be written whose metadata the next write refuses, or reads as something else.
-/

namespace ClawWorks.Workboard

open Except WorkboardMetadata Option List

variable {limit : ℕ}

theorem exists_normalizeBoundedString_rawText {t : Option NonBlank} (fieldName : JsString)
    (h : ∀ u ∈ t, u.text.length ≤ limit) : ∃ read : Option (Bounded limit),
      normalizeBoundedString (rawText t) none fieldName = .ok read ∧ read.map (·.val) = t := by
  cases t with
  | none => exact ⟨none, rfl, rfl⟩
  | some u => exact ⟨some ⟨u, h u rfl⟩, normalizeBoundedString_raw ⟨u, h u rfl⟩ none fieldName, rfl⟩

theorem length_le_of_normalizeBoundedString {t : Option NonBlank} {fieldName : JsString}
    {read : Option (Bounded limit)} (h : normalizeBoundedString (rawText t) none fieldName = .ok read) :
    ∀ u ∈ t, u.text.length ≤ limit := by
  intro u hu
  rw [← normalizeBoundedString_rawText h] at hu
  obtain ⟨bounded, -, rfl⟩ := map_eq_some_iff.mp hu
  exact bounded.property

theorem exists_normalizeBoundedString_rawBounded (t fallback : Option (Bounded limit)) (fieldName : JsString) :
    normalizeBoundedString (rawBounded t) fallback fieldName = .ok (t.or fallback) := by
  cases t with
  | none => rfl
  | some t => exact normalizeBoundedString_raw t fallback fieldName

/-! ## Runs -/

/-- What a run takes from its card, and from the call that ended it, is within the limits of its record. -/
structure WorkboardRunAttempt.Within (a : WorkboardRunAttempt) : Prop where
  error : ∀ t ∈ a.error, t.text.length ≤ 800
  model : ∀ t ∈ a.model, t.text.length ≤ 160

/-- A run that reads as itself. -/
structure WorkboardRunAttempt.Clean (a : WorkboardRunAttempt) : Prop extends a.Within where
  started : a.startedAt ≠ 0
  ended : a.endedAt ≠ some 0

/-- What a run reads as; one that never started is dropped. -/
def WorkboardRunAttempt.reread (a : WorkboardRunAttempt) : Option WorkboardRunAttempt :=
  if a.startedAt = 0 then none else some { a with endedAt := a.endedAt.bind truthy }

theorem map_positive? (n : ℕ) : (positive? n).map (·.val) = truthy n := by
  unfold positive? truthy
  split_ifs with hpos hzero hzero
  · omega
  · rfl
  · rfl
  · omega

theorem endedAt_raw (endedAt : Option ℕ) :
    (positive? (normalizeTimestamp (endedAt.elim .undefined rawNumber) 0)).map (·.val) = endedAt.bind truthy := by
  cases endedAt with
  | none => rfl
  | some n => rw [elim_some, normalizeTimestamp_rawNumber, map_positive?]; rfl

variable {a : WorkboardRunAttempt}

theorem normalizeAttempt_raw (h : a.startedAt ≠ 0 → a.Within) : normalizeAttempt a.raw = .ok a.reread := by
  simp only [normalizeAttempt, WorkboardRunAttempt.raw, normalizeOptionalString_raw, normalizeTimestamp_rawNumber,
    normalizeOptionalString_rawText, WorkboardRunAttempt.reread]
  split_ifs with hstarted
  · rfl
  · obtain ⟨error, herror, hreadError⟩ := exists_normalizeBoundedString_rawText (js "attempt error") (h hstarted).error
    obtain ⟨model, hmodel, hreadModel⟩ := exists_normalizeBoundedString_rawText (js "attempt model") (h hstarted).model
    rw [herror, hmodel]
    simp only [pure, Except.pure, bind, Except.bind, hreadError, hreadModel, endedAt_raw, getD_some]

theorem within_of_normalizeAttempt {read : Option WorkboardRunAttempt}
    (h : normalizeAttempt a.raw = .ok read) (hstarted : a.startedAt ≠ 0) : a.Within := by
  simp only [normalizeAttempt, WorkboardRunAttempt.raw, normalizeOptionalString_raw, normalizeTimestamp_rawNumber,
    if_neg hstarted, bind_eq_ok] at h
  obtain ⟨error, herror, model, hmodel, -⟩ := h
  exact ⟨length_le_of_normalizeBoundedString herror, length_le_of_normalizeBoundedString hmodel⟩

theorem WorkboardRunAttempt.Clean.reread (h : a.Clean) : a.reread = some a := by
  have hended : a.endedAt.bind truthy = a.endedAt := by
    cases hat : a.endedAt with
    | none => rfl
    | some n =>
      have hpos : n ≠ 0 := fun hzero => h.ended (by rw [hat, hzero])
      exact if_neg hpos
  rw [WorkboardRunAttempt.reread, if_neg h.started, hended]

theorem clean_of_mem_reread {a b : WorkboardRunAttempt} (h : a.startedAt ≠ 0 → a.Within) (hb : a.reread = some b) :
    b.Clean := by
  unfold WorkboardRunAttempt.reread at hb
  split_ifs at hb with hstarted
  obtain rfl := some.inj hb
  refine { error := (h hstarted).error, model := (h hstarted).model, started := hstarted, ended := fun hzero => ?_ }
  obtain ⟨n, -, hn⟩ := bind_eq_some_iff.mp hzero
  unfold truthy at hn
  split_ifs at hn with hpos
  exact hpos (some.inj hn)

/-- What a notification takes from its card is within the limits of its record. -/
structure WorkboardNotification.Within (n : WorkboardNotification) : Prop where
  sessionKey : ∀ t ∈ n.sessionKey, t.text.length ≤ 240
  runId : ∀ t ∈ n.runId, t.text.length ≤ 120

theorem normalizeNotification_raw_of_within {n : WorkboardNotification} (h : n.Within) (fresh : NonBlank) (now : ℕ) :
    normalizeNotification n.raw fresh now = .ok (some n) := by
  obtain ⟨sessionKey, hsessionKey, -⟩ := exists_normalizeBoundedString_rawText (js "session key") h.sessionKey
  obtain ⟨runId, hrunId, -⟩ := exists_normalizeBoundedString_rawText (js "run id") h.runId
  have hread : ∃ read, normalizeNotification n.raw fresh now = .ok read := by
    simp only [normalizeNotification, WorkboardNotification.raw, normalizeBoundedString_raw, hsessionKey, hrunId]
    exact ⟨_, rfl⟩
  obtain ⟨read, hread⟩ := hread
  rw [hread, normalizeNotification_raw hread]

theorem within_of_normalizeNotification {n : WorkboardNotification} {fresh : NonBlank} {now : ℕ}
    {read : Option WorkboardNotification} (h : normalizeNotification n.raw fresh now = .ok read) : n.Within := by
  simp only [normalizeNotification, WorkboardNotification.raw, normalizeBoundedString_raw, bind_eq_ok,
    ok.injEq, exists_eq_left'] at h
  obtain ⟨sessionKey, hsessionKey, runId, hrunId, -⟩ := h
  exact ⟨length_le_of_normalizeBoundedString hsessionKey, length_le_of_normalizeBoundedString hrunId⟩

theorem normalizeWorkerLog_raw (l : WorkboardWorkerLog) :
    normalizeWorkerLog l.raw = .ok (if l.createdAt = 0 then none else some l) := by
  obtain ⟨id, level, message, createdAt, sessionKey, runId⟩ := l
  simp only [normalizeWorkerLog, WorkboardWorkerLog.raw, normalizeBoundedString_raw, normalizeOptionalString_raw,
    normalizeTimestamp_rawNumber, normalizeBoundedString_rawBounded, pure, pure, bind, bind]
  split_ifs with hzero
  · subst hzero
    rfl
  · have hpos : positive? createdAt = some ⟨createdAt, Nat.pos_of_ne_zero hzero⟩ := dif_pos _
    rw [hpos]
    rfl

/-! ## Automation -/

theorem asciiLower_of_isBoardIdUnit {u : UInt16} (h : isBoardIdUnit u = true) : u < 128 ∧ asciiLower u = u := by
  simp only [isBoardIdUnit, isDigit, Bool.or_eq_true, Bool.and_eq_true, decide_eq_true_eq,
    UInt16.le_iff_toNat_le, ← UInt16.toNat_inj] at h
  have hrange : ¬(65 ≤ u ∧ u ≤ 90) := by
    simp only [UInt16.le_iff_toNat_le]
    simp at h ⊢
    omega
  refine ⟨?_, if_neg hrange⟩
  rw [UInt16.lt_iff_toNat_lt]
  simp at h ⊢
  omega

theorem exists_normalizeWorkspace_raw (workspace : WorkboardWorkspace) (fallback : Option WorkboardWorkspace) :
    ∃ read, normalizeWorkspace (.object workspace.raw) fallback = .ok read := by
  obtain ⟨kind, path, branch, absolute⟩ := workspace
  simp only [normalizeWorkspace, WorkboardWorkspace.raw, some_or, exists_normalizeBoundedString_rawBounded, pure,
    Except.pure, bind, Except.bind]
  split_ifs with hpath
  · exact ⟨_, rfl⟩
  · refine absurd (fun hdir => ?_) hpath
    have habsolute := absolute hdir
    cases path with
    | none => cases habsolute
    | some path => exact habsolute

theorem present_ne_empty (a : WorkboardAutomation) : a.present ≠ some .empty := by
  unfold WorkboardAutomation.present
  split_ifs with hempty
  · nofun
  · exact fun h => hempty (some.inj h)

section Automation

variable [LowerCase]

theorem toLowerCase_boardId (b : BoardId) : toLowerCase b.val.val.text = b.val.val.text := by
  have hunits := fun u hu => asciiLower_of_isBoardIdUnit (isBoardIdUnit_of_mem b.property u hu)
  rw [LowerCase.ascii _ fun u hu => (hunits u hu).1]
  exact (map_congr_left fun u hu => (hunits u hu).2).trans (map_id _)

@[simp] theorem normalizeBoardId_raw (b : BoardId) (fallback : Option BoardId) :
    normalizeBoardId b.val.val.raw fallback = .ok (some b) := by
  have hid : isBoardId (toLowerCase b.val.val.text) = true := (toLowerCase_boardId b).symm ▸ b.property
  have hof : BoardId.of (toLowerCase b.val.val.text) hid = b :=
    Subtype.ext (Subtype.ext (NonBlank.ext_text (toLowerCase_boardId b)))
  simp only [normalizeBoardId, normalizeBoundedString_raw, pure, Except.pure, bind, Except.bind, dif_pos hid, hof]

theorem exists_normalizeAutomation_raw (a : WorkboardAutomation) (summary : Option (Bounded 2000))
    {createdCardIds : Option Unknown}
    (hcreated : createdCardIds = none ∨ ∃ l : StringList 120, createdCardIds = some (rawList l.val))
    (fallback : Option WorkboardAutomation) :
    ∃ read, normalizeAutomation (some { a.raw with summary := rawBounded summary, createdCardIds }) fallback =
      .ok read ∧ read ≠ some .empty := by
  obtain ⟨boardId, hboardId⟩ : ∃ read, (a.boardId.map (·.val.val.raw)).elim (.ok (fallback.getD .empty).boardId)
      (fun value => normalizeBoardId value (fallback.getD .empty).boardId) = .ok read := by
    cases a.boardId with
    | none => exact ⟨_, rfl⟩
    | some b => exact ⟨_, normalizeBoardId_raw b _⟩
  obtain ⟨skills, hskills⟩ : ∃ read, (if a.skills.val = [] then none else some (rawList a.skills.val)).elim
      (.ok (fallback.getD .empty).skills) (fun value => normalizeStringList value (js "skills")) = .ok read := by
    split_ifs with hnil
    · exact ⟨_, rfl⟩
    · exact ⟨_, normalizeStringList_rawList a.skills _⟩
  obtain ⟨created, hcreated⟩ : ∃ read, createdCardIds.elim (.ok (fallback.getD .empty).createdCardIds)
      (fun value => normalizeStringList value (js "created card ids")) = .ok read := by
    rcases hcreated with rfl | ⟨l, rfl⟩
    · exact ⟨_, rfl⟩
    · exact ⟨_, normalizeStringList_rawList l _⟩
  have hnumber : ∀ (n old : Option Positive) (fieldName : JsString),
      ∃ read, (n.map (rawNumber ·.val)).elim (.ok old) (fun value => normalizePositiveInteger value fieldName) =
        .ok read := by
    intro n old fieldName
    cases n with
    | none => exact ⟨_, rfl⟩
    | some n => exact ⟨_, normalizePositiveInteger_rawPositive (some n) fieldName⟩
  obtain ⟨runtime, hruntime⟩ :=
    hnumber a.maxRuntimeSeconds (fallback.getD .empty).maxRuntimeSeconds (js "max runtime seconds")
  obtain ⟨retries, hretries⟩ := hnumber a.maxRetries (fallback.getD .empty).maxRetries (js "max retries")
  obtain ⟨workspace, hworkspace⟩ : ∃ read, (a.workspace.map (Field.object ·.raw)).elim
      (.ok (fallback.getD .empty).workspace) (fun value => normalizeWorkspace value (fallback.getD .empty).workspace) =
        .ok read := by
    cases a.workspace with
    | none => exact ⟨_, rfl⟩
    | some workspace => exact exists_normalizeWorkspace_raw workspace _
  simp only [normalizeAutomation, WorkboardAutomation.raw, exists_normalizeBoundedString_rawBounded, hboardId, hskills,
    hcreated, hruntime, hretries, hworkspace]
  exact ⟨_, rfl, present_ne_empty _⟩

theorem normalizeAutomation_self {automation : Option WorkboardAutomation} (h : automation ≠ some .empty) :
    normalizeAutomation (automation.map (·.raw)) automation = .ok automation := by
  cases automation with
  | none => rfl
  | some a =>
    have hpresent : a.present = some a := if_neg fun hempty => h (congrArg some hempty)
    obtain ⟨tenant, boardId, createdByCardId, idempotencyKey, skills, workspace, maxRuntimeSeconds, maxRetries,
      scheduledAt, summary, createdCardIds, dispatchCount, lastDispatchAt⟩ := a
    have hboardId : (boardId.map (·.val.val.raw)).elim (ok boardId)
        (fun value => normalizeBoardId value boardId) = .ok boardId := by
      cases boardId with
      | none => rfl
      | some b => exact normalizeBoardId_raw b _
    have hlist : ∀ {limit : ℕ} (l : StringList limit) (fieldName : JsString),
        (if l.val = [] then none else some (rawList l.val)).elim (.ok l)
          (fun value => normalizeStringList value fieldName) = .ok l := by
      intro limit l fieldName
      split_ifs with hnil
      · rfl
      · exact normalizeStringList_rawList l fieldName
    have hnumber : ∀ (n : Option Positive) (fieldName : JsString),
        (n.map (rawNumber ·.val)).elim (.ok n) (fun value => normalizePositiveInteger value fieldName) = .ok n := by
      intro n fieldName
      cases n with
      | none => rfl
      | some n => exact normalizePositiveInteger_rawPositive (some n) fieldName
    have hworkspace : (workspace.map (Field.object ·.raw)).elim (ok workspace)
        (fun value => normalizeWorkspace value workspace) = .ok workspace := by
      cases workspace with
      | none => rfl
      | some workspace => exact normalizeWorkspace_raw workspace
    have htime : ∀ n : Option Positive, ownTimestamp (n.map (rawNumber ·.val)) n = n := by
      intro n
      cases n with
      | none => rfl
      | some n => simp [ownTimestamp]
    simp only [map_some, normalizeAutomation, WorkboardAutomation.raw, getD_some,
      normalizeBoundedString_fallback, hboardId, hlist, hnumber, hworkspace, htime]
    exact congrArg ok hpresent

end Automation

/-- The limits of the lists. -/
structure WorkboardMetadata.Fits (m : WorkboardMetadata) : Prop where
  attempts : m.attempts.length ≤ MAX_CARD_ATTEMPTS
  comments : m.comments.length ≤ MAX_CARD_COMMENTS
  links : m.links.length ≤ MAX_CARD_LINKS
  proof : m.proof.length ≤ MAX_CARD_PROOF
  artifacts : m.artifacts.length ≤ MAX_CARD_ARTIFACTS
  attachments : m.attachments.length ≤ MAX_CARD_ATTACHMENTS
  workerLogs : m.workerLogs.length ≤ MAX_CARD_WORKER_LOGS
  diagnostics : m.diagnostics.length ≤ MAX_CARD_DIAGNOSTICS
  notifications : m.notifications.length ≤ MAX_CARD_NOTIFICATIONS

/-- Metadata that can be read. -/
structure WorkboardMetadata.Legible (m : WorkboardMetadata) : Prop where
  attempts : ∀ a ∈ m.attempts, a.startedAt ≠ 0 → a.Within
  notifications : ∀ n ∈ m.notifications, n.Within

/-- Metadata that reads as itself, but for the budget. -/
structure WorkboardMetadata.Clean (m : WorkboardMetadata) : Prop where
  fits : m.Fits
  attempts : ∀ a ∈ m.attempts, a.Clean
  notifications : ∀ n ∈ m.notifications, n.Within
  workerLogs : ∀ l ∈ m.workerLogs, l.createdAt ≠ 0
  automation : m.automation ≠ some .empty

theorem WorkboardMetadata.Agrees.clean {m m' : WorkboardMetadata} (h : m.Agrees m') (hclean : m.Clean) : m'.Clean where
  fits := {
    attempts := h.attempts.length_le.trans hclean.fits.attempts
    comments := h.comments.length_le.trans hclean.fits.comments
    links := h.links.length_le.trans hclean.fits.links
    proof := h.proof.length_le.trans hclean.fits.proof
    artifacts := h.artifacts.length_le.trans hclean.fits.artifacts
    attachments := h.attachments.length_le.trans hclean.fits.attachments
    workerLogs := h.workerLogs.length_le.trans hclean.fits.workerLogs
    diagnostics := h.diagnostics.length_le.trans hclean.fits.diagnostics
    notifications := h.notifications.length_le.trans hclean.fits.notifications }
  attempts a ha := hclean.attempts a (h.attempts.subset ha)
  notifications n hn := hclean.notifications n (h.notifications.subset hn)
  workerLogs l hl := hclean.workerLogs l (h.workerLogs.subset hl)
  automation := h.automation ▸ hclean.automation

/-! ## Reading it -/

theorem rtake_suffix {α : Type} (l : List α) (n : ℕ) : l.rtake n <:+ l := drop_suffix _ _

theorem length_rtake_le {α : Type} (l : List α) (n : ℕ) : (l.rtake n).length ≤ n := by
  rw [rtake, length_drop]
  omega

theorem collect_zipIdx {α ρ : Type} {read : ρ × ℕ → Except JsString (Option α)} {raw : α → ρ} {items : List α}
    (h : ∀ a ∈ items, ∀ i, read (raw a, i) = .ok (some a)) (start : ℕ) :
    collect read ((items.map raw).zipIdx start) = .ok items := by
  induction items generalizing start with
  | nil => rfl
  | cons a items ih =>
    obtain ⟨ha, hitems⟩ := forall_mem_cons.mp h
    rw [map_cons, zipIdx_cons, collect_cons_eq_ok]
    exact ⟨some a, items, ha start, ih hitems (start + 1), rfl⟩

section Lists

variable (m fallback : WorkboardMetadata) (fresh : ℕ → NonBlank) (now : ℕ)

theorem normalizeLinks_raw : normalizeLinks m.raw.links fallback.links true = .ok (m.links.rtake MAX_CARD_LINKS) := by
  simp only [raw, normalizeLinks, collect_raw normalizeLink_raw]
  rfl

theorem normalizeArtifacts_raw : normalizeList (fun entry => normalizeArtifact entry.1 (fresh entry.2) now)
    MAX_CARD_ARTIFACTS fallback.artifacts (m.raw.artifacts.map (·.zipIdx)) =
      .ok (m.artifacts.rtake MAX_CARD_ARTIFACTS) := by
  simp only [raw, map_some, normalizeList]
  rw [collect_zipIdx fun a _ i => normalizeArtifact_raw a (fresh i) now]
  rfl

variable {m}

theorem normalizeNotifications_raw (h : ∀ n ∈ m.notifications, n.Within) : normalizeList
    (fun entry => normalizeNotification entry.1 (fresh ((m.raw.artifacts.getD []).length + entry.2)) now)
    MAX_CARD_NOTIFICATIONS fallback.notifications (m.raw.notifications.map (·.zipIdx)) =
      .ok (m.notifications.rtake MAX_CARD_NOTIFICATIONS) := by
  have hraw : m.raw.notifications = some (m.notifications.map (·.raw)) := rfl
  rw [hraw, map_some, normalizeList, collect_zipIdx fun n hn i => normalizeNotification_raw_of_within (h n hn) _ now]
  rfl

end Lists

section Platform

variable [Platform]

theorem exists_normalizeMetadata {m fallback : WorkboardMetadata} (h : m.Legible)
    (hautomation : m.automation = none → fallback.automation ≠ some .empty) (fresh : ℕ → NonBlank) (now : ℕ) :
    ∃ base, normalizeMetadata (.object m.raw) fallback true fresh now = .ok (trimMetadataToBudget base) ∧
      base.Clean := by
  have hattempts : normalizeList normalizeAttempt MAX_CARD_ATTEMPTS fallback.attempts m.raw.attempts =
      .ok ((m.attempts.filterMap (·.reread)).rtake MAX_CARD_ATTEMPTS) := by
    simp only [raw, normalizeList]
    rw [collect_map fun a ha => normalizeAttempt_raw (h.attempts a ha)]
    rfl
  have hlogs : normalizeList normalizeWorkerLog MAX_CARD_WORKER_LOGS fallback.workerLogs m.raw.workerLogs =
      .ok ((m.workerLogs.filterMap fun l => if l.createdAt = 0 then none else some l).rtake MAX_CARD_WORKER_LOGS) := by
    simp only [raw, normalizeList]
    rw [collect_map fun l _ => normalizeWorkerLog_raw l]
    rfl
  obtain ⟨protocol, hprotocol⟩ : ∃ read, m.raw.workerProtocol.elim (.ok fallback.workerProtocol) (fun record =>
      normalizeWorkerProtocol record fallback.workerProtocol now) = .ok read := by
    simp only [raw]
    cases m.workerProtocol with
    | none => exact ⟨_, rfl⟩
    | some p =>
      simp only [map_some, elim_some, normalizeWorkerProtocol, WorkboardWorkerProtocol.raw,
        some_or, exists_normalizeBoundedString_rawBounded]
      exact ⟨_, rfl⟩
  obtain ⟨automation, hread, hempty⟩ : ∃ read, normalizeAutomation m.raw.automation fallback.automation = .ok read ∧
      read ≠ some .empty := by
    simp only [raw]
    cases hm : m.automation with
    | none => exact ⟨_, rfl, hautomation hm⟩
    | some a =>
      refine exists_normalizeAutomation_raw a a.summary ?_ fallback.automation
      split_ifs
      · exact .inl rfl
      · exact .inr ⟨a.createdCardIds, rfl⟩
  obtain ⟨claim, hclaim⟩ : ∃ read, normalizeClaimEntry m.raw.claim fallback.claim now = .ok read := by
    simp only [raw]
    cases m.claim with
    | none => exact ⟨_, rfl⟩
    | some c =>
      simp only [elim_some, normalizeClaimEntry, normalizeClaim, WorkboardClaim.raw, normalizeBoundedString_raw,
        normalizeTimestamp_rawNumber, positive?_val]
      exact ⟨_, rfl⟩
  obtain ⟨stale, hstale⟩ : ∃ read, normalizeStale m.raw.stale fallback.stale now = .ok read := by
    simp only [raw]
    cases m.stale with
    | none => exact ⟨_, rfl⟩
    | some stale =>
      simp only [map_some, normalizeStale, normalizeBoundedString_raw]
      exact ⟨_, rfl⟩
  refine ⟨{
    attempts := (m.attempts.filterMap (·.reread)).rtake MAX_CARD_ATTEMPTS
    comments := m.comments.rtake MAX_CARD_COMMENTS
    links := m.links.rtake MAX_CARD_LINKS
    proof := m.proof.rtake MAX_CARD_PROOF
    artifacts := m.artifacts.rtake MAX_CARD_ARTIFACTS
    attachments := m.attachments.rtake MAX_CARD_ATTACHMENTS
    workerLogs := (m.workerLogs.filterMap fun l => if l.createdAt = 0 then none else some l).rtake MAX_CARD_WORKER_LOGS
    workerProtocol := protocol
    automation, claim, stale
    diagnostics := m.diagnostics.rtake MAX_CARD_DIAGNOSTICS
    notifications := m.notifications.rtake MAX_CARD_NOTIFICATIONS
    templateId := m.raw.templateId.or fallback.templateId
    archivedAt := ownTimestamp m.raw.archivedAt fallback.archivedAt
    lifecycleStatusSourceUpdatedAt := m.raw.lifecycleStatusSourceUpdatedAt.elim
      fallback.lifecycleStatusSourceUpdatedAt fun value => some (normalizeTimestamp value 0)
    failureCount := normalizeTimestamp m.raw.failureCount fallback.failureCount }, ?_, ?_⟩
  · simp only [normalizeMetadata, bind_eq_ok]
    exact ⟨_, normalizeLinks_raw m fallback, _, hattempts, _, normalizeList_raw normalizeComment_raw _ _ _, _,
      normalizeList_raw normalizeProof_raw _ _ _, _, normalizeArtifacts_raw m fallback fresh now, _,
      normalizeList_raw normalizeAttachment_raw _ _ _, _, hlogs, _, hprotocol, _, hread, _, hclaim, _,
      normalizeList_raw (normalizeDiagnostic_raw · now) _ _ _, _,
      normalizeNotifications_raw fallback fresh now h.notifications, _, hstale, rfl⟩
  · exact {
      fits := ⟨length_rtake_le _ _, length_rtake_le _ _, length_rtake_le _ _, length_rtake_le _ _, length_rtake_le _ _,
        length_rtake_le _ _, length_rtake_le _ _, length_rtake_le _ _, length_rtake_le _ _⟩
      attempts := fun b hb => by
        obtain ⟨a, ha, hab⟩ := mem_filterMap.mp ((rtake_suffix _ _).subset hb)
        exact clean_of_mem_reread (h.attempts a ha) hab
      notifications := fun n hn => h.notifications n ((rtake_suffix _ _).subset hn)
      workerLogs := fun l hl => by
        obtain ⟨l', -, hl'⟩ := mem_filterMap.mp ((rtake_suffix _ _).subset hl)
        split_ifs at hl' with hzero
        exact some.inj hl' ▸ hzero
      automation := hempty }

theorem legible_of_normalizeMetadata {m fallback next : WorkboardMetadata} {allow : Bool} {fresh : ℕ → NonBlank}
    {now : ℕ} (h : normalizeMetadata (.object m.raw) fallback allow fresh now = .ok next) : m.Legible := by
  obtain ⟨base, hbase, -⟩ := normalizeMetadata_object h
  constructor
  · intro a ha hstarted
    obtain ⟨read, hread, -⟩ := bind_eq_ok.mp hbase.attempts
    obtain ⟨first, hfirst⟩ := ok_of_collect hread (mem_map_of_mem ha)
    exact within_of_normalizeAttempt hfirst hstarted
  · intro n hn
    obtain ⟨read, hread, -⟩ := bind_eq_ok.mp hbase.notifications
    obtain ⟨i, hi, hget⟩ := mem_iff_getElem.mp (mem_map_of_mem (f := (·.raw)) hn)
    have hmem : (n.raw, i) ∈ (m.notifications.map (·.raw)).zipIdx :=
      List.mem_zipIdx_iff_getElem?.mpr (List.getElem?_eq_some_iff.mpr ⟨hi, hget⟩)
    obtain ⟨first, hfirst⟩ := ok_of_collect hread hmem
    exact within_of_normalizeNotification hfirst

/-- The text of the metadata gets shorter when an entry goes. -/
def SizesShrink : Prop :=
  ∀ m : WorkboardMetadata, dropNext m ≠ m → metadataByteSize (dropNext m) < metadataByteSize m

theorem trimWithin_trimmed (hsizes : SizesShrink) (passes : ℕ) (m : WorkboardMetadata)
    (h : metadataByteSize m ≤ passes) :
    metadataByteSize (trimWithin passes m) ≤ MAX_CARD_METADATA_BYTES ∨
      dropNext (trimWithin passes m) = trimWithin passes m := by
  rcases trimWithin_stops passes m h with hfits | ⟨before, hbefore, hshorter⟩
  · exact .inl hfits
  · have hsame : dropNext before = before := by
      by_contra hne
      exact absurd (hsizes before hne) (not_lt.mpr hshorter)
    exact .inr (by rw [hbefore, hsame, hsame])

theorem trim_trimMetadataToBudget (hsizes : SizesShrink) (m : WorkboardMetadata) :
    trimMetadataToBudget (trimMetadataToBudget m) = trimMetadataToBudget m := by
  have hstays : ∀ (passes : ℕ) (t : WorkboardMetadata),
      metadataByteSize t ≤ MAX_CARD_METADATA_BYTES ∨ dropNext t = t → trimWithin passes t = t := by
    intro passes t ht
    cases passes with
    | zero => rfl
    | succ passes =>
      rw [trimWithin]
      rcases ht with hfits | hsame
      · exact if_pos hfits
      · split_ifs with hfits hshorter
        · rfl
        · exact hsame
        · exact absurd (by rw [hsame]) hshorter
  exact hstays _ _ (trimWithin_trimmed hsizes _ m le_rfl)

/-- `normalizeMetadata({ ...metadata }, metadata)` is the metadata. -/
def SelfRead (m : WorkboardMetadata) : Prop :=
  ∀ (fresh : ℕ → NonBlank) (now : ℕ), normalizeMetadata (.object m.raw) m true fresh now = .ok m

theorem selfRead_of_clean {m : WorkboardMetadata} (h : m.Clean) (htrimmed : trimMetadataToBudget m = m) :
    SelfRead m := by
  intro fresh now
  have hlinks := (normalizeLinks_raw m m).trans (congrArg ok (rtake_eq_self h.fits.links))
  have hattempts : normalizeList normalizeAttempt MAX_CARD_ATTEMPTS m.attempts m.raw.attempts = .ok m.attempts := by
    simp only [raw, normalizeList]
    rw [collect_map fun a ha => (normalizeAttempt_raw fun _ => (h.attempts a ha).toWithin).trans
      (congrArg ok (h.attempts a ha).reread), filterMap_some]
    exact congrArg ok (rtake_eq_self h.fits.attempts)
  have hartifacts := (normalizeArtifacts_raw m m fresh now).trans (congrArg ok (rtake_eq_self h.fits.artifacts))
  have hlogs : normalizeList normalizeWorkerLog MAX_CARD_WORKER_LOGS m.workerLogs m.raw.workerLogs =
      .ok m.workerLogs := by
    simp only [raw, normalizeList]
    rw [collect_map fun l hl => (normalizeWorkerLog_raw l).trans
      (congrArg ok (if_neg (h.workerLogs l hl))), filterMap_some]
    exact congrArg ok (rtake_eq_self h.fits.workerLogs)
  have hprotocol : m.raw.workerProtocol.elim (.ok m.workerProtocol) (fun record =>
      normalizeWorkerProtocol record m.workerProtocol now) = .ok m.workerProtocol := by
    simp only [raw]
    cases m.workerProtocol with
    | none => rfl
    | some p => exact normalizeWorkerProtocol_raw p now
  have hclaim : normalizeClaimEntry m.raw.claim m.claim now = .ok m.claim := by
    simp only [raw]
    cases m.claim with
    | none => rfl
    | some c =>
      obtain ⟨ownerId, token, claimedAt, lastHeartbeatAt, expiresAt⟩ := c
      cases expiresAt with
      | some expiresAt => exact normalizeClaim_raw _ _ now rfl
      | none =>
        simp [normalizeClaimEntry, normalizeClaim, WorkboardClaim.raw, pure, Except.pure, bind, Except.bind]
  have hnotifications := (normalizeNotifications_raw m fresh now h.notifications).trans
    (congrArg Except.ok (rtake_eq_self h.fits.notifications))
  have hstale : normalizeStale m.raw.stale m.stale now = .ok m.stale := by
    simp only [raw]
    cases m.stale with
    | none => rfl
    | some stale =>
      simp [normalizeStale, pure, Except.pure, bind, Except.bind]
  have hlist : ∀ {α ρ : Type} {read : ρ → Except JsString (Option α)} {raw : α → ρ} {limit : ℕ} {items : List α},
      (∀ a, read (raw a) = .ok (some a)) → items.length ≤ limit →
        normalizeList read limit items (some (items.map raw)) = .ok items := fun hread hlength =>
    (normalizeList_raw hread _ _ _).trans (congrArg ok (rtake_eq_self hlength))
  simp only [normalizeMetadata, bind_eq_ok]
  refine ⟨_, hlinks, _, hattempts, _, hlist normalizeComment_raw h.fits.comments, _,
    hlist normalizeProof_raw h.fits.proof, _, hartifacts, _, hlist normalizeAttachment_raw h.fits.attachments, _, hlogs,
    _, hprotocol, _, normalizeAutomation_self h.automation, _, hclaim, _,
    hlist (normalizeDiagnostic_raw · now) h.fits.diagnostics, _, hnotifications, _, hstale, ?_⟩
  have hfields : (⟨m.attempts, m.comments, m.links, m.proof, m.artifacts, m.attachments, m.workerLogs, m.workerProtocol,
      m.automation, m.claim, m.diagnostics, m.notifications, m.raw.templateId.or m.templateId,
      ownTimestamp m.raw.archivedAt m.archivedAt, m.stale, m.raw.lifecycleStatusSourceUpdatedAt.elim
        m.lifecycleStatusSourceUpdatedAt fun value => some (normalizeTimestamp value 0),
      normalizeTimestamp m.raw.failureCount m.failureCount⟩ : WorkboardMetadata) = m := by
    obtain ⟨attempts, comments, links, proof, artifacts, attachments, workerLogs, workerProtocol, automation, claim,
      diagnostics, notifications, templateId, archivedAt, stale, lifecycle, failureCount⟩ := m
    cases templateId <;> cases archivedAt <;> cases lifecycle <;> simp [raw, ownTimestamp]
  refine congrArg ok (Eq.trans ?_ htrimmed)
  exact congrArg trimMetadataToBudget hfields

end Platform

end ClawWorks.Workboard
