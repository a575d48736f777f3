import ClawWorks.Workboard.SureUpdates

/-!
# Input that is accepted

The operations that end a run, hold a claim or add a comment check their own arguments (`CardCall.Accepted`) and then
write the card. The write copies texts of the card and of the arguments into runs and notifications, which have limits
of their own (`CardCall.Legible`), and follows the execution record with a run that nothing checks (`CardCall.Fits`).
-/

namespace ClawWorks.Workboard

open World Mutation List Platform

/-- The operations on one card that end its run, hold its claim or add a comment. -/
inductive CardCall
  | addComment (id : JsString) (body : Unknown) (scope : Option WorkboardMutationScope)
  | heartbeat (id : JsString) (input : WorkboardHeartbeatInput)
  | releaseClaim (id : JsString) (input : WorkboardReleaseInput)
  | recordProtocolViolation (id : JsString) (input : WorkboardProtocolViolationInput)
      (scope : Option WorkboardMutationScope)
  | complete (id : JsString) (input : WorkboardCompleteInput) (scope : Option (Option WorkboardMutationScope))
  | block (id : JsString) (input : WorkboardBlockInput) (scope : Option (Option WorkboardMutationScope))
  | reclaim (id : JsString) (input : WorkboardReclaimInput) (scope : Option WorkboardMutationScope)

def CardCall.cardId : CardCall → JsString
  | .addComment id .. | .heartbeat id .. | .releaseClaim id .. | .recordProtocolViolation id .. | .complete id ..
  | .block id .. | .reclaim id .. => id

def reclaimStatus (c : WorkboardCard) (status : Option (Choice WorkboardStatus)) : Except JsString WorkboardStatus :=
  match status with
  | none => .ok (if c.status = .running then .ready else c.status)
  | some value => normalizeStatus value c.status

/-! ## The limits of the records a call writes -/

/-- Every run of the card can be read after the call, with the reason in those that the call ends. -/
def EndsWithin (c : WorkboardCard) (reason : Option NonBlank) : Prop :=
  ∀ a ∈ c.metadata.attempts, a.startedAt ≠ 0 → (∀ t ∈ a.model, t.text.length ≤ 160) ∧
    ∀ t ∈ (if a.status = .running then reason.or a.error else a.error), t.text.length ≤ 800

/-- The notifications that the card keeps can be read, and so can the new one. -/
def NotifiesWithin (c : WorkboardCard) (sessionKey runId : Option NonBlank) : Prop :=
  (∀ n ∈ c.metadata.notifications.rtake (MAX_CARD_NOTIFICATIONS - 1), n.Within) ∧
    (∀ t ∈ sessionKey, t.text.length ≤ 240) ∧ ∀ t ∈ runId, t.text.length ≤ 120

/-- The texts that the call copies into runs and notifications are within the limits of these. -/
def CardCall.Legible (c : WorkboardCard) : CardCall → Prop
  | .addComment .. | .heartbeat .. | .releaseClaim .. => c.metadata.Legible
  | .recordProtocolViolation _ input _ =>
      EndsWithin c (some ((normalizeOptionalString input.detail).getD violationText)) ∧
        NotifiesWithin c ((normalizeOptionalString input.sessionKey).or (cardSessionKey c))
          ((normalizeOptionalString input.runId).or (cardRunId c))
  | .complete .. => EndsWithin c none ∧ NotifiesWithin c (cardSessionKey c) (cardRunId c)
  | .block _ input _ => EndsWithin c (some ((normalizeOptionalString input.reason).getD blockedText)) ∧
      NotifiesWithin c (cardSessionKey c) (cardRunId c)
  | .reclaim _ input _ => EndsWithin c (some ((normalizeOptionalString input.reason).getD reclaimedText)) ∧
      ∀ n ∈ c.metadata.notifications, n.Within

/-- The run that follows the execution record is within its limits; an automation record that is there is not empty. -/
def CardCall.Fits (c : WorkboardCard) : CardCall → Prop
  | .reclaim .. => ∀ e ∈ c.execution, e.status ≠ .running → e.Fits
  | .complete .. => (∀ e ∈ c.execution, e.Fits) ∧ c.metadata.automation ≠ some .empty
  | _ => ∀ e ∈ c.execution, e.Fits

variable {w : World} {id : JsString} {c : WorkboardCard} {patch : WorkboardCardPatch}

theorem map_normalizeBoundedString {limit : ℕ} {value : Unknown} {fieldName : JsString}
    {read : Option (Bounded limit)} (h : normalizeBoundedString value none fieldName = .ok read) :
    normalizeOptionalString value = read.map (·.val) := by
  unfold normalizeBoundedString at h
  cases hvalue : normalizeOptionalString value with
  | none =>
    rw [hvalue] at h
    rw [← Except.ok.inj h]
    rfl
  | some t =>
    rw [hvalue] at h
    dsimp only at h
    split_ifs at h
    rw [← Except.ok.inj h]
    rfl

theorem legible_iff {m : WorkboardMetadata} : m.Legible ↔
    (∀ a ∈ m.attempts, a.startedAt ≠ 0 → a.Within) ∧ ∀ n ∈ m.notifications, n.Within :=
  ⟨fun h => ⟨h.attempts, h.notifications⟩, fun h => ⟨h.1, h.2⟩⟩

theorem closeRunningAttempts_within {now : ℕ} {status : WorkboardAttemptStatus} {reason : Option NonBlank} :
    (∀ a ∈ closeRunningAttempts c.metadata.attempts now status reason, a.startedAt ≠ 0 → a.Within) ↔
      EndsWithin c reason := by
  simp only [closeRunningAttempts, forall_mem_map, EndsWithin]
  refine forall₂_congr fun a _ => ?_
  split_ifs with hrunning
  · exact forall_congr' fun _ => ⟨fun h => ⟨h.model, h.error⟩, fun h => ⟨h.2, h.1⟩⟩
  · exact forall_congr' fun _ => ⟨fun h => ⟨h.model, h.error⟩, fun h => ⟨h.2, h.1⟩⟩

theorem withNotification_within {m : WorkboardMetadata} (hm : m.notifications = c.metadata.notifications)
    {n : WorkboardNotification} {sessionKey runId : Option NonBlank} (hsessionKey : n.sessionKey = sessionKey)
    (hrunId : n.runId = runId) :
    (∀ n' ∈ (withNotification m n).notifications, n'.Within) ↔ NotifiesWithin c sessionKey runId := by
  have hlist : (withNotification m n).notifications =
      c.metadata.notifications.rtake (MAX_CARD_NOTIFICATIONS - 1) ++ [n] := by
    simp only [withNotification, hm]
    exact rtake_concat_succ _ _ _
  rw [hlist, forall_mem_append, forall_mem_singleton]
  refine and_congr Iff.rfl ?_
  rw [← hsessionKey, ← hrunId]
  exact ⟨fun h => ⟨h.sessionKey, h.runId⟩, fun h => ⟨h.1, h.2⟩⟩

theorem fits_endedExecution {status : WorkboardExecutionStatus} {now : ℕ}
    (hpatch : patch.execution = endedExecution c.execution status now) (hsessionKey : patch.sessionKey = .undefined)
    (h : ∀ e ∈ c.execution, e.Fits) (fresh : NonBlank) (readAt : ℕ) :
    ∀ e ∈ patchExecution c patch fresh readAt, e.Fits := by
  intro e he
  cases hc : c.execution with
  | none =>
    simp only [patchExecution, hpatch, hc, endedExecution, hsessionKey, if_true] at he
    cases he
  | some old =>
    simp only [patchExecution, hpatch, hc, endedExecution, normalizeExecution_raw] at he
    obtain rfl := Option.some.inj he
    have hold := h old hc
    split_ifs
    · exact ⟨hold.model, hold.started⟩
    · exact hold

theorem fits_kept (hpatch : patch.execution = .undefined) (hsessionKey : patch.sessionKey = .undefined)
    (h : ∀ e ∈ c.execution, e.Fits) (fresh : NonBlank) (readAt : ℕ) :
    ∀ e ∈ patchExecution c patch fresh readAt, e.Fits := by
  simp only [patchExecution, hpatch, hsessionKey, if_true]
  exact h

theorem requireMine_eq {scope : Option WorkboardMutationScope} (hc : w.card id = some c)
    (hmine : assertCanMutateClaimedCard c scope = .ok ()) : requireMine id scope w = (.ok c, w) := by
  have hcard : requireCard id w = (.ok c, w) := by
    unfold requireCard
    rw [hc]
  refine (bind_eq_of_ok hcard _).trans ?_
  exact bind_eq_of_ok (show lift (assertCanMutateClaimedCard c scope) w = (.ok (), w) by
    rw [hmine]; rfl) _

theorem lift_eq {α : Type} {result : Except JsString α} {a : α} (h : result = .ok a) :
    (lift result : Step α) w = (.ok a, w) := by
  rw [h]
  rfl

section Platform

variable [Platform]

def CardCall.run : CardCall → Step WorkboardCard
  | .addComment id body scope => Workboard.addComment id body scope
  | .heartbeat id input => Workboard.heartbeat id input
  | .releaseClaim id input => Workboard.releaseClaim id input
  | .recordProtocolViolation id input scope => Workboard.recordProtocolViolation id input scope
  | .complete id input scope => Workboard.complete id input scope
  | .block id input scope => Workboard.block id input scope
  | .reclaim id input scope => Workboard.reclaim id input scope

/-- The dependencies and the schedule allow the status whenever the call reads the clock. -/
def AllowedFrom (w : World) (c : WorkboardCard) (status : WorkboardStatus) : Prop :=
  ∀ n, w.reads ≤ n → Allowed w c status (clock n)

/-- The call passes the checks of its operation: its arguments, its credentials, the status it asks for. -/
def CardCall.Accepted (w : World) (c : WorkboardCard) : CardCall → Prop
  | .addComment _ body scope => assertCanMutateClaimedCard c scope = .ok () ∧
      ∃ text : Bounded 2000, normalizeBoundedString body none (js "comment body") = .ok (some text)
  | .heartbeat _ input =>
      (∃ note : Option (Bounded 400), normalizeBoundedString input.note none (js "heartbeat note") = .ok note) ∧
        ∃ claim, c.metadata.claim = some claim ∧ assertHoldsClaim claim input.token input.ownerId = .ok ()
  | .releaseClaim _ input =>
      (∀ claim, c.metadata.claim = some claim → assertHoldsClaim claim input.token input.ownerId = .ok ()) ∧
        ∃ status, statusOr c input.status = .ok status ∧ (input.status.isSome = true → AllowedFrom w c status)
  | .recordProtocolViolation _ input scope => assertCanMutateClaimedCard c scope = .ok () ∧
      ∃ (detail : Option (Bounded 800)) (sessionKey : Option (Bounded 240)) (runId : Option (Bounded 160)),
        normalizeBoundedString input.detail none (js "protocol violation detail") = .ok detail ∧
        normalizeBoundedString input.sessionKey none (js "session key") = .ok sessionKey ∧
        normalizeBoundedString input.runId none (js "run id") = .ok runId
  | .complete _ input scope =>
      assertCanMutateClaimedCard c (scopeOr scope ⟨input.ownerId, input.token⟩) = .ok () ∧
        (∃ createdCardIds : StringList 120, normalizeStringList input.createdCardIds (js "created card ids") =
          .ok createdCardIds ∧ createdCardIds.val.forM (checkCreatedCard w c) = .ok ()) ∧
        (∃ summary : Option (Bounded 2000), normalizeBoundedString input.summary none (js "summary") = .ok summary) ∧
        (∀ proof ∈ input.proof, ∀ id now, ∃ read, normalizeProofInput proof id now = .ok read) ∧
        (∀ artifact ∈ input.artifacts, ∀ fresh now,
          ∃ read, normalizeArtifact { artifact with createdAt := rawNumber now } fresh now = .ok read) ∧
        AllowedFrom w c .done
  | .block _ input scope =>
      assertCanMutateClaimedCard c (scopeOr scope ⟨input.ownerId, input.token⟩) = .ok () ∧
        ∃ reason : Option (Bounded 2000), normalizeBoundedString input.reason none (js "block reason") = .ok reason
  | .reclaim _ input scope => assertCanMutateClaimedCard c scope = .ok () ∧
      (∃ reason, normalizeReason input.reason (js "reclaim reason") = .ok reason) ∧
        ∃ status, reclaimStatus c input.status = .ok status ∧ AllowedFrom w c status

/-- The call succeeds, and leaves metadata that reads as itself. -/
def CardCall.Settles (call : CardCall) (w : World) : Prop :=
  call.run.Ensures w (fun next left => left.card call.cardId = some next ∧ SelfRead next.metadata) fun _ => False


theorem exists_withNote (m : WorkboardMetadata) (note : Option (Bounded 2000)) (now : Positive) (w : World) :
    ∃ comments left, withNote m note now w = (.ok { m with comments }, left) ∧ Calm w left := by
  cases note with
  | none => exact ⟨m.comments, w, rfl, .refl w⟩
  | some body => exact ⟨_, _, rfl, .drawn w 1⟩

theorem exists_notify (kind : WorkboardNotificationKind) (message : Bounded 240) (sessionKey runId : Option NonBlank)
    (now : ℕ) (w : World) : ∃ n left, notify kind message sessionKey runId now w = (.ok n, left) ∧ Calm w left ∧
      n.sessionKey = sessionKey ∧ n.runId = runId :=
  ⟨_, _, rfl, ⟨rfl, rfl, rfl, le_rfl, Nat.le_succ _, (Nat.le_succ _).trans (le_max_left _ _)⟩, rfl, rfl⟩


/-! ## What a call writes -/

/-- The update that a call ends with, from the state `left` on. -/
structure CardCall.Writes (call : CardCall) (w : World) (c : WorkboardCard) (left : World) (id : JsString)
    (patch : WorkboardCardPatch) (options : UpdateOptions) (m : WorkboardMetadata) : Prop where
  calm : Calm w left
  run : call.run w = updateCard id patch options left ∨ ∃ now, call.run w =
    (updateCard id patch options >>= fun updated => promoteDependencyReady updated.id.val.text now) left
  card : ∀ world : World, world.card id = world.card call.cardId
  spreads : Spreads c patch m
  dependencyLinks : options.allowMetadataDependencyLinks = true
  automation : call.Fits c → m.automation = none → c.metadata.automation ≠ some .empty
  legible : m.Legible ↔ call.Legible c
  fits : call.Fits c → ∀ fresh now, ∀ e ∈ patchExecution c patch fresh now, e.Fits
  allowed : options.enforceStatusHolds = true → ∀ status, patch.status = some (.member status) → AllowedFrom w c status

/-- What a call that passes its checks writes. -/
def CardCall.Ends (call : CardCall) (w : World) (c : WorkboardCard) : Prop :=
  ∃ left id patch options m, call.Writes w c left id patch options m

omit [Platform] in
theorem ne_empty_of_none {automation : Option WorkboardAutomation} (h : automation = none) :
    automation ≠ some .empty := by
  rw [h]
  nofun

omit [Platform] in
theorem requireCard_eq (hc : w.card id = some c) : requireCard id w = (.ok c, w) := by
  unfold requireCard
  rw [hc]

variable {scope : Option WorkboardMutationScope}

section

variable (hc : w.card id = some c)

include hc

theorem writes_addComment {body : Unknown} (haccepted : (CardCall.addComment id body scope).Accepted w c) :
    (CardCall.addComment id body scope).Ends w c := by
  obtain ⟨hmine, text, htext⟩ := haccepted
  have hcalm : Calm w { w with reads := w.reads + 1, minted := w.minted + 1 } := (Calm.ticked w).trans (.drawn _ 1)
  let m := withComment c.metadata ⟨(uuid w.minted).val, text, ⟨clock w.reads, clock_pos _⟩, none⟩
  refine ⟨{ w with reads := w.reads + 1, minted := w.minted + 1 }, id, { metadata := .object m.raw }, {}, m, ?_⟩
  exact {
    calm := hcalm
    run := by
      refine .inl ((bind_eq_of_ok rfl _).trans ((bind_eq_of_ok (lift_eq htext) _).trans ?_))
      refine (bind_eq_of_ok rfl _).trans ?_
      refine (bind_eq_of_ok (requireCard_eq ((hcalm.card id).trans hc)) _).trans ?_
      exact bind_eq_of_ok ((bind_eq_of_ok (lift_eq hmine) _).trans rfl) _
    card := fun _ => rfl
    spreads := ⟨{ status := .inl rfl }, rfl, rfl, rfl, .inl rfl⟩
    dependencyLinks := rfl
    automation := fun _ => ne_empty_of_none
    legible := legible_iff.trans (legible_iff (m := c.metadata)).symm
    fits := fun h => fits_kept rfl rfl h
    allowed := nofun }

theorem writes_heartbeat {input : WorkboardHeartbeatInput}
    (haccepted : (CardCall.heartbeat id input).Accepted w c) : (CardCall.heartbeat id input).Ends w c := by
  obtain ⟨⟨note, hnote⟩, claim, hclaim, hholds⟩ := haccepted
  obtain ⟨comments, left, hnoted, hcalm⟩ := exists_withNote (clearDiagnostics c.metadata [.runningWithoutHeartbeat])
    (note.map (Bounded.widen · (by decide))) (beatTime claim ⟨clock w.reads, clock_pos _⟩)
    { w with reads := w.reads + 1 }
  let m := { clearDiagnostics c.metadata [.runningWithoutHeartbeat] with
    comments, claim := some (beat claim (beatTime claim ⟨clock w.reads, clock_pos _⟩)) }
  refine ⟨left, id, { metadata := .object m.raw }, {}, m, ?_⟩
  exact {
    calm := (Calm.ticked w).trans hcalm
    run := by
      refine .inl ((bind_eq_of_ok (lift_eq hnote) _).trans ?_)
      refine (bind_eq_of_ok (requireCard_eq hc) _).trans ?_
      refine bind_eq_of_ok ?_ _
      dsimp only
      rw [hclaim]
      refine (bind_eq_of_ok rfl _).trans ((bind_eq_of_ok (lift_eq hholds) _).trans ?_)
      exact (bind_eq_of_ok hnoted _).trans rfl
    card := fun _ => rfl
    spreads := ⟨{ status := .inl rfl }, rfl, rfl, rfl, .inl rfl⟩
    dependencyLinks := rfl
    automation := fun _ => ne_empty_of_none
    legible := legible_iff.trans (legible_iff (m := c.metadata)).symm
    fits := fun h => fits_kept rfl rfl h
    allowed := nofun }

theorem writes_releaseClaim {input : WorkboardReleaseInput}
    (haccepted : (CardCall.releaseClaim id input).Accepted w c) : (CardCall.releaseClaim id input).Ends w c := by
  obtain ⟨hholds, status, hstatus, hallowed⟩ := haccepted
  have hclaim : (c.metadata.claim.elim (.ok ()) fun claim => assertHoldsClaim claim input.token input.ownerId) =
      .ok () := by
    cases hc : c.metadata.claim with
    | none => rfl
    | some claim => exact hholds claim hc
  let m := { c.metadata with claim := none }
  refine ⟨w, id, { status := some (.member status), metadata := .object m.raw },
    { enforceStatusHolds := input.status.isSome }, m, ?_⟩
  exact {
    calm := .refl w
    run := by
      refine .inl ((bind_eq_of_ok (requireCard_eq hc) _).trans ?_)
      refine (bind_eq_of_ok (lift_eq hstatus) _).trans ?_
      exact (bind_eq_of_ok (lift_eq hclaim) _).trans rfl
    card := fun _ => rfl
    spreads := ⟨{ status := .inr ⟨status, rfl⟩ }, rfl, rfl, rfl, .inl rfl⟩
    dependencyLinks := rfl
    automation := fun _ => ne_empty_of_none
    legible := legible_iff.trans (legible_iff (m := c.metadata)).symm
    fits := fun h => fits_kept rfl rfl h
    allowed := fun henforce status' hstatus' => by
      cases hstatus'
      exact hallowed henforce }

theorem writes_recordProtocolViolation {input : WorkboardProtocolViolationInput}
    (haccepted : (CardCall.recordProtocolViolation id input scope).Accepted w c) :
    (CardCall.recordProtocolViolation id input scope).Ends w c := by
  obtain ⟨hmine, detail, sessionKey, runId, hdetail, hsessionKey, hrunId⟩ := haccepted
  let now : Positive := ⟨clock w.reads, clock_pos _⟩
  let text : Bounded 800 := detail.getD (fixed _ "Worker stopped without completing or blocking the card." (by decide))
  let log : WorkboardWorkerLog := ⟨(uuid w.minted).val, .error, text, now.val, sessionKey, runId⟩
  obtain ⟨n, left, hnotify, hcalm, hkey, hrun⟩ := exists_notify .failed (capMessage text.val)
    ((sessionKey.map (·.val)).or (cardSessionKey c)) ((runId.map (·.val)).or (cardRunId c)) now.val
    { w with reads := w.reads + 1, minted := w.minted + 1 }
  let m := { withNotification (withWorkerLog c.metadata log) n with
    workerProtocol := some { state := .violated, updatedAt := now.val, detail := some text }
    claim := none
    attempts := closeRunningAttempts c.metadata.attempts now.val .blocked (some text.val)
    failureCount := c.metadata.failureCount + 1 }
  have htext : text.val = (normalizeOptionalString input.detail).getD violationText := by
    rw [map_normalizeBoundedString hdetail]
    cases detail <;> rfl
  refine ⟨left, c.id.val.text, {
    status := some (.member (if c.status = .done then c.status else .blocked))
    execution := endedExecution c.execution .blocked now.val
    metadata := .object m.raw }, {}, m, ?_⟩
  exact {
    calm := ((Calm.ticked w).trans (.drawn _ 1)).trans hcalm
    run := by
      refine .inl ((bind_eq_of_ok (requireMine_eq hc hmine) _).trans ?_)
      refine (bind_eq_of_ok rfl _).trans ((bind_eq_of_ok (lift_eq hdetail) _).trans ?_)
      refine (bind_eq_of_ok (lift_eq hsessionKey) _).trans ?_
      refine (bind_eq_of_ok (lift_eq hrunId) _).trans ((bind_eq_of_ok rfl _).trans ?_)
      exact bind_eq_of_ok hnotify _
    card := fun _ => card_of_card hc
    spreads := ⟨{ status := .inr ⟨_, rfl⟩ }, rfl, rfl, rfl, .inl rfl⟩
    dependencyLinks := rfl
    automation := fun _ => ne_empty_of_none
    legible := by
      refine legible_iff.trans (and_congr ?_ ?_)
      · rw [← htext]
        exact closeRunningAttempts_within
      · rw [map_normalizeBoundedString hsessionKey, map_normalizeBoundedString hrunId]
        exact withNotification_within rfl hkey hrun
    fits := fun h => fits_endedExecution rfl rfl h
    allowed := nofun }

theorem writes_block {input : WorkboardBlockInput} {scope : Option (Option WorkboardMutationScope)}
    (haccepted : (CardCall.block id input scope).Accepted w c) : (CardCall.block id input scope).Ends w c := by
  obtain ⟨hmine, reason, hreason⟩ := haccepted
  let now : Positive := ⟨clock w.reads, clock_pos _⟩
  let text : Bounded 2000 := reason.getD (fixed _ "Workboard card blocked." (by decide))
  obtain ⟨n, notified, hnotify, hcalm, hkey, hrun⟩ := exists_notify .failed (capMessage text.val) (cardSessionKey c)
    (cardRunId c) now.val { w with reads := w.reads + 1 }
  obtain ⟨comments, left, hnoted, hcalm'⟩ := exists_withNote c.metadata (some text) now notified
  let m := { withNotification { c.metadata with comments } n with
    claim := none
    attempts := closeRunningAttempts c.metadata.attempts now.val .blocked (some text.val)
    failureCount := c.metadata.failureCount + 1 }
  have htext : text.val = (normalizeOptionalString input.reason).getD blockedText := by
    rw [map_normalizeBoundedString hreason]
    cases reason <;> rfl
  refine ⟨left, id, {
    status := some (.member .blocked)
    execution := endedExecution c.execution .blocked now.val
    metadata := .object m.raw }, {}, m, ?_⟩
  exact {
    calm := ((Calm.ticked w).trans hcalm).trans hcalm'
    run := by
      refine .inl ((bind_eq_of_ok (requireMine_eq hc hmine) _).trans ?_)
      refine (bind_eq_of_ok rfl _).trans ((bind_eq_of_ok (lift_eq hreason) _).trans ?_)
      exact (bind_eq_of_ok hnotify _).trans (bind_eq_of_ok hnoted _)
    card := fun _ => rfl
    spreads := ⟨{ status := .inr ⟨_, rfl⟩ }, rfl, rfl, rfl, .inl rfl⟩
    dependencyLinks := rfl
    automation := fun _ => ne_empty_of_none
    legible := by
      refine legible_iff.trans (and_congr ?_ (withNotification_within rfl hkey hrun))
      rw [← htext]
      exact closeRunningAttempts_within
    fits := fun h => fits_endedExecution rfl rfl h
    allowed := nofun }

def reclaimedExecution (c : WorkboardCard) : Field RawExecution :=
  match c.execution with
  | none => .undefined
  | some execution => if execution.status = .running then .notObject else .object execution.raw

theorem writes_reclaim {input : WorkboardReclaimInput} (haccepted : (CardCall.reclaim id input scope).Accepted w c) :
    (CardCall.reclaim id input scope).Ends w c := by
  obtain ⟨hmine, ⟨reason, hreason⟩, status, hstatus, hallowed⟩ := haccepted
  let now : Positive := ⟨clock w.reads, clock_pos _⟩
  let text : Bounded 1000 := reason.getD (fixed _ "Workboard claim reclaimed." (by decide))
  obtain ⟨comments, left, hnoted, hcalm⟩ := exists_withNote c.metadata (some (Bounded.widen text (by decide))) now
    { w with reads := w.reads + 1 }
  let m := { c.metadata with
    comments, claim := none
    attempts := closeRunningAttempts c.metadata.attempts now.val .stopped (some text.val)
    stale := none }
  have htext : text.val = (normalizeOptionalString input.reason).getD reclaimedText := by
    rw [map_normalizeBoundedString hreason]
    cases reason <;> rfl
  refine ⟨left, id, {
    status := some (.member status)
    execution := reclaimedExecution c
    metadata := .object m.raw }, { enforceStatusHolds := true }, m, ?_⟩
  exact {
    calm := (Calm.ticked w).trans hcalm
    run := by
      refine .inr ⟨now.val, (bind_eq_of_ok (requireMine_eq hc hmine) _).trans ?_⟩
      refine (bind_eq_of_ok rfl _).trans ((bind_eq_of_ok (lift_eq hreason) _).trans ?_)
      exact (bind_eq_of_ok (lift_eq hstatus) _).trans (bind_eq_of_ok hnoted _)
    card := fun _ => rfl
    spreads := ⟨{ status := .inr ⟨_, rfl⟩ }, rfl, rfl, rfl, .inl rfl⟩
    dependencyLinks := rfl
    automation := fun _ => ne_empty_of_none
    legible := by
      refine legible_iff.trans (and_congr ?_ Iff.rfl)
      rw [← htext]
      exact closeRunningAttempts_within
    fits := fun h fresh readAt e he => by
      cases hexecution : c.execution with
      | none =>
        simp only [patchExecution, reclaimedExecution, hexecution, if_true] at he
        cases he
      | some execution =>
        simp only [patchExecution, reclaimedExecution, hexecution] at he
        split_ifs at he with hrunning
        · cases he
        · simp only [normalizeExecution_raw] at he
          obtain rfl := Option.some.inj he
          exact h _ hexecution hrunning
    allowed := fun _ status' hstatus' => by
      cases hstatus'
      exact hallowed }

end

theorem exists_inputProof {input : Option WorkboardProofInput} (now : Positive)
    (h : ∀ proof ∈ input, ∀ id now, ∃ read, normalizeProofInput proof id now = .ok read) (w : World) :
    ∃ proof left, inputProof input now w = (.ok proof, left) ∧ Calm w left := by
  cases input with
  | none => exact ⟨none, w, rfl, .refl w⟩
  | some proof =>
    obtain ⟨read, hread⟩ := h proof rfl (uuid w.minted).val now
    refine ⟨some read, _, ?_, .drawn w 1⟩
    exact (bind_eq_of_ok rfl _).trans ((bind_eq_of_ok (lift_eq hread) _).trans rfl)

theorem writes_complete {input : WorkboardCompleteInput} {scope : Option (Option WorkboardMutationScope)}
    (hc : w.card id = some c) (haccepted : (CardCall.complete id input scope).Accepted w c) :
    (CardCall.complete id input scope).Ends w c := by
  obtain ⟨hmine, ⟨created, hcreated, hlinked⟩, ⟨summary, hsummary⟩, hproof, hartifacts, hallowed⟩ := haccepted
  let now : Positive := ⟨clock w.reads, clock_pos _⟩
  obtain ⟨proof, proved, hproved, hcalm⟩ := exists_inputProof now hproof { w with reads := w.reads + 1 }
  obtain ⟨artifacts, hcollect⟩ : ∃ artifacts, Except.collect (fun entry => normalizeArtifact
      { entry.1 with createdAt := rawNumber now.val } (uuid (proved.minted + entry.2)).val now.val)
        input.artifacts.zipIdx = .ok artifacts :=
    Except.exists_collect fun entry hentry =>
      hartifacts entry.1 (fst_mem_of_mem_zipIdx hentry) (uuid (proved.minted + entry.2)).val now.val
  obtain ⟨n, notified, hnotify, hcalm', hkey, hrun⟩ := exists_notify .completed
    ((summary.map fun summary => capMessage summary.val).getD (fixed _ "Workboard card completed." (by decide)))
    (cardSessionKey c) (cardRunId c) now.val { proved with minted := proved.minted + input.artifacts.length }
  obtain ⟨automation, hautomation, -⟩ := exists_normalizeAutomation_raw (c.metadata.automation.getD .empty) summary
    (.inr ⟨created, rfl⟩) c.metadata.automation
  obtain ⟨comments, left, hnoted, hcalm''⟩ :=
    exists_withNote (clearDiagnostics c.metadata [.missingProof]) summary now notified
  let proven := withArtifacts (proof.elim { clearDiagnostics c.metadata [.missingProof] with comments }
    (withProof { clearDiagnostics c.metadata [.missingProof] with comments })) (artifacts.rtake MAX_CARD_ARTIFACTS)
  have hproven : proven.links = c.metadata.links ∧ proven.notifications = c.metadata.notifications ∧
      proven.lifecycleStatusSourceUpdatedAt = c.metadata.lifecycleStatusSourceUpdatedAt := by
    cases proof <;> exact ⟨rfl, rfl, rfl⟩
  let m := { withNotification proven n with
    claim := none
    attempts := closeRunningAttempts c.metadata.attempts now.val .succeeded none
    failureCount := 0
    automation }
  refine ⟨left, id, {
    status := some (.member .done)
    execution := endedExecution c.execution .done now.val
    metadata := .object m.raw }, { enforceStatusHolds := true }, m, ?_⟩
  exact {
    calm := ((((Calm.ticked w).trans hcalm).trans (.drawn _ input.artifacts.length)).trans hcalm').trans hcalm''
    run := by
      refine .inl ((bind_eq_of_ok (requireMine_eq hc hmine) _).trans ?_)
      refine (bind_eq_of_ok rfl _).trans ((bind_eq_of_ok (lift_eq hcreated) _).trans ?_)
      refine (bind_eq_of_ok rfl _).trans ((bind_eq_of_ok (lift_eq hlinked) _).trans ?_)
      refine (bind_eq_of_ok (lift_eq hsummary) _).trans ((bind_eq_of_ok hproved _).trans ?_)
      refine (bind_eq_of_ok rfl _).trans ((bind_eq_of_ok (lift_eq hcollect) _).trans ?_)
      refine (bind_eq_of_ok hnotify _).trans ((bind_eq_of_ok (lift_eq hautomation) _).trans ?_)
      exact bind_eq_of_ok hnoted _
    card := fun _ => rfl
    spreads := ⟨{ status := .inr ⟨_, rfl⟩ }, rfl, hproven.2.2, hproven.1, .inr rfl⟩
    dependencyLinks := rfl
    automation := fun h _ => h.2
    legible := legible_iff.trans
      (and_congr closeRunningAttempts_within (withNotification_within hproven.2.1 hkey hrun))
    fits := fun h => fits_endedExecution rfl rfl h.1
    allowed := fun _ status' hstatus' => by
      cases hstatus'
      exact hallowed }

variable {call : CardCall}

theorem CardCall.exists_writes (hc : w.card call.cardId = some c) (h : call.Accepted w c) : call.Ends w c := by
  cases call with
  | addComment => exact writes_addComment hc h
  | heartbeat => exact writes_heartbeat hc h
  | releaseClaim => exact writes_releaseClaim hc h
  | recordProtocolViolation => exact writes_recordProtocolViolation hc h
  | complete => exact writes_complete hc h
  | block => exact writes_block hc h
  | reclaim => exact writes_reclaim hc h

/-- **A call within the limits** of the records it writes succeeds, and leaves metadata that reads as itself. -/
theorem CardCall.settles (htakes : TakesWrites) (hsizes : SizesShrink)
    (hc : w.card call.cardId = some c) (haccepted : call.Accepted w c) (hlegible : call.Legible c)
    (hfits : call.Fits c) : call.Settles w := by
  obtain ⟨left, id, patch, options, m, hwrites⟩ := exists_writes hc haccepted
  have hcard : left.card id = some c := (hwrites.calm.card id).trans ((hwrites.card w).trans hc)
  have hallowed : options.enforceStatusHolds → ∀ status, patch.status = some (.member status) →
      Allowed left c status (clock left.reads) := fun henforce status hstatus =>
    (hwrites.allowed henforce status hstatus _ hwrites.calm.reads).next hwrites.calm.cards rfl
      (List.Subset.refl _) (.inr rfl)
  have hupdate := hwrites.spreads.sure htakes hsizes hcard hwrites.dependencyLinks
    (hwrites.legible.mpr hlegible) (hwrites.automation hfits) (fun fresh => hwrites.fits hfits fresh _) hallowed
  have hlast : ∀ (next : WorkboardCard) (after : World), after.card id = some next ∧ Keeps next →
      after.card call.cardId = some next ∧ SelfRead next.metadata := fun next after h =>
    ⟨(hwrites.card after).symm.trans h.1, selfRead_of_clean h.2.clean h.2.trimmed⟩
  unfold CardCall.Settles Mutation.Ensures
  rcases hwrites.run with hrun | ⟨now, hrun⟩
  · rw [hrun]
    exact hupdate.mono hlast fun _ h => h
  · rw [hrun]
    refine ensures_bind hupdate fun next after h => ?_
    exact (sure_promoteDependencyReady htakes hsizes ((card_of_card h.1).trans h.1) h.2 now).mono
      (fun last left' h' => hlast last left' ⟨(card_of_card h.1).symm.trans h'.1, h'.2⟩) fun _ h => h

theorem CardCall.legible_of_settles (hc : w.card call.cardId = some c)
    (haccepted : call.Accepted w c) (h : call.Settles w) : call.Legible c := by
  obtain ⟨left, id, patch, options, m, hwrites⟩ := exists_writes hc haccepted
  have hcard : left.card id = some c := (hwrites.calm.card id).trans ((hwrites.card w).trans hc)
  refine hwrites.legible.mp ?_
  unfold CardCall.Settles Mutation.Ensures at h
  rcases hwrites.run with hrun | ⟨now, hrun⟩
  · rw [hrun] at h
    exact legible_of_updateCard hcard hwrites.spreads.effective hwrites.spreads.metadata h
  · rw [hrun] at h
    exact legible_of_updateCard hcard hwrites.spreads.effective hwrites.spreads.metadata (ensures_bind_iff.mp h)

/-- **A call that passes its checks**, on any card of any run: within the limits of the records it writes it succeeds
and leaves metadata that reads as itself, and where it succeeds the records are legible. -/
theorem accepted_input_settles (htakes : TakesWrites) (hsizes : SizesShrink) (run : List Operation) (call : CardCall)
    (hc : (initial.after run).card call.cardId = some c)
    (haccepted : call.Accepted (initial.after run) c) :
    (call.Legible c → call.Fits c → call.Settles (initial.after run)) ∧
      (call.Settles (initial.after run) → call.Legible c) :=
  ⟨fun hlegible hfits => CardCall.settles htakes hsizes hc haccepted hlegible hfits,
    CardCall.legible_of_settles hc haccepted⟩

end Platform

/-! ## A card that cannot be blocked -/

section Sample

/-- The number of entries, as a size. -/
def entryCount (m : WorkboardMetadata) : ℕ :=
  m.attempts.length + m.comments.length + m.links.length + m.proof.length + m.artifacts.length + m.attachments.length +
    m.workerLogs.length + m.diagnostics.length + m.notifications.length

@[reducible] def counting : Platform :=
  { sample with metadataByteSize := entryCount }

attribute [local instance] counting
attribute [local irreducible] CardCall.Settles

theorem takesWrites_counting : TakesWrites := fun _ _ => rfl

theorem length_tail_lt {α : Type} {l : List α} (h : l ≠ []) : l.tail.length < l.length := by
  rw [length_tail]
  exact Nat.sub_lt (length_pos_iff.mpr h) one_pos

theorem entryCount_dropNext (m : WorkboardMetadata) : entryCount (dropNext m) < entryCount m ∨ dropNext m = m := by
  unfold dropNext
  split_ifs with hattempts hdiagnostics hnotifications hproof hartifacts hattachments hlogs hlinks
  · have hshorter := length_tail_lt hattempts
    exact .inl (by unfold entryCount; dsimp only; omega)
  · have hshorter := length_tail_lt hdiagnostics
    exact .inl (by unfold entryCount; dsimp only; omega)
  · have hshorter := length_tail_lt hnotifications
    exact .inl (by unfold entryCount; dsimp only; omega)
  · have hshorter := length_tail_lt hproof
    exact .inl (by unfold entryCount; dsimp only; omega)
  · have hshorter := length_tail_lt hartifacts
    exact .inl (by unfold entryCount; dsimp only; omega)
  · have hshorter := length_tail_lt hattachments
    exact .inl (by unfold entryCount; dsimp only; omega)
  · have hshorter := length_tail_lt hlogs
    exact .inl (by unfold entryCount; dsimp only; omega)
  · have hshorter : (dropFirstNonDependencyLink m.links).length ≤ m.links.length := eraseP_sublist.length_le
    exact .inl (by unfold entryCount; dsimp only; omega)
  · by_cases hcomments : m.comments = []
    · exact .inr (by rw [hcomments, tail_nil, ← hcomments])
    · have hshorter := length_tail_lt hcomments
      exact .inl (by unfold entryCount; dsimp only; omega)

theorem sizesShrink_counting : SizesShrink := fun m hdropped => (entryCount_dropNext m).resolve_right hdropped

def longSessionKey : List Operation :=
  [.create { title := .string (js "Fix"), sessionKey := .string (replicate 241 115) } none]

def shortSessionKey : List Operation :=
  [.create { title := .string (js "Fix"), sessionKey := .string (js "main") } none]

def blockCall : CardCall :=
  .block (js "a") ⟨.undefined, .undefined, .string (js "stuck")⟩ none

theorem accepted_blockCall {w : World} {c : WorkboardCard} (hclaim : c.metadata.claim = none) :
    blockCall.Accepted w c := by
  have hreason : normalizeBoundedString (.string (js "stuck")) none (js "block reason") =
      .ok (some (fixed 2000 "stuck" (by decide))) := by decide
  refine ⟨?_, _, hreason⟩
  simp only [scopeOr, Option.getD_none, assertCanMutateClaimedCard, hclaim]

/-- A card that was never run, with short keys. -/
def isFresh (c : WorkboardCard) : Bool :=
  c.metadata.claim.isNone && c.metadata.attempts.isEmpty && c.metadata.notifications.isEmpty && c.execution.isNone &&
    c.runId.isNone && c.sessionKey.all (·.text.length ≤ 240)

theorem within_of_isFresh {c : WorkboardCard} (h : isFresh c) :
    c.metadata.claim = none ∧ blockCall.Legible c ∧ blockCall.Fits c := by
  simp only [isFresh, Bool.and_eq_true, Option.isNone_iff_eq_none, List.isEmpty_iff, Option.all_eq_true] at h
  obtain ⟨⟨⟨⟨⟨hclaim, hattempts⟩, hnotifications⟩, hexecution⟩, hrunId⟩, hkey⟩ := h
  refine ⟨hclaim, ⟨?_, ?_, ?_, ?_⟩, ?_⟩
  · rw [EndsWithin, hattempts]
    exact fun _ ha => absurd ha List.not_mem_nil
  · rw [hnotifications]
    exact fun _ hn => absurd hn List.not_mem_nil
  · rw [cardSessionKey, hexecution, Option.bind_none, Option.or_none]
    exact fun t ht => of_decide_eq_true (hkey t ht)
  · rw [cardRunId, hexecution, hrunId]
    nofun
  · show ∀ e ∈ c.execution, e.Fits
    rw [hexecution]
    nofun

theorem accepted_input_settles_shortSessionKey :
    ∃ c, (initial.after shortSessionKey).card blockCall.cardId = some c ∧
      blockCall.Settles (initial.after shortSessionKey) := by
  have hcard : ((initial.after shortSessionKey).card blockCall.cardId).any isFresh = true := by decide
  obtain ⟨c, hc, hfresh⟩ := (Option.any_eq_true _ _).mp hcard
  have hwithin := within_of_isFresh hfresh
  have hsettles := accepted_input_settles takesWrites_counting sizesShrink_counting shortSessionKey blockCall hc
    (accepted_blockCall hwithin.1)
  exact ⟨c, hc, hsettles.1 hwithin.2.1 hwithin.2.2⟩

set_option maxRecDepth 10000 in
/-- **An accepted call may fail**: the session key of the card does not fit the notification. -/
theorem accepted_input_fails : ∃ c, (initial.after longSessionKey).card blockCall.cardId = some c ∧
    blockCall.Accepted (initial.after longSessionKey) c ∧
      ¬blockCall.Settles (initial.after longSessionKey) := by
  have hcard : ((initial.after longSessionKey).card blockCall.cardId).any (fun c => c.metadata.claim.isNone &&
      c.sessionKey.any (240 < ·.text.length)) = true := by decide
  obtain ⟨c, hc, hfields⟩ := (Option.any_eq_true _ _).mp hcard
  obtain ⟨hclaim, hkey⟩ := (Bool.and_eq_true _ _).mp hfields
  have haccepted : blockCall.Accepted (initial.after longSessionKey) c :=
    accepted_blockCall (Option.isNone_iff_eq_none.mp hclaim)
  refine ⟨c, hc, haccepted, fun hsettles => ?_⟩
  obtain ⟨t, ht, hlong⟩ := (Option.any_eq_true _ _).mp hkey
  have hlegible : blockCall.Legible c := CardCall.legible_of_settles hc haccepted hsettles
  have hshort := hlegible.2.2.1 t (by rw [cardSessionKey, ht]; rfl)
  exact absurd (of_decide_eq_true hlong) (not_lt.mpr hshort)

end Sample

end ClawWorks.Workboard
