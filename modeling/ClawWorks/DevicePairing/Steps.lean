import ClawWorks.Lib.Runs
import ClawWorks.DevicePairing.Pairing

/-!
# What an operation can do

- `StateAfter`: runs from the empty store.
-/

namespace ClawWorks.DevicePairing

open KeyedTable List

theorem mem_upsert {κ ρ : Type*} [DecidableEq κ] {key : ρ → κ} {t : KeyedTable key} {row r : ρ} :
    r ∈ t.upsert row ↔ r = row ∨ (r ∈ t ∧ key r ≠ key row) := by
  rw [mem_iff_get?, get?_upsert]
  split
  · rename_i hkey
    rw [Option.some.injEq]
    constructor
    · rintro rfl
      exact .inl rfl
    · rintro (rfl | ⟨-, hne⟩)
      · rfl
      · exact absurd hkey.symm hne
  · rename_i hkey
    rw [← mem_iff_get?]
    constructor
    · intro hr
      exact .inr ⟨hr, fun h => hkey h.symm⟩
    · rintro (rfl | ⟨hr, -⟩)
      · exact absurd rfl hkey
      · exact hr

theorem mem_of_get? {κ ρ : Type*} [DecidableEq κ] {key : ρ → κ} {t : KeyedTable key} {k : κ} {r : ρ}
    (h : t.get? k = some r) : r ∈ t ∧ key r = k := get?_eq_some_iff.mp h

theorem mem_pending_loadState {call : Surroundings} {stored : DevicePairingStateFile}
    {pending : DevicePairingPendingRequest} (h : pending ∈ (loadState call stored).pendingById) :
    pending ∈ stored.pendingById := (mem_deleteWhere.mp h).1

section IssueTokens

variable {entryFor : ℕ → JsString → Option DeviceAuthToken → DeviceAuthToken}

/-- **The tokens after an approval**: a new one for each role, and the others as they were. -/
theorem mem_issueTokens (hrole : ∀ i role existing, (entryFor i role existing).role = role) {roles : List JsString}
    {tokens : KeyedTable DeviceAuthToken.role} {entry : DeviceAuthToken}
    (h : entry ∈ issueTokens entryFor roles tokens) :
    (entry.role ∈ roles ∧ ∃ i existing, entry = entryFor i entry.role existing) ∨
      (entry.role ∉ roles ∧ entry ∈ tokens) := by
  have hfold : ∀ (items : List (JsString × ℕ)) (tokens : KeyedTable DeviceAuthToken.role),
      entry ∈ items.foldl (fun tokens item => tokens.upsert (entryFor item.2 item.1 (tokens.get? item.1))) tokens →
      (entry.role ∈ items.map Prod.fst ∧ ∃ i existing, entry = entryFor i entry.role existing) ∨
        (entry.role ∉ items.map Prod.fst ∧ entry ∈ tokens) := by
    intro items
    induction items with
    | nil => exact fun tokens hmem => .inr ⟨not_mem_nil, hmem⟩
    | cons item items ih =>
      intro tokens hmem
      rw [map_cons, mem_cons]
      rcases ih _ hmem with ⟨hin, hentry⟩ | ⟨hout, hold⟩
      · exact .inl ⟨.inr hin, hentry⟩
      · rcases mem_upsert.mp hold with hnew | ⟨hkept, hne⟩
        · have hitem : entry.role = item.1 := by rw [hnew, hrole]
          exact .inl ⟨.inl hitem, item.2, tokens.get? item.1, by rw [hitem]; exact hnew⟩
        · rw [hrole] at hne
          exact .inr ⟨fun hor => hor.elim hne hout, hkept⟩
  have hroles : roles.zipIdx.map Prod.fst = roles := zipIdx_map_fst 0 roles
  rw [← hroles]
  exact hfold roles.zipIdx tokens h

end IssueTokens

/-! ## Writing a device -/

def withToken (device : PairedDevice) (next : DeviceAuthToken) : PairedDevice :=
  { device with tokens := some ((device.tokens.getD empty).upsert next) }

structure Names (stored : DevicePairingStateFile) (deviceId rawRole : JsString) (device : PairedDevice)
    (role : JsString) : Prop where
  device_mem : device ∈ stored.pairedByDeviceId
  deviceId_eq : device.deviceId = normalizeDeviceId deviceId
  role_eq : normalizeRole (some rawRole) = some role
  approved : role ∈ listApprovedPairedDeviceRoles device

variable {context : DeviceTokenUpdateContext}

theorem names_of_context {call : Surroundings} {stored : DevicePairingStateFile} {deviceId role : JsString}
    (h : resolveDeviceTokenUpdateContext (loadState call stored) deviceId role = some context) :
    Names stored deviceId role context.device context.role ∧ context.tokens = context.device.tokens.getD empty ∧
      context.existing = context.tokens.get? context.role := by
  unfold resolveDeviceTokenUpdateContext at h
  split at h
  · rename_i device role' hdevice hrole
    split at h
    · rename_i happroved
      obtain rfl := Option.some.inj h
      obtain ⟨hmem, hid⟩ := mem_of_get? hdevice
      exact ⟨⟨hmem, hid, hrole, contains_iff_mem.mp happroved⟩, rfl, rfl⟩
    · cases h
  · cases h

def tokenOf (device : PairedDevice) (role : JsString) : Option DeviceAuthToken :=
  (device.tokens.getD empty).get? role

inductive Writes (call : Surroundings) (stored : DevicePairingStateFile) : Operation → PairedDevice → Prop
  | approved {pending : DevicePairingPendingRequest} {options : Option ApproveOptions}
      (hpending : pending ∈ stored.pendingById)
      (hroles : resolveScopeOutsideRequestedRoles (resolveRequestedRoles pending.toDevicePairingRequest)
        (normalizeDeviceAuthScopes pending.scopes) = none)
      (hcaller : (resolveRequestedRoles pending.toDevicePairingRequest).findSome?
        (callerRefusal (options.bind (·.callerScopes)) pending
          (approvalScopesFor pending (stored.pairedByDeviceId.get? pending.deviceId))) = none)
      (hloaded : (loadState call stored).pendingById.get? pending.requestId = some pending) :
      Writes call stored (.approve pending.requestId options)
        (approvedDevice call pending (stored.pairedByDeviceId.get? pending.deviceId) (options.bind (·.accessMetadata)))
  | bootstrapped {pending : DevicePairingPendingRequest} {profile : DeviceBootstrapProfile}
      {accessMetadata : Option DevicePairingAccessMetadata} (hpending : pending ∈ stored.pendingById)
      (hroles : ∀ role ∈ resolveRequestedRoles pending.toDevicePairingRequest,
        role ∈ (mergeRoles [profile.roles]).getD [])
      (hscopes : resolveMissingRequestedScope OPERATOR_ROLE
        ((normalizeDeviceAuthScopes pending.scopes).filter isOperatorScope) (handoffScopes profile) = none)
      (hloaded : (loadState call stored).pendingById.get? pending.requestId = some pending) :
      Writes call stored (.approveBootstrap pending.requestId profile accessMetadata)
        (bootstrapDevice call pending (stored.pairedByDeviceId.get? pending.deviceId) accessMetadata)
  | roleRemoved {deviceId rawRole : JsString} {device : PairedDevice} {role : JsString}
      (hnames : Names stored deviceId rawRole device role)
      (hleft : (listApprovedPairedDeviceRoles device).filter (· ≠ role) ≠ []) :
      Writes call stored (.removeRole deviceId rawRole) (deviceWithoutRole device role)
  | refreshed {deviceId : JsString} {patch : PairedDeviceMetadataPatch} {device : PairedDevice}
      (hdevice : device ∈ stored.pairedByDeviceId) :
      Writes call stored (.updateMetadata deviceId patch) (refreshMetadata device patch)
  | used {params : VerifyDeviceTokenParams} {device : PairedDevice} {entry : DeviceAuthToken}
      (hdevice : device ∈ stored.pairedByDeviceId) (hentry : tokenOf device entry.role = some entry) :
      Writes call stored (.verify params) (markTokenUsed device entry (call.now 1))
  | ensured {params : EnsureDeviceTokenParams} {device : PairedDevice} {role : JsString} {rotatedAtMs : Option ℕ+}
      (hnames : Names stored params.deviceId params.role device role)
      (hscopes : scopesWithinApprovedDeviceBaseline role (normalizeDeviceAuthScopes (some params.scopes))
        (resolveApprovedDeviceScopeBaseline device) = true) :
      Writes call stored (.ensure params) (withToken device
        (buildDeviceAuthToken (call.newToken 0) role (normalizeDeviceAuthScopes (some params.scopes)) params.issuer
          (tokenOf device role) false (call.now 1) rotatedAtMs))
  | rotated {params : RotateDeviceTokenParams} {device : PairedDevice} {role : JsString} {scopes : List JsString}
      (hnames : Names stored params.deviceId params.role device role)
      (hscopes : scopesWithinApprovedDeviceBaseline role scopes (resolveApprovedDeviceScopeBaseline device) = true) :
      Writes call stored (.rotate params) (withToken device
        (buildDeviceAuthToken (call.newToken 0) role scopes none (tokenOf device role) true (call.now 1)
          (some (call.now 1))))
  | revoked {params : RevokeDeviceTokenParams} {device : PairedDevice} {role : JsString} {existing : DeviceAuthToken}
      (hnames : Names stored params.deviceId params.role device role)
      (hexisting : tokenOf device role = some existing) :
      Writes call stored (.revoke params) (withToken device { existing with revokedAtMs := some (call.now 1) })

theorem tokenOf_eq (device : PairedDevice) (role : JsString) :
    tokenOf device role = device.tokens.bind (·.get? role) := by
  unfold tokenOf
  cases device.tokens <;> rfl

theorem tokenOf_withToken {device : PairedDevice} {role : JsString} {token next : DeviceAuthToken}
    (h : tokenOf (withToken device next) role = some token) :
    (role = next.role ∧ token = next) ∨ tokenOf device role = some token := by
  have hupsert : ((device.tokens.getD empty).upsert next).get? role = some token := h
  rw [get?_upsert] at hupsert
  split at hupsert
  · rename_i hkey
    exact .inl ⟨hkey.symm, (Option.some.inj hupsert).symm⟩
  · exact .inr hupsert

section Written

variable {call : Surroundings} {stored : DevicePairingStateFile} {device : PairedDevice}

theorem mem_storeToken {next : DeviceAuthToken} (htokens : context.tokens = context.device.tokens.getD empty)
    (h : device ∈ (storeToken stored context next).pairedByDeviceId) :
    device ∈ stored.pairedByDeviceId ∨ device = withToken context.device next := by
  rcases mem_upsert.mp h with rfl | ⟨hold, -⟩
  · right
    rw [withToken, htokens]
  · exact .inl hold

variable {requestId : JsString} {options : Option ApproveOptions}

theorem mem_approve (h : device ∈ (approveDevicePairing call requestId options stored).2.pairedByDeviceId) :
    device ∈ stored.pairedByDeviceId ∨ Writes call stored (.approve requestId options) device := by
  unfold approveDevicePairing at h
  simp only [] at h
  split at h
  · exact .inl h
  rename_i pending hpending
  obtain ⟨hmem, rfl⟩ := mem_of_get? hpending
  split at h
  · exact .inl h
  rename_i hroles
  split at h
  · exact .inl h
  · rename_i hcaller
    rcases mem_upsert.mp h with rfl | ⟨hold, -⟩
    · exact .inr (.approved (mem_pending_loadState hmem) hroles hcaller hpending)
    · exact .inl hold

variable {accessMetadata : Option DevicePairingAccessMetadata} {profile : DeviceBootstrapProfile}

theorem mem_approveBootstrap
    (h : device ∈ (approveBootstrapDevicePairing call requestId profile accessMetadata stored).2.pairedByDeviceId) :
    device ∈ stored.pairedByDeviceId ∨
      Writes call stored (.approveBootstrap requestId profile accessMetadata) device := by
  unfold approveBootstrapDevicePairing at h
  simp only [] at h
  split at h
  · exact .inl h
  rename_i pending hpending
  obtain ⟨hmem, rfl⟩ := mem_of_get? hpending
  split at h
  · exact .inl h
  rename_i hroles
  split at h
  · exact .inl h
  rename_i hscopes
  rcases mem_upsert.mp h with rfl | ⟨hold, -⟩
  · refine .inr (.bootstrapped (mem_pending_loadState hmem) ?_ hscopes hpending)
    intro role hrole
    simpa using find?_eq_none.mp hroles role hrole
  · exact .inl hold

variable {pending : DevicePairingPendingRequest}

theorem approve_of_checks
    (hroles : resolveScopeOutsideRequestedRoles (resolveRequestedRoles pending.toDevicePairingRequest)
      (normalizeDeviceAuthScopes pending.scopes) = none)
    (hcaller : (resolveRequestedRoles pending.toDevicePairingRequest).findSome?
      (callerRefusal (options.bind (·.callerScopes)) pending
        (approvalScopesFor pending (stored.pairedByDeviceId.get? pending.deviceId))) = none)
    (hloaded : (loadState call stored).pendingById.get? pending.requestId = some pending) :
    (approveDevicePairing call pending.requestId options stored).1 = .approved pending.requestId
      (approvedDevice call pending (stored.pairedByDeviceId.get? pending.deviceId)
        (options.bind (·.accessMetadata))) := by
  have hcaller' : (resolveRequestedRoles pending.toDevicePairingRequest).findSome?
      (callerRefusal (options.bind (·.callerScopes)) pending
        (approvalScopesFor pending ((loadState call stored).pairedByDeviceId.get? pending.deviceId))) = none := hcaller
  simp only [approveDevicePairing, hloaded, hroles, hcaller']
  rfl

theorem approveBootstrap_of_checks
    (hroles : ∀ role ∈ resolveRequestedRoles pending.toDevicePairingRequest,
      role ∈ (mergeRoles [profile.roles]).getD [])
    (hscopes : resolveMissingRequestedScope OPERATOR_ROLE
      ((normalizeDeviceAuthScopes pending.scopes).filter isOperatorScope) (handoffScopes profile) = none)
    (hloaded : (loadState call stored).pendingById.get? pending.requestId = some pending) :
    (approveBootstrapDevicePairing call pending.requestId profile accessMetadata stored).1 =
      .approved pending.requestId
        (bootstrapDevice call pending (stored.pairedByDeviceId.get? pending.deviceId) accessMetadata) := by
  have hnone : (resolveRequestedRoles pending.toDevicePairingRequest).find?
      (fun role => !((mergeRoles [profile.roles]).getD []).contains role) = none := by
    rw [find?_eq_none]
    intro role hrole
    simpa using hroles role hrole
  simp only [approveBootstrapDevicePairing, hloaded, hnone, hscopes]
  rfl

variable {deviceId : JsString}

theorem mem_dropDevice (h : device ∈ (dropDevice (loadState call stored) deviceId).pairedByDeviceId) :
    device ∈ stored.pairedByDeviceId := (mem_deleteWhere.mp h).1

theorem mem_removeDevice (h : device ∈ (removePairedDevice call deviceId stored).2.pairedByDeviceId) :
    device ∈ stored.pairedByDeviceId := by
  unfold removePairedDevice at h
  simp only [] at h
  split at h
  · exact h
  · exact mem_dropDevice h

theorem mem_removeRole {deviceId rawRole : JsString}
    (h : device ∈ (removePairedDeviceRole call deviceId rawRole stored).2.pairedByDeviceId) :
    device ∈ stored.pairedByDeviceId ∨ Writes call stored (.removeRole deviceId rawRole) device := by
  unfold removePairedDeviceRole at h
  simp only [] at h
  split at h
  · rename_i existing role hexisting hrole
    obtain ⟨hmem, hid⟩ := mem_of_get? hexisting
    split at h
    · rename_i happroved
      split at h
      · exact .inl (mem_dropDevice h)
      · rename_i hleft
        rcases mem_upsert.mp h with rfl | ⟨hold, -⟩
        · rw [List.isEmpty_iff] at hleft
          exact .inr (.roleRemoved ⟨hmem, hid, hrole, List.contains_iff_mem.mp happroved⟩ hleft)
        · exact .inl hold
    · exact .inl h
  · exact .inl h

theorem mem_updateMetadata {patch : PairedDeviceMetadataPatch}
    (h : device ∈ (updatePairedDeviceMetadata call deviceId patch stored).2.pairedByDeviceId) :
    device ∈ stored.pairedByDeviceId ∨ Writes call stored (.updateMetadata deviceId patch) device := by
  unfold updatePairedDeviceMetadata at h
  simp only [] at h
  split at h
  · exact .inl h
  · rename_i existing hexisting
    rcases mem_upsert.mp h with rfl | ⟨hold, -⟩
    · exact .inr (.refreshed (mem_of_get? hexisting).1)
    · exact .inl hold

theorem mem_verify [LowerCase] {params : VerifyDeviceTokenParams}
    (h : device ∈ (verifyDeviceToken call params stored).2.pairedByDeviceId) :
    device ∈ stored.pairedByDeviceId ∨ Writes call stored (.verify params) device := by
  unfold verifyDeviceToken at h
  simp only [] at h
  split at h
  · exact .inl h
  rename_i existing hexisting
  split at h
  · exact .inl h
  rename_i role hrole
  split at h
  · exact .inl h
  rename_i entry hentry
  obtain ⟨-, hkey⟩ : entry ∈ existing.tokens.getD empty ∧ entry.role = role :=
    mem_of_get? (by rw [← tokenOf_eq] at hentry; exact hentry)
  subst hkey
  repeat' split at h
  all_goals first
    | exact .inl h
    | rcases mem_upsert.mp h with rfl | ⟨hold, -⟩
      · exact .inr (.used (mem_of_get? hexisting).1 (by rw [tokenOf_eq]; exact hentry))
      · exact .inl hold

theorem mem_ensure {params : EnsureDeviceTokenParams}
    (h : device ∈ (ensureDeviceToken call params stored).2.pairedByDeviceId) :
    device ∈ stored.pairedByDeviceId ∨ Writes call stored (.ensure params) device := by
  unfold ensureDeviceToken at h
  simp only [] at h
  split at h
  · exact .inl h
  rename_i context hcontext
  obtain ⟨hnames, htokens, hexisting⟩ := names_of_context hcontext
  split at h
  · exact .inl h
  rename_i hscopes
  rw [Bool.not_eq_true', Bool.not_eq_false] at hscopes
  split at h
  · exact .inl h
  · rcases mem_storeToken htokens h with hold | rfl
    · exact .inl hold
    · rw [htokens] at hexisting
      rw [hexisting]
      exact .inr (.ensured hnames hscopes)

theorem mem_rotate {params : RotateDeviceTokenParams}
    (h : device ∈ (rotateDeviceToken call params stored).2.pairedByDeviceId) :
    device ∈ stored.pairedByDeviceId ∨ Writes call stored (.rotate params) device := by
  unfold rotateDeviceToken at h
  simp only [] at h
  split at h
  · exact .inl h
  rename_i context hcontext
  obtain ⟨hnames, htokens, hexisting⟩ := names_of_context hcontext
  split at h
  · exact .inl h
  rename_i approvedScopes hbaseline
  split at h
  · exact .inl h
  rename_i hscopes
  rw [Bool.not_eq_true', Bool.not_eq_false, ← hbaseline] at hscopes
  split at h
  · exact .inl h
  · rcases mem_storeToken htokens h with hold | rfl
    · exact .inl hold
    · rw [htokens] at hexisting
      rw [hexisting] at hscopes ⊢
      exact .inr (.rotated hnames hscopes)

theorem mem_revoke {params : RevokeDeviceTokenParams}
    (h : device ∈ (revokeDeviceToken call params stored).2.pairedByDeviceId) :
    device ∈ stored.pairedByDeviceId ∨ Writes call stored (.revoke params) device := by
  unfold revokeDeviceToken at h
  simp only [] at h
  split at h
  · exact .inl h
  rename_i context hcontext
  obtain ⟨hnames, htokens, hexisting⟩ := names_of_context hcontext
  split at h
  · exact .inl h
  rename_i existing hsome
  split at h
  · exact .inl h
  · rcases mem_storeToken htokens h with hold | rfl
    · exact .inl hold
    · rw [htokens, hsome] at hexisting
      exact .inr (.revoked hnames hexisting.symm)

theorem mem_request {req : DevicePairingRequest}
    (h : device ∈ (requestDevicePairing call req stored).2.pairedByDeviceId) :
    device ∈ stored.pairedByDeviceId := by
  unfold requestDevicePairing at h
  simp only [] at h
  split at h <;> exact h

theorem mem_reject (h : device ∈ (rejectDevicePairing call requestId stored).2.pairedByDeviceId) :
    device ∈ stored.pairedByDeviceId := by
  unfold rejectDevicePairing at h
  simp only [] at h
  split at h <;> exact h

end Written

/-- **The devices after an operation**: those that were there, and the one it writes. -/
theorem mem_paired_perform [LowerCase] {stored : DevicePairingStateFile} {step : Step} {device : PairedDevice}
    (h : device ∈ (perform stored step).pairedByDeviceId) :
    device ∈ stored.pairedByDeviceId ∨ Writes step.1 stored step.2 device := by
  obtain ⟨call, operation⟩ := step
  cases operation with
  | request => exact .inl (mem_request h)
  | approve => exact mem_approve h
  | approveBootstrap => exact mem_approveBootstrap h
  | reject => exact .inl (mem_reject h)
  | removeDevice => exact .inl (mem_removeDevice h)
  | removeRole => exact mem_removeRole h
  | updateMetadata => exact mem_updateMetadata h
  | verify => exact mem_verify h
  | ensure => exact mem_ensure h
  | rotate => exact mem_rotate h
  | revoke => exact mem_revoke h

/-! ## Writing a request -/

/-- **How an operation writes a pending request.** -/
inductive Asks (call : Surroundings) (stored : DevicePairingStateFile) :
    Operation → DevicePairingPendingRequest → Prop
  | refreshed {req : DevicePairingRequest} {pending : DevicePairingPendingRequest} {isRepair : Bool}
      (hpending : pending ∈ stored.pendingById) (hcovers : pendingApprovalCoversRequest pending req = true) :
      Asks call stored (.request req) (refreshPendingDevicePairingRequest pending req isRepair)
  | created {req : DevicePairingRequest} {existing : List DevicePairingPendingRequest} {isRepair : Bool} :
      Asks call stored (.request req)
        (buildReplacementRequest call (normalizeDeviceId req.deviceId) isRepair existing req)
  | roleRemoved {deviceId rawRole role : JsString} {pending : DevicePairingPendingRequest}
      (hpending : pending ∈ stored.pendingById) :
      Asks call stored (.removeRole deviceId rawRole) (withoutRole role pending)

theorem single_of_refresh {ρ ι : Type*} {existing : List ρ} {incoming : ι} {canRefresh : ρ → ι → Bool} {single : ρ}
    (h : existing.head?.filter (fun single => existing.length = 1 && canRefresh single incoming) = some single) :
    existing = [single] ∧ canRefresh single incoming := by
  obtain ⟨hhead, hcan⟩ := Option.filter_eq_some_iff.mp h
  rw [Bool.and_eq_true, decide_eq_true_eq] at hcan
  obtain ⟨only, rfl⟩ := length_eq_one_iff.mp hcan.1
  exact ⟨by rw [Option.some.inj hhead], hcan.2⟩

theorem mem_pendingForDevice {state : DevicePairingStateFile} {deviceId : JsString}
    {pending : DevicePairingPendingRequest} :
    pending ∈ pendingForDevice state deviceId ↔ pending ∈ state.pendingById ∧ pending.deviceId = deviceId := by
  rw [pendingForDevice, mem_insertionSort, mem_filter, decide_eq_true_eq]
  rfl

theorem mem_foldl_deleteWhere {ρ : Type*} {requestId : ρ → JsString} {existing : List ρ} {t : KeyedTable requestId}
    {r : ρ} : r ∈ existing.foldl (fun table pending => table.deleteWhere (requestId · = requestId pending)) t ↔
      r ∈ t ∧ ∀ pending ∈ existing, requestId r ≠ requestId pending := by
  induction existing generalizing t with
  | nil => simp
  | cons first existing ih =>
    rw [foldl_cons, ih, mem_deleteWhere, forall_mem_cons, decide_eq_false_iff_not, and_assoc]

section Requested

variable {call : Surroundings} {stored : DevicePairingStateFile} {pending : DevicePairingPendingRequest}

theorem mem_pending_request {req : DevicePairingRequest}
    (h : pending ∈ (requestDevicePairing call req stored).2.pendingById) :
    pending ∈ stored.pendingById ∨ Asks call stored (.request req) pending := by
  unfold requestDevicePairing at h
  simp only [] at h
  split at h
  · exact .inl h
  unfold reconcilePendingPairingRequests at h
  split at h
  · rename_i single hsingle
    obtain ⟨hexisting, hcovers⟩ := single_of_refresh hsingle
    have hmem : single ∈ pendingForDevice (loadState call stored) (normalizeDeviceId req.deviceId) := by
      rw [hexisting]
      exact mem_singleton_self single
    rcases mem_upsert.mp h with rfl | ⟨hold, -⟩
    · exact .inr (.refreshed (mem_pending_loadState (mem_pendingForDevice.mp hmem).1) hcovers)
    · exact .inl (mem_pending_loadState hold)
  · rcases mem_upsert.mp h with rfl | ⟨hold, -⟩
    · exact .inr .created
    · exact .inl (mem_pending_loadState (mem_foldl_deleteWhere.mp hold).1)

variable {requestId : JsString}

theorem mem_pending_settleRequest {device : PairedDevice}
    (h : pending ∈ (settleRequest (loadState call stored) requestId device).pendingById) :
    pending ∈ stored.pendingById :=
  mem_pending_loadState (mem_deleteWhere.mp h).1

theorem mem_pending_approve {options : Option ApproveOptions}
    (h : pending ∈ (approveDevicePairing call requestId options stored).2.pendingById) :
    pending ∈ stored.pendingById := by
  unfold approveDevicePairing at h
  simp only [] at h
  repeat' split at h
  all_goals first
    | exact h
    | exact mem_pending_settleRequest h

theorem mem_pending_approveBootstrap {profile : DeviceBootstrapProfile}
    {accessMetadata : Option DevicePairingAccessMetadata}
    (h : pending ∈ (approveBootstrapDevicePairing call requestId profile accessMetadata stored).2.pendingById) :
    pending ∈ stored.pendingById := by
  unfold approveBootstrapDevicePairing at h
  simp only [] at h
  repeat' split at h
  all_goals first
    | exact h
    | exact mem_pending_settleRequest h

theorem mem_pending_reject
    (h : pending ∈ (rejectDevicePairing call requestId stored).2.pendingById) : pending ∈ stored.pendingById := by
  unfold rejectDevicePairing at h
  simp only [] at h
  split at h
  · exact h
  · exact mem_pending_loadState (mem_deleteWhere.mp h).1

theorem mem_pending_dropDevice {deviceId : JsString}
    (h : pending ∈ (dropDevice (loadState call stored) deviceId).pendingById) :
    pending ∈ stored.pendingById ∧ pending.deviceId ≠ deviceId := by
  obtain ⟨hmem, hne⟩ := mem_deleteWhere.mp h
  exact ⟨mem_pending_loadState hmem, of_decide_eq_false hne⟩

theorem mem_pending_removeDevice {deviceId : JsString}
    (h : pending ∈ (removePairedDevice call deviceId stored).2.pendingById) : pending ∈ stored.pendingById := by
  unfold removePairedDevice at h
  simp only [] at h
  split at h
  · exact h
  · exact (mem_pending_dropDevice h).1

theorem mem_dropPendingRole {pendingById : KeyedTable DevicePairingPendingRequest.requestId} {deviceId role : JsString}
    (h : pending ∈ dropPendingRole pendingById deviceId role) :
    ∃ before ∈ pendingById, pending = before ∨ pending = withoutRole role before := by
  obtain ⟨before, hbefore, hupdate⟩ := (@mem_updateWhere _ _ _ _ _ _ (withoutRole role) fun _ => rfl).mp h
  refine ⟨before, (mem_deleteWhere.mp hbefore).1, ?_⟩
  split at hupdate
  · exact .inr hupdate.symm
  · exact .inl hupdate.symm

theorem mem_pending_removeRole {deviceId rawRole : JsString}
    (h : pending ∈ (removePairedDeviceRole call deviceId rawRole stored).2.pendingById) :
    pending ∈ stored.pendingById ∨ Asks call stored (.removeRole deviceId rawRole) pending := by
  unfold removePairedDeviceRole at h
  simp only [] at h
  split at h
  · rename_i device role hdevice hrole
    split at h
    · split at h
      · exact .inl (mem_pending_dropDevice h).1
      · obtain ⟨before, hbefore, rfl | rfl⟩ := mem_dropPendingRole h
        · exact .inl (mem_pending_loadState hbefore)
        · exact .inr (.roleRemoved (mem_pending_loadState hbefore))
    · exact .inl h
  · exact .inl h

variable (call : Surroundings)

theorem pending_updateMetadata (deviceId : JsString) (patch : PairedDeviceMetadataPatch)
    (stored : DevicePairingStateFile) :
    (updatePairedDeviceMetadata call deviceId patch stored).2.pendingById = stored.pendingById := by
  unfold updatePairedDeviceMetadata
  simp only []
  split <;> rfl

theorem pending_verify [LowerCase] (params : VerifyDeviceTokenParams)
    (stored : DevicePairingStateFile) : (verifyDeviceToken call params stored).2.pendingById = stored.pendingById := by
  unfold verifyDeviceToken
  simp only []
  repeat' split
  all_goals rfl

theorem pending_ensure (params : EnsureDeviceTokenParams) (stored : DevicePairingStateFile) :
    (ensureDeviceToken call params stored).2.pendingById = stored.pendingById := by
  unfold ensureDeviceToken
  simp only []
  repeat' split
  all_goals rfl

theorem pending_rotate (params : RotateDeviceTokenParams) (stored : DevicePairingStateFile) :
    (rotateDeviceToken call params stored).2.pendingById = stored.pendingById := by
  unfold rotateDeviceToken
  simp only []
  repeat' split
  all_goals rfl

theorem pending_revoke (params : RevokeDeviceTokenParams) (stored : DevicePairingStateFile) :
    (revokeDeviceToken call params stored).2.pendingById = stored.pendingById := by
  unfold revokeDeviceToken
  simp only []
  repeat' split
  all_goals rfl

end Requested

/-- **The requests after an operation**: those that were pending, and the ones it writes. -/
theorem mem_pending_perform [LowerCase] {stored : DevicePairingStateFile} {step : Step}
    {pending : DevicePairingPendingRequest} (h : pending ∈ (perform stored step).pendingById) :
    pending ∈ stored.pendingById ∨ Asks step.1 stored step.2 pending := by
  obtain ⟨call, operation⟩ := step
  cases operation with
  | request => exact mem_pending_request h
  | approve => exact .inl (mem_pending_approve h)
  | approveBootstrap => exact .inl (mem_pending_approveBootstrap h)
  | reject => exact .inl (mem_pending_reject h)
  | removeDevice => exact .inl (mem_pending_removeDevice h)
  | removeRole => exact mem_pending_removeRole h
  | updateMetadata deviceId patch => exact .inl ((pending_updateMetadata call deviceId patch stored) ▸ h)
  | verify params => exact .inl ((pending_verify call params stored) ▸ h)
  | ensure params => exact .inl ((pending_ensure call params stored) ▸ h)
  | rotate params => exact .inl ((pending_rotate call params stored) ▸ h)
  | revoke params => exact .inl ((pending_revoke call params stored) ▸ h)


end ClawWorks.DevicePairing
