import ClawWorks.DevicePairing.TokenScopes

/-!
# Lifetimes of requests and tokens
-/

namespace ClawWorks.DevicePairing

open KeyedTable Option List

/-! ## Requests -/

/-- The same request, asking for no more and no less visible. -/
structure Narrows (before after : DevicePairingPendingRequest) : Prop where
  deviceId : after.deviceId = before.deviceId
  publicKey : after.publicKey = before.publicKey
  ts : after.ts = before.ts
  roles : resolveRequestedRoles after.toDevicePairingRequest ⊆ resolveRequestedRoles before.toDevicePairingRequest
  scopes : resolveRequestedScopes after.toDevicePairingRequest ⊆ resolveRequestedScopes before.toDevicePairingRequest
  visible : before.silent ≠ some true → after.silent ≠ some true

theorem Narrows.refl (pending : DevicePairingPendingRequest) : Narrows pending pending :=
  ⟨rfl, rfl, rfl, List.Subset.refl _, List.Subset.refl _, id⟩

theorem Narrows.trans {p q r : DevicePairingPendingRequest} (hpq : Narrows p q) (hqr : Narrows q r) : Narrows p r where
  deviceId := hqr.deviceId.trans hpq.deviceId
  publicKey := hqr.publicKey.trans hpq.publicKey
  ts := hqr.ts.trans hpq.ts
  roles := List.Subset.trans hqr.roles hpq.roles
  scopes := List.Subset.trans hqr.scopes hpq.scopes
  visible := fun h => hqr.visible (hpq.visible h)

section Requests

variable {pending : DevicePairingPendingRequest}

theorem narrows_refresh {incoming : DevicePairingRequest}
    (hcovers : pendingApprovalCoversRequest pending incoming) (isRepair : Bool) :
    Narrows pending (refreshPendingDevicePairingRequest pending incoming isRepair) where
  deviceId := rfl
  publicKey := by
    unfold pendingApprovalCoversRequest at hcovers
    split at hcovers
    · cases hcovers
    · rename_i hkey
      exact (not_not.mp hkey).symm
  ts := rfl
  roles := List.Subset.refl _
  scopes := List.Subset.refl _
  visible := by
    intro hvisible hsilent
    have hboth := some.inj hsilent
    rw [Bool.and_eq_true] at hboth
    refine hvisible ?_
    cases hold : pending.silent with
    | none => rw [hold] at hboth; exact absurd hboth.1 (by decide)
    | some silent => rw [hold] at hboth; rw [← hboth.1]; rfl

theorem narrows_withoutRole (role : JsString) : Narrows pending (withoutRole role pending) where
  deviceId := rfl
  publicKey := rfl
  ts := rfl
  roles := by
    intro a ha
    obtain ⟨list, hlist, hname⟩ := mem_mergeRoles.mp ha
    have hnext : a ∈ (resolveRequestedRoles pending.toDevicePairingRequest).filter (· ≠ role) := by
      simp only [mem_cons, not_mem_nil, or_false] at hlist
      obtain ⟨-, entry, hentry, rfl⟩ := mem_normalizeTrimmedStringList.mp hname
      have hin : entry ∈ (resolveRequestedRoles pending.toDevicePairingRequest).filter (· ≠ role) := by
        rcases hlist with rfl | rfl
        · exact hentry
        · exact mem_of_mem_head? (mem_toList.mp hentry)
      rwa [(isName_of_requested (mem_filter.mp hin).1).1]
    exact (mem_filter.mp hnext).1
  scopes := by
    intro a ha
    exact mem_normalizeDeviceAuthScopes_mono (fun _ => mem_of_preservedScopes) ha
  visible := id

theorem narrows_perform [LowerCase] {stored : DevicePairingStateFile} {step : Step}
    (h : pending ∈ (perform stored step).pendingById) :
    (∃ before ∈ stored.pendingById, before.requestId = pending.requestId ∧ Narrows before pending) ∨
      pending.requestId = step.1.randomUUID := by
  rcases mem_pending_perform h with hold | hasks
  · exact .inl ⟨pending, hold, rfl, Narrows.refl pending⟩
  · obtain ⟨call, operation⟩ := step
    cases hasks with
    | refreshed hpending hcovers => exact .inl ⟨_, hpending, rfl, narrows_refresh hcovers _⟩
    | created => exact .inr rfl
    | roleRemoved hpending => exact .inl ⟨_, hpending, rfl, narrows_withoutRole _⟩

theorem request_single (call : Surroundings) (req : DevicePairingRequest) (stored : DevicePairingStateFile)
    (hdevice : normalizeDeviceId req.deviceId ≠ []) :
    ∃! pending, pending ∈ (requestDevicePairing call req stored).2.pendingById ∧
      pending.deviceId = normalizeDeviceId req.deviceId := by
  unfold requestDevicePairing
  simp only [if_neg hdevice]
  unfold reconcilePendingPairingRequests
  have hothers : ∀ p ∈ (loadState call stored).pendingById, p.deviceId = normalizeDeviceId req.deviceId →
      p ∈ pendingForDevice (loadState call stored) (normalizeDeviceId req.deviceId) := fun p hp hid =>
    mem_pendingForDevice.mpr ⟨hp, hid⟩
  split
  · rename_i single hsingle
    obtain ⟨hexisting, -⟩ := single_of_refresh hsingle
    have hmem : single ∈ pendingForDevice (loadState call stored) (normalizeDeviceId req.deviceId) := by
      rw [hexisting]
      exact mem_singleton_self single
    refine ⟨_, ⟨mem_upsert.mpr (.inl rfl), (mem_pendingForDevice.mp hmem).2⟩, ?_⟩
    rintro p ⟨hp, hid⟩
    rcases mem_upsert.mp hp with hnew | ⟨hold, hne⟩
    · exact hnew
    · have honly := hothers p hold hid
      rw [hexisting, mem_singleton] at honly
      exact absurd (congrArg DevicePairingPendingRequest.requestId honly) hne
  · refine ⟨_, ⟨mem_upsert.mpr (.inl rfl), rfl⟩, ?_⟩
    rintro p ⟨hp, hid⟩
    rcases mem_upsert.mp hp with hnew | ⟨hold, -⟩
    · exact hnew
    · obtain ⟨hloaded, hdeleted⟩ := mem_foldl_deleteWhere.mp hold
      exact absurd rfl (hdeleted p (hothers p hloaded hid))

end Requests

section RequestRuns

variable [LowerCase] {run : List Step}

def FreshIds (run : List Step) : Prop :=
  (run.map fun step => step.1.randomUUID).Nodup

/-- While an id is pending, the request under it narrows. -/
def RequestsNarrow (run : List Step) : Prop :=
  ∀ earlier later, earlier ++ later <+: run → ∀ before ∈ (storeAfter earlier).pendingById,
    ∀ after ∈ (storeAfter (earlier ++ later)).pendingById, after.requestId = before.requestId → Narrows before after

theorem requestId_mem (run : List Step) :
    ∀ pending ∈ (storeAfter run).pendingById, pending.requestId ∈ run.map fun step => step.1.randomUUID := by
  refine Runs.invariant (P := fun run (stored : DevicePairingStateFile) => ∀ pending ∈ stored.pendingById,
    pending.requestId ∈ run.map fun step => step.1.randomUUID) ?_ ?_ run
  · intro pending hpending
    exact absurd hpending (not_mem_empty pending)
  · intro run step ih pending hpending
    rw [map_append, mem_append]
    rcases narrows_perform hpending with ⟨before, hbefore, hid, -⟩ | hfresh
    · exact .inl (hid ▸ ih before hbefore)
    · exact .inr (by rw [hfresh]; exact mem_singleton_self _)

theorem requests_narrow (hids : FreshIds run) : RequestsNarrow run := by
  intro earlier later hearly before hbefore after hafter hid
  refine Runs.stays (P := fun (stored : DevicePairingStateFile) => ∀ after ∈ stored.pendingById,
    after.requestId = before.requestId → Narrows before after) ?_ later ?_ after hafter hid
  · intro after hafter hid
    rw [eq_of_key hafter hbefore hid]
    exact Narrows.refl before
  · intro middle step hmiddle ih after hafter hid
    rcases narrows_perform hafter with ⟨between, hbetween, hbetweenId, hnarrows⟩ | hfresh
    · exact (ih between hbetween (hbetweenId.trans hid)).trans hnarrows
    -- the id was made before this step
    have hmade := requestId_mem earlier before hbefore
    have hnodup : ((earlier ++ later).map fun step => step.1.randomUUID).Nodup := hids.sublist
      ((hearly.sublist).map _)
    rw [map_append, nodup_append] at hnodup
    have hstep : step ∈ later := hmiddle.subset (by simp)
    exact absurd (hid.symm.trans hfresh) (hnodup.2.2 _ hmade _ (mem_map_of_mem hstep))

end RequestRuns

/-! ## Tokens -/

def tokenAt (stored : DevicePairingStateFile) (deviceId role : JsString) : Option DeviceAuthToken :=
  (stored.pairedByDeviceId.get? deviceId).bind (tokenOf · role)

theorem tokenAt_eq_some {stored : DevicePairingStateFile} {deviceId role : JsString} {token : DeviceAuthToken} :
    tokenAt stored deviceId role = some token ↔
      ∃ device ∈ stored.pairedByDeviceId, device.deviceId = deviceId ∧ tokenOf device role = some token := by
  unfold tokenAt
  rw [bind_eq_some_iff]
  simp only [get?_eq_some_iff, and_assoc]

/-- The token keeps its string, and stays revoked. -/
structure Continues (before after : DeviceAuthToken) : Prop where
  token : after.token = before.token
  revoked : after.revokedAtMs = none → before.revokedAtMs = none

def MadeBy (call : Surroundings) (text : JsString) : Prop :=
  ∃ i, text = (call.newToken i).text

/-- The device that an operation makes tokens for. -/
def receives (call : Surroundings) (stored : DevicePairingStateFile) : Operation → Option JsString
  | .approve requestId _ | .approveBootstrap requestId _ _ =>
    ((loadState call stored).pendingById.get? requestId).map (·.deviceId)
  | .ensure params => normalizeDeviceId params.deviceId
  | .rotate params => normalizeDeviceId params.deviceId
  | _ => none

section Tokens

variable {call : Surroundings} {stored : DevicePairingStateFile} {device : PairedDevice} {role : JsString}
  {token : DeviceAuthToken}

theorem token_issued {entryFor : ℕ → JsString → Option DeviceAuthToken → DeviceAuthToken} {roles : List JsString}
    {existing : Option PairedDevice} (hrole : ∀ i role old, (entryFor i role old).role = role)
    (hmade : ∀ i role old, MadeBy call (entryFor i role old).token)
    (h : (issueTokens entryFor roles (existingTokens existing)).get? role = some token) :
    MadeBy call token.token ∨
      (role ∉ roles ∧ ∃ device, existing = some device ∧ tokenOf device role = some token) := by
  obtain ⟨hmem, rfl⟩ := mem_of_get? h
  rcases mem_issueTokens hrole hmem with ⟨-, i, old, hnew⟩ | ⟨hout, hold⟩
  · rw [hnew]
    exact .inl (hmade i _ old)
  · exact .inr ⟨hout, existingTokens_get (get?_eq_some_iff.mpr ⟨hold, rfl⟩)⟩

theorem madeBy_approvedToken (scopesFor : JsString → List JsString) (i : ℕ) (role : JsString)
    (old : Option DeviceAuthToken) : MadeBy call (approvedToken call scopesFor i role old).token := ⟨i, rfl⟩

theorem madeBy_bootstrapToken (scopes : List JsString) (i : ℕ) (role : JsString) (old : Option DeviceAuthToken) :
    MadeBy call (bootstrapToken call scopes i role old).token := ⟨i, rfl⟩

theorem token_writes {operation : Operation} (hwrites : Writes call stored operation device)
    (h : tokenOf device role = some token) :
    (MadeBy call token.token ∧ receives call stored operation = some device.deviceId) ∨
      ∃ old ∈ stored.pairedByDeviceId, old.deviceId = device.deviceId ∧
        ∃ before, tokenOf old role = some before ∧ Continues before token := by
  have happroved : ∀ {deviceId : JsString}, (∃ old, stored.pairedByDeviceId.get? deviceId = some old ∧
      tokenOf old role = some token) → ∃ old ∈ stored.pairedByDeviceId, old.deviceId = deviceId ∧
        ∃ before, tokenOf old role = some before ∧ Continues before token := by
    rintro deviceId ⟨old, hget, htoken⟩
    obtain ⟨hmem, hid⟩ := mem_of_get? hget
    exact ⟨old, hmem, hid, token, htoken, rfl, id⟩
  cases hwrites with
  | approved hpending hroles hcaller hloaded =>
    refine (token_issued (fun _ _ _ => rfl) (madeBy_approvedToken _) h).imp (⟨·, ?_⟩) fun hold => happroved hold.2
    rw [receives, hloaded]
    rfl
  | bootstrapped hpending hroles hscopes hloaded =>
    refine (token_issued (fun _ _ _ => rfl) (madeBy_bootstrapToken _) h).imp (⟨·, ?_⟩) fun hold => happroved hold.2
    rw [receives, hloaded]
    rfl
  | roleRemoved hnames hleft =>
    exact .inr ⟨_, hnames.device_mem, rfl, token, (tokenOf_withoutRole h).1, rfl, id⟩
  | refreshed hdevice => exact .inr ⟨_, hdevice, rfl, token, h, rfl, id⟩
  | @used params used entry hdevice hentry =>
    have hnext : tokenOf (withToken used { entry with lastUsedAtMs := some (call.now 1) }) role = some token := h
    rcases tokenOf_withToken hnext with ⟨rfl, rfl⟩ | hold
    · exact .inr ⟨used, hdevice, rfl, entry, hentry, rfl, id⟩
    · exact .inr ⟨used, hdevice, rfl, token, hold, rfl, id⟩
  | ensured hnames hscopes | rotated hnames hscopes =>
    rcases tokenOf_withToken h with ⟨-, rfl⟩ | hold
    · exact .inl ⟨⟨0, rfl⟩, congrArg some hnames.deviceId_eq.symm⟩
    · exact .inr ⟨_, hnames.device_mem, rfl, token, hold, rfl, id⟩
  | @revoked params owner ownerRole existing hnames hexisting =>
    rcases tokenOf_withToken h with ⟨rfl, rfl⟩ | hold
    · obtain ⟨-, hkey⟩ := mem_of_get? hexisting
      rw [← hkey] at hexisting
      exact .inr ⟨owner, hnames.device_mem, rfl, existing, hexisting, rfl, fun hnone => nomatch hnone⟩
    · exact .inr ⟨owner, hnames.device_mem, rfl, token, hold, rfl, id⟩

theorem token_perform [LowerCase] {step : Step} {deviceId : JsString}
    (h : tokenAt (perform stored step) deviceId role = some token) :
    (MadeBy step.1 token.token ∧ receives step.1 stored step.2 = some deviceId) ∨
      ∃ before, tokenAt stored deviceId role = some before ∧ Continues before token := by
  obtain ⟨device, hmem, rfl, htoken⟩ := tokenAt_eq_some.mp h
  rcases mem_paired_perform hmem with hold | hwrites
  · exact .inr ⟨token, tokenAt_eq_some.mpr ⟨device, hold, rfl, htoken⟩, rfl, id⟩
  · rcases token_writes hwrites htoken with hmade | ⟨old, hold, hid, before, hbefore, hcontinues⟩
    · exact .inl hmade
    · exact .inr ⟨before, tokenAt_eq_some.mpr ⟨old, hold, hid, hbefore⟩, hcontinues⟩

end Tokens

/-! ## Ends of tokens -/

/-- The operation answers that it rotated, revoked or replaced the token of the device and role, or removed its role or
its device. -/
def EndsToken (stored : DevicePairingStateFile) (step : Step) (deviceId role : JsString) : Prop :=
  match step.2 with
  | .approve requestId options =>
    ∃ pending device, (loadState step.1 stored).pendingById.get? requestId = some pending ∧
      (approveDevicePairing step.1 requestId options stored).1 = .approved requestId device ∧
      device.deviceId = deviceId ∧ role ∈ resolveRequestedRoles pending.toDevicePairingRequest
  | .approveBootstrap requestId profile accessMetadata =>
    ∃ pending device, (loadState step.1 stored).pendingById.get? requestId = some pending ∧
      (approveBootstrapDevicePairing step.1 requestId profile accessMetadata stored).1 = .approved requestId device ∧
      device.deviceId = deviceId ∧ role ∈ resolveRequestedRoles pending.toDevicePairingRequest
  | .removeDevice rawId => (removePairedDevice step.1 rawId stored).1 = some deviceId
  | .removeRole rawId rawRole =>
    ∃ removed, (removePairedDeviceRole step.1 rawId rawRole stored).1 = some removed ∧ removed.deviceId = deviceId ∧
      (removed.role = role ∨ removed.removedDevice = true)
  | .ensure params =>
    normalizeDeviceId params.deviceId = deviceId ∧ normalizeRole (some params.role) = some role ∧
      ∃ token, (ensureDeviceToken step.1 params stored).1 = some token ∧ tokenAt stored deviceId role ≠ some token
  | .rotate params =>
    normalizeDeviceId params.deviceId = deviceId ∧ normalizeRole (some params.role) = some role ∧
      ∃ token, (rotateDeviceToken step.1 params stored).1 = .ok token
  | .revoke params =>
    normalizeDeviceId params.deviceId = deviceId ∧ normalizeRole (some params.role) = some role ∧
      ∃ token, (revokeDeviceToken step.1 params stored).1 = .ok token
  | _ => False

def Ended (call : Surroundings) (stored : DevicePairingStateFile) (deviceId role : JsString) : Prop :=
  ∀ token, tokenAt stored deviceId role = some token → token.revokedAtMs = none → MadeBy call token.token

section Ends

variable {call : Surroundings} {stored : DevicePairingStateFile} {deviceId role : JsString}

theorem tokenAt_upsert {pendingById : KeyedTable DevicePairingPendingRequest.requestId}
    {pairedByDeviceId : KeyedTable PairedDevice.deviceId} {device : PairedDevice} {token : DeviceAuthToken}
    (h : tokenAt ⟨pendingById, pairedByDeviceId.upsert device⟩ device.deviceId role = some token) :
    tokenOf device role = some token := by
  unfold tokenAt at h
  rwa [get?_upsert, if_pos rfl, bind_some] at h

variable {requestId : JsString}

theorem ended_settleRequest {device : PairedDevice}
    (h : ∀ token, tokenOf device role = some token → MadeBy call token.token) :
    Ended call (settleRequest stored requestId device) device.deviceId role :=
  fun token htoken _ => h token (tokenAt_upsert htoken)

theorem ended_dropDevice (state : DevicePairingStateFile) : Ended call (dropDevice state deviceId) deviceId role := by
  intro token htoken
  obtain ⟨device, hmem, hid, -⟩ := tokenAt_eq_some.mp htoken
  exact absurd hid (of_decide_eq_false (mem_deleteWhere.mp hmem).2)

theorem ended_storeToken {context : DeviceTokenUpdateContext} {next : DeviceAuthToken}
    (hnames : Names stored deviceId role context.device context.role) {normalized : JsString}
    (hdevice : normalizeDeviceId deviceId = normalized) (hnext : next.role = context.role)
    (hended : next.revokedAtMs = none → MadeBy call next.token) :
    Ended call (storeToken stored context next) normalized context.role := by
  intro token htoken hlive
  rw [← hdevice, ← hnames.deviceId_eq] at htoken
  have hupsert : (context.tokens.upsert next).get? context.role = some token := tokenAt_upsert htoken
  rw [get?_upsert, if_pos hnext] at hupsert
  obtain rfl := some.inj hupsert
  exact hended hlive

theorem ended_approve {options : Option ApproveOptions} {pending : DevicePairingPendingRequest}
    {device : PairedDevice} (hloaded : (loadState call stored).pendingById.get? requestId = some pending)
    (hresult : (approveDevicePairing call requestId options stored).1 = .approved requestId device)
    (hrole : role ∈ resolveRequestedRoles pending.toDevicePairingRequest) :
    Ended call (approveDevicePairing call requestId options stored).2 device.deviceId role := by
  unfold approveDevicePairing at hresult ⊢
  simp only [hloaded] at hresult ⊢
  split at hresult
  · cases hresult
  rename_i hroles
  split at hresult
  · cases hresult
  · rename_i hcaller
    obtain ⟨-, rfl⟩ := ApproveDevicePairingResult.approved.inj hresult
    refine ended_settleRequest fun token htoken => ?_
    exact (token_issued (fun _ _ _ => rfl) (madeBy_approvedToken _) htoken).resolve_right fun hold => hold.1 hrole

theorem ended_approveBootstrap {profile : DeviceBootstrapProfile}
    {accessMetadata : Option DevicePairingAccessMetadata} {pending : DevicePairingPendingRequest}
    {device : PairedDevice} (hloaded : (loadState call stored).pendingById.get? requestId = some pending)
    (hresult : (approveBootstrapDevicePairing call requestId profile accessMetadata stored).1 =
      .approved requestId device) (hrole : role ∈ resolveRequestedRoles pending.toDevicePairingRequest) :
    Ended call (approveBootstrapDevicePairing call requestId profile accessMetadata stored).2 device.deviceId role := by
  unfold approveBootstrapDevicePairing at hresult ⊢
  simp only [hloaded] at hresult ⊢
  split at hresult
  · cases hresult
  rename_i hroles
  split at hresult
  · cases hresult
  · rename_i hscopes
    obtain ⟨-, rfl⟩ := ApproveDevicePairingResult.approved.inj hresult
    refine ended_settleRequest fun token htoken => ?_
    exact (token_issued (fun _ _ _ => rfl) (madeBy_bootstrapToken _) htoken).resolve_right fun hold => hold.1 hrole

theorem ended_removeDevice {rawId : JsString} (hresult : (removePairedDevice call rawId stored).1 = some deviceId) :
    Ended call (removePairedDevice call rawId stored).2 deviceId role := by
  unfold removePairedDevice at hresult ⊢
  simp only [] at hresult ⊢
  split at hresult
  · cases hresult
  · rename_i hpaired
    rw [if_neg hpaired, ← some.inj hresult]
    exact ended_dropDevice _

theorem ended_removeRole {rawId rawRole : JsString} {removed : RemovedRole}
    (hresult : (removePairedDeviceRole call rawId rawRole stored).1 = some removed)
    (hrole : removed.role = role ∨ removed.removedDevice) :
    Ended call (removePairedDeviceRole call rawId rawRole stored).2 removed.deviceId role := by
  unfold removePairedDeviceRole at hresult ⊢
  simp only [] at hresult ⊢
  split at hresult
  · rename_i device role' hdevice hrole'
    split at hresult
    · rename_i happroved
      rw [if_pos happroved]
      split at hresult
      · rename_i hnone
        rw [if_pos hnone, ← some.inj hresult]
        exact ended_dropDevice _
      · rename_i hleft
        rw [if_neg hleft]
        rw [← some.inj hresult] at hrole ⊢
        obtain rfl : role' = role := hrole.resolve_right fun h => by cases h
        intro token htoken
        obtain ⟨-, hid⟩ := mem_of_get? hdevice
        have hupsert : tokenOf (deviceWithoutRole device role') role' = some token := by
          change tokenAt _ (normalizeDeviceId rawId) role' = some token at htoken
          rw [← hid] at htoken
          exact @tokenAt_upsert role' _ _ (deviceWithoutRole device role') token htoken
        exact absurd rfl (tokenOf_withoutRole hupsert).2
    · cases hresult
  · cases hresult

theorem ended_ensure {params : EnsureDeviceTokenParams} {token : DeviceAuthToken}
    (hdevice : normalizeDeviceId params.deviceId = deviceId) (hrole : normalizeRole (some params.role) = some role)
    (hresult : (ensureDeviceToken call params stored).1 = some token)
    (hnew : tokenAt stored deviceId role ≠ some token) :
    Ended call (ensureDeviceToken call params stored).2 deviceId role := by
  unfold ensureDeviceToken at hresult ⊢
  simp only [] at hresult ⊢
  split at hresult
  · cases hresult
  rename_i context hcontext
  obtain ⟨hnames, htokens, hexisting⟩ := names_of_context hcontext
  obtain rfl : context.role = role := mem_unique hnames.role_eq hrole
  split at hresult
  · cases hresult
  rename_i hscopes
  rw [if_neg hscopes]
  split at hresult
  · rename_i existing hreusable
    -- a token that is handed out again is the one the role has
    obtain ⟨hsome, -⟩ := filter_eq_some_iff.mp hreusable
    rw [hexisting, htokens] at hsome
    refine absurd (tokenAt_eq_some.mpr ⟨context.device, hnames.device_mem, ?_, ?_⟩) hnew
    · rw [hnames.deviceId_eq, hdevice]
    · rw [← some.inj hresult]
      exact hsome
  · rename_i hreusable
    exact ended_storeToken hnames hdevice rfl fun _ => ⟨0, rfl⟩

theorem ended_rotate {params : RotateDeviceTokenParams} {token : DeviceAuthToken}
    (hdevice : normalizeDeviceId params.deviceId = deviceId) (hrole : normalizeRole (some params.role) = some role)
    (hresult : (rotateDeviceToken call params stored).1 = .ok token) :
    Ended call (rotateDeviceToken call params stored).2 deviceId role := by
  unfold rotateDeviceToken at hresult ⊢
  simp only [] at hresult ⊢
  split at hresult
  · cases hresult
  rename_i context hcontext
  obtain ⟨hnames, -, -⟩ := names_of_context hcontext
  obtain rfl : context.role = role := mem_unique hnames.role_eq hrole
  split at hresult
  · cases hresult
  rename_i approvedScopes hbaseline
  split at hresult
  · cases hresult
  rename_i hscopes
  rw [if_neg hscopes]
  split at hresult
  · cases hresult
  · rename_i hcaller
    exact ended_storeToken hnames hdevice rfl fun _ => ⟨0, rfl⟩

theorem ended_revoke {params : RevokeDeviceTokenParams} {token : DeviceAuthToken}
    (hdevice : normalizeDeviceId params.deviceId = deviceId) (hrole : normalizeRole (some params.role) = some role)
    (hresult : (revokeDeviceToken call params stored).1 = .ok token) :
    Ended call (revokeDeviceToken call params stored).2 deviceId role := by
  unfold revokeDeviceToken at hresult ⊢
  simp only [] at hresult ⊢
  split at hresult
  · cases hresult
  rename_i context hcontext
  obtain ⟨hnames, -, hexisting⟩ := names_of_context hcontext
  obtain rfl : context.role = role := mem_unique hnames.role_eq hrole
  split at hresult
  · cases hresult
  rename_i existing hsome
  split at hresult
  · cases hresult
  · rename_i hcaller
    rw [hexisting] at hsome
    exact ended_storeToken hnames hdevice (mem_of_get? hsome).2 fun hnone => nomatch hnone

theorem ended_perform [LowerCase] {step : Step} (h : EndsToken stored step deviceId role) :
    Ended step.1 (perform stored step) deviceId role := by
  obtain ⟨call, operation⟩ := step
  cases operation with
  | request => exact h.elim
  | approve =>
    obtain ⟨pending, device, hloaded, hresult, rfl, hrole⟩ := h
    exact ended_approve hloaded hresult hrole
  | approveBootstrap =>
    obtain ⟨pending, device, hloaded, hresult, rfl, hrole⟩ := h
    exact ended_approveBootstrap hloaded hresult hrole
  | reject => exact h.elim
  | removeDevice => exact ended_removeDevice h
  | removeRole =>
    obtain ⟨removed, hresult, rfl, hrole⟩ := h
    exact ended_removeRole hresult hrole
  | updateMetadata => exact h.elim
  | verify => exact h.elim
  | ensure =>
    obtain ⟨hdevice, hrole, token, hresult, hnew⟩ := h
    exact ended_ensure hdevice hrole hresult hnew
  | rotate =>
    obtain ⟨hdevice, hrole, token, hresult⟩ := h
    exact ended_rotate hdevice hrole hresult
  | revoke =>
    obtain ⟨hdevice, hrole, token, hresult⟩ := h
    exact ended_revoke hdevice hrole hresult

end Ends

/-! ## Verification -/

variable {text : JsString}

theorem eq_of_toWellFormed (h : ∀ u ∈ toWellFormed text, u < 128) : toWellFormed text = text := by
  induction text using toWellFormed.induct with
  | case1 => rfl
  | case2 u hsurrogate =>
    rw [toWellFormed, if_pos hsurrogate] at h
    exact absurd (h _ mem_cons_self) (by decide)
  | case3 u hplain => rw [toWellFormed, if_neg hplain]
  | case4 u v s hpair ih =>
    rw [toWellFormed, if_pos hpair] at h ⊢
    rw [ih fun w hw => h w (mem_cons_of_mem _ (mem_cons_of_mem _ hw))]
  | case5 u v s hpair hsurrogate ih =>
    rw [toWellFormed, if_neg hpair, if_pos hsurrogate] at h
    exact absurd (h _ mem_cons_self) (by decide)
  | case6 u v s hpair hplain ih =>
    rw [toWellFormed, if_neg hpair, if_neg hplain] at h ⊢
    rw [ih fun w hw => h w (mem_cons_of_mem _ hw)]

theorem toWellFormed_of_ascii (h : ∀ u ∈ text, u < 128) : toWellFormed text = text := by
  have hplain : ∀ u : UInt16, u < 128 → (0xD800 ≤ u) = False := by
    intro u hu
    rw [eq_iff_iff, iff_false]
    intro hle
    exact absurd (UInt16.lt_of_le_of_lt hle hu) (by decide)
  induction text using toWellFormed.induct with
  | case1 => rfl
  | case2 u hsurrogate | case5 u v s hpair hsurrogate ih =>
    simp [hplain u (h u mem_cons_self)] at hsurrogate
  | case3 u hnot => rw [toWellFormed, if_neg hnot]
  | case4 u v s hpair ih =>
    simp [hplain u (h u mem_cons_self)] at hpair
  | case6 u v s hpair hnot ih =>
    rw [toWellFormed, if_neg hpair, if_neg hnot, ih fun w hw => h w (mem_cons_of_mem _ hw)]

theorem eq_of_verifyPairingToken {provided : JsString} {token : PairingToken}
    (h : verifyPairingToken provided token.text) : provided = token.text := by
  unfold verifyPairingToken at h
  split at h
  · cases h
  have hequal : toWellFormed provided = token.text := (of_decide_eq_true h).trans (toWellFormed_of_ascii token.ascii)
  have hascii : ∀ u ∈ toWellFormed provided, u < 128 := by
    rw [hequal]
    exact token.ascii
  rw [← eq_of_toWellFormed hascii, hequal]

/-- The token strings of different operations of the run are different. -/
def FreshTokens (run : List Step) : Prop :=
  run.Pairwise fun earlier later => ∀ i j, (earlier.1.newToken i).text ≠ (later.1.newToken j).text

def MadeIn (run : List Step) (text : JsString) : Prop :=
  ∃ step ∈ run, MadeBy step.1 text

theorem not_madeBy {before rest : List Step} {step : Step} (hfresh : FreshTokens (before ++ step :: rest))
    (hmade : MadeIn before text) : ¬ MadeBy step.1 text := by
  obtain ⟨earlier, hearlier, i, rfl⟩ := hmade
  rintro ⟨j, hequal⟩
  exact (pairwise_append.mp hfresh).2.2 earlier hearlier step mem_cons_self i j hequal

section Verification

variable [LowerCase] {run : List Step}

def Verifies (stored : DevicePairingStateFile) (deviceId role text : JsString) : Prop :=
  ∃ call params issuer, normalizeDeviceId params.deviceId = deviceId ∧ normalizeRole (some params.role) = some role ∧
    params.token = text ∧ (verifyDeviceToken call params stored).1 = .ok issuer

theorem token_of_verifies {stored : DevicePairingStateFile} {deviceId role text : JsString}
    (h : Verifies stored deviceId role text) :
    ∃ token, tokenAt stored deviceId role = some token ∧ token.revokedAtMs = none ∧
      verifyPairingToken text token.token := by
  obtain ⟨call, params, issuer, rfl, hrole, rfl, hok⟩ := h
  unfold verifyDeviceToken at hok
  simp only [hrole] at hok
  split at hok
  · cases hok
  rename_i device hdevice
  split at hok
  · cases hok
  rename_i token htoken
  split at hok
  · cases hok
  rename_i hlive
  split at hok
  · cases hok
  rename_i hmatches
  refine ⟨token, ?_, ?_, ?_⟩
  · obtain ⟨hmem, hid⟩ := mem_of_get? hdevice
    rw [← tokenOf_eq] at htoken
    exact tokenAt_eq_some.mpr ⟨device, hmem, hid, htoken⟩
  · simpa using hlive
  · simpa using hmatches

theorem madeIn_run (run : List Step) : ∀ deviceId role token,
    tokenAt (storeAfter run) deviceId role = some token → MadeIn run token.token := by
  refine Runs.invariant (P := fun run stored => ∀ deviceId role token,
    tokenAt stored deviceId role = some token → MadeIn run token.token) ?_ ?_ run
  · intro deviceId role token htoken
    cases htoken
  · intro run step ih deviceId role token htoken
    rcases token_perform htoken with ⟨hmade, -⟩ | ⟨before, hbefore, hcontinues⟩
    · exact ⟨step, by simp, hmade⟩
    · obtain ⟨earlier, hearlier, hmade⟩ := ih deviceId role before hbefore
      exact ⟨earlier, by simp [hearlier], hcontinues.token ▸ hmade⟩

def Dead (stored : DevicePairingStateFile) (deviceId role text : JsString) : Prop :=
  ∀ token, tokenAt stored deviceId role = some token → token.revokedAtMs = none → token.token ≠ text

/-- Once an operation has ended the token of a device and role, no string the token had verifies again. -/
def TokensEnd (run : List Step) : Prop :=
  ∀ before step later, before ++ step :: later <+: run → ∀ deviceId role,
    EndsToken (storeAfter before) step deviceId role →
      ∀ earlier, earlier <+: before → ∀ token, tokenAt (storeAfter earlier) deviceId role = some token →
        ∀ text, verifyPairingToken text token.token = true →
          ¬ Verifies (storeAfter (before ++ step :: later)) deviceId role text

theorem tokens_end (htokens : FreshTokens run) : TokensEnd run := by
  intro before step later hearly deviceId role hends earlier hearlier token htoken text htext hverifies
  have hfresh : FreshTokens (before ++ step :: later) := htokens.sublist hearly.sublist
  obtain ⟨maker, hmaker, i, hmade⟩ := madeIn_run earlier deviceId role token htoken
  have hbefore : MadeIn before token.token := ⟨maker, hearlier.subset hmaker, i, hmade⟩
  -- the string is not valid once the operation is done, and no later operation makes it
  have hdead : Dead (storeAfter (before ++ [step] ++ later)) deviceId role token.token := by
    refine Runs.stays (P := fun stored => Dead stored deviceId role token.token) ?_ later ?_
    · intro current hcurrent hlive hequal
      rw [Runs.after_concat] at hcurrent
      have hmadeNow := ended_perform hends current hcurrent hlive
      rw [hequal] at hmadeNow
      exact not_madeBy hfresh hbefore hmadeNow
    · intro middle next hmiddle ih current hcurrent hlive hequal
      rcases token_perform hcurrent with ⟨hmadeNow, -⟩ | ⟨old, hold, hcontinues⟩
      · obtain ⟨rest, rfl⟩ := hmiddle
        rw [hequal] at hmadeNow
        have hsplit : before ++ step :: (middle ++ [next] ++ rest) = (before ++ step :: middle) ++ next :: rest := by
          simp
        rw [hsplit] at hfresh
        obtain ⟨maker', hmaker', hmade'⟩ := hbefore
        exact not_madeBy hfresh ⟨maker', mem_append_left _ hmaker', hmade'⟩ hmadeNow
      · exact ih old hold (hcontinues.revoked hlive) (hcontinues.token ▸ hequal)
  obtain ⟨current, hcurrent, hlive, hmatches⟩ := token_of_verifies hverifies
  obtain ⟨_, _, j, hcurrentMade⟩ := madeIn_run _ deviceId role current hcurrent
  rw [hmade] at htext
  rw [hcurrentMade] at hmatches
  have hequal : current.token = token.token := by
    rw [hcurrentMade, hmade, ← eq_of_verifyPairingToken hmatches, ← eq_of_verifyPairingToken htext]
  rw [append_assoc, singleton_append] at hdead
  exact hdead current hcurrent hlive hequal

/-- After any request of the run for a device, it has exactly one pending. -/
def RequestsSingle (run : List Step) : Prop :=
  ∀ before call req, before ++ [(call, .request req)] <+: run → normalizeDeviceId req.deviceId ≠ [] →
    ∃! pending, pending ∈ (storeAfter (before ++ [(call, .request req)])).pendingById ∧
      pending.deviceId = normalizeDeviceId req.deviceId

/-- **What is inspected is what is approved, and what is revoked stays revoked**, over every run. -/
theorem inspected_and_revoked (hids : FreshIds run) (htokens : FreshTokens run) :
    RequestsNarrow run ∧ RequestsSingle run ∧ TokensEnd run := by
  refine ⟨requests_narrow hids, ?_, tokens_end htokens⟩
  intro before call req _ hdevice
  rw [storeAfter, Runs.after_concat]
  exact request_single call req _ hdevice

/-- A string is the token of one device at most. -/
def OneOwner (stored : DevicePairingStateFile) : Prop :=
  ∀ deviceId role token otherId otherRole other, tokenAt stored deviceId role = some token →
    tokenAt stored otherId otherRole = some other → token.token = other.token → deviceId = otherId

theorem oneOwner_run : FreshTokens run → OneOwner (storeAfter run) := by
  refine Runs.invariant (P := fun run stored => FreshTokens run → OneOwner stored) ?_ ?_ run
  · intro _ deviceId role token _ _ _ htoken
    cases htoken
  · intro run step ih hfresh deviceId role token otherId otherRole other htoken hother hequal
    have hagain : ∀ {deviceId role before text}, tokenAt (storeAfter run) deviceId role = some before →
        before.token = text → ¬MadeBy step.1 text :=
      fun hbefore htext => not_madeBy hfresh (htext ▸ madeIn_run run _ _ _ hbefore)
    rcases token_perform htoken with ⟨hmade, hdevice⟩ | ⟨before, hbefore, hcontinues⟩
    · rcases token_perform hother with ⟨-, hdevice'⟩ | ⟨before', hbefore', hcontinues'⟩
      · exact some.inj (hdevice.symm.trans hdevice')
      · exact absurd (hequal ▸ hmade) (hagain hbefore' hcontinues'.token.symm)
    · rcases token_perform hother with ⟨hmade', -⟩ | ⟨before', hbefore', hcontinues'⟩
      · exact absurd (hequal ▸ hmade') (hagain hbefore hcontinues.token.symm)
      · refine ih (hfresh.sublist (sublist_append_left _ _)) _ _ _ _ _ _ hbefore hbefore' ?_
        rw [← hcontinues.token, ← hcontinues'.token, hequal]

/-- **A token is good for one device**: after any run, a string verifies for one device at most. -/
theorem verifies_for_one (hfresh : FreshTokens run) {deviceId role otherId otherRole : JsString}
    (h : Verifies (storeAfter run) deviceId role text) (h' : Verifies (storeAfter run) otherId otherRole text) :
    deviceId = otherId := by
  obtain ⟨token, htoken, -, htext⟩ := token_of_verifies h
  obtain ⟨other, hother, -, htext'⟩ := token_of_verifies h'
  obtain ⟨_, _, i, hmade⟩ := madeIn_run run _ _ _ htoken
  obtain ⟨_, _, j, hmade'⟩ := madeIn_run run _ _ _ hother
  refine oneOwner_run hfresh _ _ _ _ _ _ htoken hother ?_
  rw [hmade] at htext ⊢
  rw [hmade'] at htext' ⊢
  rw [← eq_of_verifyPairingToken htext, ← eq_of_verifyPairingToken htext']

end Verification

section Fixed

attribute [local instance] asciiLowerCase

/-- A request, its approval, and a revocation of the token. -/
def revokedRun : List Step :=
  [operatorRequest, operatorApproval, (surroundings 99 (by decide), .revoke ⟨js "d", OPERATOR_ROLE, none⟩)]

theorem surroundings_fresh {letter other : UInt16} (hletter : letter < 128) (hother : other < 128)
    (hne : letter ≠ other)
    (i j : ℕ) : ((surroundings letter hletter).newToken i).text ≠ ((surroundings other hother).newToken j).text := by
  intro hequal
  exact hne (cons.inj hequal).1

theorem inspected_and_revoked_revokedRun :
    RequestsNarrow revokedRun ∧ RequestsSingle revokedRun ∧ TokensEnd revokedRun := by
  refine inspected_and_revoked (by unfold FreshIds; decide) ?_
  refine .cons ?_ (.cons ?_ (.cons (fun _ h => nomatch h) .nil))
  · rintro later hlater i j
    simp only [mem_cons, not_mem_nil, or_false] at hlater
    rcases hlater with rfl | rfl
    · exact surroundings_fresh (by decide) (by decide) (by decide) i j
    · exact surroundings_fresh (by decide) (by decide) (by decide) i j
  · rintro later hlater i j
    obtain rfl := mem_singleton.mp hlater
    exact surroundings_fresh (by decide) (by decide) (by decide) i j

theorem verifies_for_one_operator :
    Verifies (storeAfter [operatorRequest, operatorApproval]) (js "d") OPERATOR_ROLE [98] ∧ js "d" = js "d" := by
  refine ⟨?verifies, verifies_for_one (pairwise_pair.mpr fun i j => ?_) ?verifies ?verifies⟩
  · exact ⟨secondCall, ⟨js "d", [98], OPERATOR_ROLE, [], none⟩, none, by decide, by decide, rfl, by rfl⟩
  · exact surroundings_fresh (by decide) (by decide) (by decide) i j

end Fixed

end ClawWorks.DevicePairing
