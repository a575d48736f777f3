import Mathlib.Data.PNat.Basic
import ClawWorks.Lib.KeyedTable
import ClawWorks.DevicePairing.Scopes

/-!
# Device pairing

The store of pairing requests and paired devices, and every operation on it. An operation loads the store, which drops
the requests that are out of time, and saves what it changed.

What a call takes from outside (the clock, `randomUUID`, fresh tokens) is its `Surroundings`.
-/

namespace ClawWorks.DevicePairing

open KeyedTable

/-- `randomBytes(32).toString("base64url")`: text of ASCII characters. -/
structure PairingToken where
  text : JsString
  ascii : ∀ u ∈ text, u < 128

/-- The text after encoding as UTF-8 and back: a surrogate without its other half is lost. -/
def toWellFormed : JsString → JsString
  | [] => []
  | [u] => if 0xD800 ≤ u && u ≤ 0xDFFF then [0xFFFD] else [u]
  | u :: v :: s =>
    if 0xD800 ≤ u && u ≤ 0xDBFF && 0xDC00 ≤ v && v ≤ 0xDFFF then u :: v :: toWellFormed s
    else if 0xD800 ≤ u && u ≤ 0xDFFF then 0xFFFD :: toWellFormed (v :: s)
    else u :: toWellFormed (v :: s)

/-- Compare two UTF-8 secrets. -/
def safeEqualSecret (provided expected : JsString) : Bool :=
  toWellFormed provided = toWellFormed expected

def verifyPairingToken (provided expected : JsString) : Bool :=
  if trim provided = [] || trim expected = [] then false else safeEqualSecret provided expected

/-! ## Records -/

/-- Who a token was issued to on behalf of; the only kind there is is `shared-gateway-auth`. -/
structure DeviceAuthTokenIssuer where
  generation : JsString

/-- Bearer token issued to one paired device role. -/
structure DeviceAuthToken where
  token : JsString
  role : JsString
  scopes : List JsString
  issuer : Option DeviceAuthTokenIssuer
  createdAtMs : ℕ+
  rotatedAtMs : Option ℕ+
  revokedAtMs : Option ℕ+
  lastUsedAtMs : Option ℕ+

structure DevicePairingRequest where
  deviceId : JsString
  publicKey : JsString
  displayName : Option JsString
  platform : Option JsString
  deviceFamily : Option JsString
  clientId : Option JsString
  clientMode : Option JsString
  role : Option JsString
  roles : Option (List JsString)
  scopes : Option (List JsString)
  remoteIp : Option JsString
  silent : Option Bool

structure DevicePairingPendingRequest extends DevicePairingRequest where
  requestId : JsString
  isRepair : Option Bool
  ts : ℕ+

/-- Persisted approved device record, including durable approval and active role tokens. -/
structure PairedDevice where
  deviceId : JsString
  publicKey : JsString
  displayName : Option JsString
  platform : Option JsString
  deviceFamily : Option JsString
  clientId : Option JsString
  clientMode : Option JsString
  role : Option JsString
  roles : Option (List JsString)
  scopes : Option (List JsString)
  approvedScopes : Option (List JsString)
  remoteIp : Option JsString
  tokens : Option (KeyedTable DeviceAuthToken.role)
  createdAtMs : ℕ+
  approvedAtMs : ℕ+
  lastSeenAtMs : Option ℕ
  lastSeenReason : Option JsString

/-- Access metadata an approval may bring along. -/
structure DevicePairingAccessMetadata where
  displayName : Option JsString
  remoteIp : Option JsString
  lastSeenAtMs : Option ℕ
  lastSeenReason : Option JsString

structure DevicePairingStateFile where
  pendingById : KeyedTable DevicePairingPendingRequest.requestId
  pairedByDeviceId : KeyedTable PairedDevice.deviceId

/-- What a call takes from outside: the readings of the clock and the tokens it makes, in order, and the id of the
request it may create. -/
structure Surroundings where
  now : ℕ → ℕ+
  randomUUID : JsString
  newToken : ℕ → PairingToken

def PENDING_TTL_MS : ℕ := 5 * 60 * 1000

variable (pendingById : KeyedTable DevicePairingPendingRequest.requestId)

def pruneExpiredPending (nowMs : ℕ+) : KeyedTable DevicePairingPendingRequest.requestId :=
  pendingById.deleteWhere fun req => PENDING_TTL_MS < (nowMs : ℕ) - req.ts

variable (call : Surroundings)

def loadState (stored : DevicePairingStateFile) : DevicePairingStateFile :=
  { stored with pendingById := pruneExpiredPending stored.pendingById (call.now 0) }

variable (deviceId : JsString)

def normalizeDeviceId : JsString :=
  trim deviceId

def normalizeRole (role : Option JsString) : Option JsString :=
  truthy? (role.map trim)

variable (device : PairedDevice)

def listApprovedPairedDeviceRoles : List JsString :=
  (mergeRoles [device.roles.getD [], device.role.toList]).getD []

def resolveRequestedRoles (input : DevicePairingRequest) : List JsString :=
  (mergeRoles [input.roles.getD [], input.role.toList]).getD []

def resolveRequestedScopes (input : DevicePairingRequest) : List JsString :=
  normalizeDeviceAuthScopes input.scopes

def containsStringSet (existing incoming : List JsString) : Bool :=
  incoming.all (existing.contains ·)

/-! ## Requesting -/

variable (existing : DevicePairingPendingRequest)

def pendingApprovalCoversRequest (incoming : DevicePairingRequest) : Bool :=
  if existing.publicKey ≠ incoming.publicKey then false
  else if normalizeRole existing.role ≠ normalizeRole incoming.role then false
  -- Reconnects may request only part of an already merged approval.
  else
    containsStringSet (resolveRequestedRoles existing.toDevicePairingRequest) (resolveRequestedRoles incoming) &&
      containsStringSet (resolveRequestedScopes existing.toDevicePairingRequest) (resolveRequestedScopes incoming)

def refreshPendingDevicePairingRequest (incoming : DevicePairingRequest)
    (isRepair : Bool) : DevicePairingPendingRequest :=
  { existing with
    publicKey := incoming.publicKey
    displayName := incoming.displayName <|> existing.displayName
    platform := incoming.platform <|> existing.platform
    deviceFamily := incoming.deviceFamily <|> existing.deviceFamily
    clientId := incoming.clientId <|> existing.clientId
    clientMode := incoming.clientMode <|> existing.clientMode
    remoteIp := incoming.remoteIp <|> existing.remoteIp
    -- If either request is interactive, keep the pending request visible for approval.
    silent := some (existing.silent.getD false && incoming.silent.getD false)
    isRepair := some (existing.isRepair.getD false || isRepair)
    -- Preserve the original creation timestamp so that reconnects cannot bump this request's queue position.
    ts := existing.ts }

def resolveSupersededPendingSilent (existing : List DevicePairingPendingRequest)
    (incomingSilent : Option Bool) : Bool :=
  incomingSilent.getD false && existing.all fun pending => pending.silent == some true

def buildPendingDevicePairingRequest (isRepair : Bool) (req : DevicePairingRequest) : DevicePairingPendingRequest :=
  let role := normalizeRole req.role
  { req with
    requestId := call.randomUUID
    deviceId := deviceId
    role := role
    roles := mergeRoles [req.roles.getD [], role.toList]
    scopes := mergeScopes [req.scopes]
    isRepair := some isRepair
    ts := call.now 1 }

structure PendingPairingRequestResult (ρ : Type*) where
  request : ρ
  created : Bool

def reconcilePendingPairingRequests {ρ ι : Type*} {requestId : ρ → JsString} (pendingById : KeyedTable requestId)
    (existing : List ρ) (incoming : ι) (canRefreshSingle : ρ → ι → Bool) (refreshSingle : ρ → ι → ρ)
    (buildReplacement : List ρ → ι → ρ) : PendingPairingRequestResult ρ × KeyedTable requestId :=
  match existing.head?.filter fun single => existing.length = 1 && canRefreshSingle single incoming with
  | some single =>
    let refreshed := refreshSingle single incoming
    (⟨refreshed, false⟩, pendingById.upsert refreshed)
  | none =>
    let kept := existing.foldl (fun table pending => table.deleteWhere (requestId · = requestId pending)) pendingById
    let request := buildReplacement existing incoming
    (⟨request, true⟩, kept.upsert request)

def buildReplacementRequest (isRepair : Bool)
    (existing : List DevicePairingPendingRequest) (incoming : DevicePairingRequest) : DevicePairingPendingRequest :=
  let mergedRoles := mergeRoles ((existing.flatMap fun pending => [pending.roles.getD [], pending.role.toList]) ++
    [incoming.roles.getD [], incoming.role.toList])
  let mergedScopes := mergeScopes (existing.map (·.scopes) ++ [incoming.scopes])
  buildPendingDevicePairingRequest call deviceId isRepair
    { incoming with
      role := normalizeRole incoming.role <|> existing.head?.bind (·.role)
      roles := mergedRoles
      scopes := mergedScopes
      -- if any previous pending request was interactive, keep this one interactive
      silent := some (resolveSupersededPendingSilent existing incoming.silent) }

variable (state : DevicePairingStateFile) (deviceId : JsString)

def pendingForDevice : List DevicePairingPendingRequest :=
  (state.pendingById.rows.filter (·.deviceId = deviceId)).insertionSort fun left right => right.ts ≤ left.ts

def requestDevicePairing (req : DevicePairingRequest) (stored : DevicePairingStateFile) :
    Except JsString (PendingPairingRequestResult DevicePairingPendingRequest) × DevicePairingStateFile :=
  let state := loadState call stored
  let deviceId := normalizeDeviceId req.deviceId
  if deviceId = [] then (.error (js "deviceId required"), stored)
  else
    let isRepair := (state.pairedByDeviceId.get? deviceId).isSome
    let reconciled := reconcilePendingPairingRequests state.pendingById (pendingForDevice state deviceId) req
      pendingApprovalCoversRequest (refreshPendingDevicePairingRequest · · isRepair)
      (buildReplacementRequest call deviceId isRepair)
    (.ok reconciled.1, { stored with pendingById := reconciled.2 })

/-! ## Approval -/

/-- Authorization failure categories for owner approval and bootstrap approval flows. -/
inductive DevicePairingForbiddenReason
  | callerScopesRequired
  | callerMissingScope
  | scopeOutsideRequestedRoles
  | bootstrapRoleNotAllowed
  | bootstrapScopeNotAllowed

/-- Structured forbidden result with the missing/disallowed role or scope when known. -/
structure DevicePairingForbiddenResult where
  reason : DevicePairingForbiddenReason
  scope : Option JsString
  role : Option JsString

inductive ApproveDevicePairingResult
  | approved (requestId : JsString) (device : PairedDevice)
  | forbidden (result : DevicePairingForbiddenResult)
  | notFound

/-- What the caller of an approval brings along. -/
structure ApproveOptions where
  callerScopes : Option (List JsString)
  accessMetadata : Option DevicePairingAccessMetadata

/-- `existing?.approvedScopes ?? existing?.scopes`. -/
def approvedOrScopes (existing : Option PairedDevice) : Option (List JsString) :=
  existing.bind fun device => device.approvedScopes <|> device.scopes

variable (role : JsString) (pending : DevicePairingPendingRequest) (existingToken : Option DeviceAuthToken)

def requestedScopeDelta (existing : Option PairedDevice) : List JsString :=
  let pendingScopes := resolveRoleScopedDeviceTokenScopes role pending.scopes
  let approvedBaseline := resolveRoleScopedDeviceTokenScopes role (approvedOrScopes existing)
  if existingToken.isSome && !approvedBaseline.isEmpty then
    pendingScopes.filter fun scope => !approvedBaseline.contains scope
  else pendingScopes

def resolveApprovedTokenScopes (approvedScopes : Option (List JsString))
    (existing : Option PairedDevice) : List JsString :=
  if (resolveRoleScopedDeviceTokenScopes role pending.scopes).isEmpty then
    resolveRoleScopedDeviceTokenScopes role
      (existingToken.map (·.scopes) <|> approvedScopes <|> approvedOrScopes existing)
  else
    let delta := requestedScopeDelta role pending existingToken existing
    match existingToken.filter fun _ => delta.isEmpty with
    | some token => resolveRoleScopedDeviceTokenScopes role (some token.scopes)
    | none => resolveRoleScopedDeviceTokenScopes role (mergeScopes [existingToken.map (·.scopes), some delta])

variable (pending : DevicePairingPendingRequest) (existing : Option PairedDevice)

def buildApprovedPairedDevice
    (roles approvedScopes : Option (List JsString)) (tokens : KeyedTable DeviceAuthToken.role) (now : ℕ+)
    (accessMetadata : Option DevicePairingAccessMetadata) : PairedDevice where
  deviceId := pending.deviceId
  publicKey := pending.publicKey
  displayName := accessMetadata.bind (·.displayName) <|> pending.displayName
  platform := pending.platform
  deviceFamily := pending.deviceFamily
  clientId := pending.clientId
  clientMode := pending.clientMode
  role := pending.role
  roles := roles
  scopes := approvedScopes
  approvedScopes := approvedScopes
  remoteIp := accessMetadata.bind (·.remoteIp) <|> pending.remoteIp
  tokens := some tokens
  createdAtMs := (existing.map (·.createdAtMs)).getD now
  approvedAtMs := now
  lastSeenAtMs := accessMetadata.bind (·.lastSeenAtMs) <|> existing.bind (·.lastSeenAtMs)
  lastSeenReason := accessMetadata.bind (·.lastSeenReason) <|> existing.bind (·.lastSeenReason)

/-- `existing?.tokens ? { ...existing.tokens } : {}`. -/
def existingTokens : KeyedTable DeviceAuthToken.role :=
  (existing.bind (·.tokens)).getD empty

def issueTokens (entryFor : ℕ → JsString → Option DeviceAuthToken → DeviceAuthToken) (roles : List JsString)
    (tokens : KeyedTable DeviceAuthToken.role) : KeyedTable DeviceAuthToken.role :=
  roles.zipIdx.foldl (fun tokens item => tokens.upsert (entryFor item.2 item.1 (tokens.get? item.1))) tokens

/-- The token an approval writes for the `i`-th role it grants. -/
def approvedToken (scopesFor : JsString → List JsString) (i : ℕ) (role : JsString)
    (existingToken : Option DeviceAuthToken) : DeviceAuthToken where
  token := (call.newToken i).text
  role := role
  scopes := scopesFor role
  issuer := none
  createdAtMs := (existingToken.map (·.createdAtMs)).getD (call.now (i + 2))
  rotatedAtMs := existingToken.map fun _ => call.now (i + 2)
  revokedAtMs := none
  lastUsedAtMs := existingToken.bind (·.lastUsedAtMs)

def callerRefusal (callerScopes : Option (List JsString)) (pending : DevicePairingPendingRequest)
    (scopesFor : JsString → List JsString) (roleForToken : JsString) : Option DevicePairingForbiddenResult :=
  let nextScopes := scopesFor roleForToken
  if roleForToken = OPERATOR_ROLE && !nextScopes.isEmpty then
    let callerRequiredScopes := (mergeScopes
      [some (resolveRoleScopedDeviceTokenScopes roleForToken pending.scopes), some nextScopes]).getD nextScopes
    match callerScopes with
    | none => some ⟨.callerScopesRequired, callerRequiredScopes.head?, none⟩
    | some allowed =>
      (resolveMissingRequestedScope OPERATOR_ROLE callerRequiredScopes allowed).map fun missingScope =>
        ⟨.callerMissingScope, some missingScope, none⟩
  else none

def approvalScopesFor (roleForToken : JsString) : List JsString :=
  resolveApprovedTokenScopes roleForToken pending ((existingTokens existing).get? roleForToken)
    (mergeScopes [approvedOrScopes existing, pending.scopes]) existing

def rolesAfterApproval : Option (List JsString) :=
  mergeRoles [(existing.bind (·.roles)).getD [], (existing.bind (·.role)).toList, pending.roles.getD [],
    pending.role.toList]

variable (accessMetadata : Option DevicePairingAccessMetadata)

def approvedDevice : PairedDevice :=
  let approvedScopes := mergeScopes [approvedOrScopes existing, pending.scopes]
  let tokens := issueTokens (approvedToken call (approvalScopesFor pending existing))
    (resolveRequestedRoles pending.toDevicePairingRequest) (existingTokens existing)
  buildApprovedPairedDevice pending existing (rolesAfterApproval pending existing) approvedScopes tokens (call.now 1)
    accessMetadata

variable (requestId : JsString)

/-- `delete state.pendingById[requestId]; state.pairedByDeviceId[device.deviceId] = device`. -/
def settleRequest (device : PairedDevice) : DevicePairingStateFile where
  pendingById := state.pendingById.deleteWhere (·.requestId = requestId)
  pairedByDeviceId := state.pairedByDeviceId.upsert device

/-- Approve a pending request with optional caller-scope checks for operator grants. -/
def approveDevicePairing (options : Option ApproveOptions)
    (stored : DevicePairingStateFile) : ApproveDevicePairingResult × DevicePairingStateFile :=
  let state := loadState call stored
  match state.pendingById.get? requestId with
  | none => (.notFound, stored)
  | some pending =>
    let requestedRoles := resolveRequestedRoles pending.toDevicePairingRequest
    match resolveScopeOutsideRequestedRoles requestedRoles (normalizeDeviceAuthScopes pending.scopes) with
    | some roleMismatchScope => (.forbidden ⟨.scopeOutsideRequestedRoles, some roleMismatchScope, none⟩, stored)
    | none =>
      let existing := state.pairedByDeviceId.get? pending.deviceId
      match requestedRoles.findSome?
          (callerRefusal (options.bind (·.callerScopes)) pending (approvalScopesFor pending existing)) with
      | some refusal => (.forbidden refusal, stored)
      | none =>
        let device := approvedDevice call pending existing (options.bind (·.accessMetadata))
        (.approved requestId device, settleRequest state requestId device)

def buildDeviceAuthToken (token : PairingToken) (role : JsString) (scopes : List JsString)
    (issuer : Option DeviceAuthTokenIssuer) (existing : Option DeviceAuthToken) (preserveExistingIssuer : Bool)
    (now : ℕ+) (rotatedAtMs : Option ℕ+) : DeviceAuthToken where
  token := token.text
  role := role
  scopes := scopes
  issuer := issuer <|> (if preserveExistingIssuer then existing.bind (·.issuer) else none)
  createdAtMs := (existing.map (·.createdAtMs)).getD now
  rotatedAtMs := rotatedAtMs
  revokedAtMs := none
  lastUsedAtMs := existing.bind (·.lastUsedAtMs)

/-- The token a bootstrap approval writes for the `i`-th role it grants. -/
def bootstrapToken (grantedScopes : List JsString) (i : ℕ) (roleForToken : JsString)
    (existingToken : Option DeviceAuthToken) : DeviceAuthToken :=
  let tokenScopes :=
    if roleForToken = OPERATOR_ROLE then resolveBootstrapProfileScopesForRole roleForToken grantedScopes else []
  buildDeviceAuthToken (call.newToken i) roleForToken tokenScopes none existingToken false (call.now 1)
    (existingToken.map fun _ => call.now 1)

/-- The scopes of a device that a bootstrap approval leaves alone: those of the roles it does not grant. -/
def preservedExistingScopes (requestedRoles : List JsString) (existing : Option PairedDevice) : List JsString :=
  let existingRoles := (mergeRoles [(existing.bind (·.roles)).getD [], (existing.bind (·.role)).toList]).getD []
  existingRoles.flatMap fun existingRole =>
    if requestedRoles.contains existingRole then []
    else preserveRoleScopedApprovalScopes existingRole (approvedOrScopes existing)

def bootstrapDevice : PairedDevice :=
  let grantedRoles := resolveRequestedRoles pending.toDevicePairingRequest
  let grantedScopes := resolveBootstrapProfileScopesForRoles grantedRoles (pending.scopes.getD [])
  let nextApprovedScopes := mergeScopes [some (preservedExistingScopes grantedRoles existing), some grantedScopes]
  let tokens := issueTokens (bootstrapToken call grantedScopes) grantedRoles (existingTokens existing)
  buildApprovedPairedDevice pending existing (rolesAfterApproval pending existing) nextApprovedScopes tokens
    (call.now 1)
    accessMetadata

variable (bootstrapProfile : DeviceBootstrapProfile)

def handoffScopes : List JsString :=
  resolveBootstrapProfileScopesForRoles ((mergeRoles [bootstrapProfile.roles]).getD []) bootstrapProfile.scopes

def approveBootstrapDevicePairing (accessMetadata : Option DevicePairingAccessMetadata)
    (stored : DevicePairingStateFile) : ApproveDevicePairingResult × DevicePairingStateFile :=
  let approvedRoles := (mergeRoles [bootstrapProfile.roles]).getD []
  let approvedScopes := handoffScopes bootstrapProfile
  let state := loadState call stored
  match state.pendingById.get? requestId with
  | none => (.notFound, stored)
  | some pending =>
    let requestedRoles := resolveRequestedRoles pending.toDevicePairingRequest
    match requestedRoles.find? fun role => !approvedRoles.contains role with
    | some missingRole => (.forbidden ⟨.bootstrapRoleNotAllowed, none, some missingRole⟩, stored)
    | none =>
      let requestedOperatorScopes := (normalizeDeviceAuthScopes pending.scopes).filter isOperatorScope
      match resolveMissingRequestedScope OPERATOR_ROLE requestedOperatorScopes approvedScopes with
      | some missingScope => (.forbidden ⟨.bootstrapScopeNotAllowed, some missingScope, none⟩, stored)
      | none =>
        let device := bootstrapDevice call pending (state.pairedByDeviceId.get? pending.deviceId) accessMetadata
        (.approved requestId device, settleRequest state requestId device)

/-! ## Rejection and removal -/

variable (stored : DevicePairingStateFile)

def rejectDevicePairing : Option (JsString × JsString) × DevicePairingStateFile :=
  let state := loadState call stored
  match state.pendingById.get? requestId with
  | none => (none, stored)
  | some pending =>
    (some (requestId, pending.deviceId),
      { stored with pendingById := state.pendingById.deleteWhere (·.requestId = requestId) })

/-- The store without a device and its pending requests. -/
def dropDevice : DevicePairingStateFile where
  pendingById := state.pendingById.deleteWhere (·.deviceId = deviceId)
  pairedByDeviceId := state.pairedByDeviceId.deleteWhere (·.deviceId = deviceId)

def removePairedDevice : Option JsString × DevicePairingStateFile :=
  let state := loadState call stored
  let normalized := normalizeDeviceId deviceId
  if normalized = [] || (state.pairedByDeviceId.get? normalized).isNone then (none, stored)
  else
    (some normalized, dropDevice state normalized)

structure RemovedRole where
  deviceId : JsString
  role : JsString
  removedDevice : Bool

def preservedScopes (remainingRoles : List JsString) (scopes : Option (List JsString)) : Option (List JsString) :=
  scopes.bind fun scopes =>
    mergeScopes (remainingRoles.map fun entry => some (preserveRoleScopedApprovalScopes entry (some scopes)))

def withoutRole (pending : DevicePairingPendingRequest) : DevicePairingPendingRequest :=
  let nextPendingRoles := (resolveRequestedRoles pending.toDevicePairingRequest).filter (· ≠ role)
  { pending with
    role := nextPendingRoles.head?
    roles := some nextPendingRoles
    scopes := preservedScopes nextPendingRoles pending.scopes }

def dropPendingRole (deviceId role : JsString) : KeyedTable DevicePairingPendingRequest.requestId :=
  let concerns := fun (pending : DevicePairingPendingRequest) =>
    pending.deviceId = deviceId && (resolveRequestedRoles pending.toDevicePairingRequest).contains role
  let kept := pendingById.deleteWhere fun pending =>
    concerns pending && ((resolveRequestedRoles pending.toDevicePairingRequest).filter (· ≠ role)).isEmpty
  kept.updateWhere concerns (withoutRole role) fun _ => rfl

def deviceWithoutRole : PairedDevice :=
  let tokens := (device.tokens.getD empty).deleteWhere (·.role = role)
  let remainingRoles := (listApprovedPairedDeviceRoles device).filter (· ≠ role)
  let preserved := preservedScopes remainingRoles (device.approvedScopes <|> device.scopes)
  { device with
    role := remainingRoles.head?
    roles := some remainingRoles
    scopes := preserved <|> device.scopes
    approvedScopes := preserved <|> device.approvedScopes
    tokens := if tokens.rows.isEmpty then none else some tokens }

def removePairedDeviceRole (deviceId role : JsString) (stored : DevicePairingStateFile) :
    Option RemovedRole × DevicePairingStateFile :=
  let state := loadState call stored
  let normalizedDeviceId := normalizeDeviceId deviceId
  match state.pairedByDeviceId.get? normalizedDeviceId, normalizeRole (some role) with
  | some device, some role =>
    if (listApprovedPairedDeviceRoles device).contains role then
      if ((listApprovedPairedDeviceRoles device).filter (· ≠ role)).isEmpty then
        (some ⟨normalizedDeviceId, role, true⟩, dropDevice state normalizedDeviceId)
      else
        (some ⟨normalizedDeviceId, role, false⟩,
          { pendingById := dropPendingRole state.pendingById normalizedDeviceId role
            pairedByDeviceId := state.pairedByDeviceId.upsert (deviceWithoutRole device role) })
    else (none, stored)
  | _, _ => (none, stored)

structure PairedDeviceMetadataPatch where
  displayName : Option (Option JsString)
  platform : Option (Option JsString)
  clientId : Option (Option JsString)
  clientMode : Option (Option JsString)
  remoteIp : Option (Option JsString)
  lastSeenAtMs : Option (Option ℕ)
  lastSeenReason : Option (Option JsString)

def refreshMetadata (existing : PairedDevice) (patch : PairedDeviceMetadataPatch) : PairedDevice :=
  { existing with
    displayName := patch.displayName.getD existing.displayName
    platform := patch.platform.getD existing.platform
    clientId := patch.clientId.getD existing.clientId
    clientMode := patch.clientMode.getD existing.clientMode
    remoteIp := patch.remoteIp.getD existing.remoteIp
    lastSeenAtMs := patch.lastSeenAtMs.getD existing.lastSeenAtMs
    lastSeenReason := patch.lastSeenReason.getD existing.lastSeenReason }

/-- Update non-auth metadata for a paired device presence/status refresh. -/
def updatePairedDeviceMetadata (patch : PairedDeviceMetadataPatch)
    (stored : DevicePairingStateFile) : Bool × DevicePairingStateFile :=
  let state := loadState call stored
  match state.pairedByDeviceId.get? (normalizeDeviceId deviceId) with
  | none => (false, stored)
  | some existing =>
    (true, { stored with pairedByDeviceId := state.pairedByDeviceId.upsert (refreshMetadata existing patch) })

/-! ## Tokens -/

def resolveApprovedDeviceScopeBaseline : Option (List JsString) :=
  (device.approvedScopes <|> device.scopes).map fun baseline => normalizeDeviceAuthScopes (some baseline)

def scopesWithinApprovedDeviceBaseline (scopes : List JsString) (approvedScopes : Option (List JsString)) : Bool :=
  match approvedScopes with
  | none => false
  | some approvedScopes => roleScopesAllow role scopes approvedScopes

def BROWSER_DEVICE_CLIENT_IDS : List JsString := [js "openclaw-control-ui", js "webchat-ui"]
def BROWSER_DEVICE_CLIENT_MODE : JsString := js "webchat"

def isBrowserRelatedPairedDevice [LowerCase] (device : PairedDevice) : Bool :=
  let lowered := fun (value : Option JsString) => value.map fun text => toLowerCase (trim text)
  lowered device.clientMode == some BROWSER_DEVICE_CLIENT_MODE ||
    (lowered device.clientId).any (BROWSER_DEVICE_CLIENT_IDS.contains ·)

structure VerifyDeviceTokenParams where
  deviceId : JsString
  token : JsString
  role : JsString
  scopes : List JsString
  requiredSharedGatewaySessionGeneration : Option JsString

/-- Why a token is refused. -/
inductive VerifyDeviceTokenDenyReason
  | deviceNotPaired
  | roleMissing
  | tokenMissing
  | tokenRevoked
  | tokenMismatch
  | issuerGenerationStale
  | legacyBrowserToken
  | scopeMismatch

/-- `entry.lastUsedAtMs = now; …; state.pairedByDeviceId[device.deviceId] = device`. -/
def markTokenUsed (entry : DeviceAuthToken) (now : ℕ+) : PairedDevice :=
  { device with
    tokens := some ((device.tokens.getD empty).upsert { entry with lastUsedAtMs := some now })
    lastSeenAtMs := some now
    lastSeenReason := some (js "device-token-auth") }

/-- Verify a device role token, scope it to the approval baseline, and mark last use. -/
def verifyDeviceToken [LowerCase] (call : Surroundings) (params : VerifyDeviceTokenParams)
    (stored : DevicePairingStateFile) :
    Except VerifyDeviceTokenDenyReason (Option DeviceAuthTokenIssuer) × DevicePairingStateFile :=
  let state := loadState call stored
  match state.pairedByDeviceId.get? (normalizeDeviceId params.deviceId) with
  | none => (.error .deviceNotPaired, stored)
  | some device =>
    match normalizeRole (some params.role) with
    | none => (.error .roleMissing, stored)
    | some role =>
      match device.tokens.bind (·.get? role) with
      | none => (.error .tokenMissing, stored)
      | some entry =>
        if entry.revokedAtMs.isSome then (.error .tokenRevoked, stored)
        else if !verifyPairingToken params.token entry.token then (.error .tokenMismatch, stored)
        else if entry.issuer.any fun issuer =>
          some issuer.generation ≠ params.requiredSharedGatewaySessionGeneration then
          (.error .issuerGenerationStale, stored)
        else if entry.issuer.isNone && params.requiredSharedGatewaySessionGeneration.isSome &&
            isBrowserRelatedPairedDevice device then
          (.error .legacyBrowserToken, stored)
        else if !scopesWithinApprovedDeviceBaseline role entry.scopes (resolveApprovedDeviceScopeBaseline device) then
          (.error .scopeMismatch, stored)
        else if !roleScopesAllow role (normalizeDeviceAuthScopes (some params.scopes)) entry.scopes then
          (.error .scopeMismatch, stored)
        else
          (.ok entry.issuer,
            { stored with
              pairedByDeviceId := state.pairedByDeviceId.upsert (markTokenUsed device entry (call.now 1)) })

def deviceTokenIssuerMatches (entry : DeviceAuthToken) (issuer : Option DeviceAuthTokenIssuer) : Bool :=
  match issuer with
  | none => entry.issuer.isNone
  | some issuer => entry.issuer.any fun own => own.generation = issuer.generation

structure DeviceTokenUpdateContext where
  device : PairedDevice
  role : JsString
  tokens : KeyedTable DeviceAuthToken.role
  existing : Option DeviceAuthToken

def resolveDeviceTokenUpdateContext (deviceId role : JsString) : Option DeviceTokenUpdateContext :=
  match state.pairedByDeviceId.get? (normalizeDeviceId deviceId), normalizeRole (some role) with
  | some device, some role =>
    -- Token issuance and rotation must stay inside the role set that pairing approval recorded for this device.
    if (listApprovedPairedDeviceRoles device).contains role then
      let tokens := device.tokens.getD empty
      some ⟨device, role, tokens, tokens.get? role⟩
    else none
  | _, _ => none

/-- `tokens[role] = next; device.tokens = tokens; state.pairedByDeviceId[device.deviceId] = device`. -/
def storeToken (context : DeviceTokenUpdateContext) (next : DeviceAuthToken) : DevicePairingStateFile :=
  { stored with
    pairedByDeviceId :=
      stored.pairedByDeviceId.upsert { context.device with tokens := some (context.tokens.upsert next) } }

structure EnsureDeviceTokenParams where
  deviceId : JsString
  role : JsString
  scopes : List JsString
  issuer : Option DeviceAuthTokenIssuer

/-- Return a reusable token for a role or issue one within the approved scope baseline. -/
def ensureDeviceToken (params : EnsureDeviceTokenParams) (stored : DevicePairingStateFile) :
    Option DeviceAuthToken × DevicePairingStateFile :=
  let state := loadState call stored
  let requestedScopes := normalizeDeviceAuthScopes (some params.scopes)
  match resolveDeviceTokenUpdateContext state params.deviceId params.role with
  | none => (none, stored)
  | some context =>
    let approvedScopes := resolveApprovedDeviceScopeBaseline context.device
    if !scopesWithinApprovedDeviceBaseline context.role requestedScopes approvedScopes then (none, stored)
    else
      let reusable := context.existing.filter fun existing =>
        existing.revokedAtMs.isNone &&
          (scopesWithinApprovedDeviceBaseline context.role existing.scopes approvedScopes &&
            deviceTokenIssuerMatches existing params.issuer &&
            roleScopesAllow context.role requestedScopes existing.scopes)
      match reusable with
      | some existing => (some existing, stored)
      | none =>
        let next := buildDeviceAuthToken (call.newToken 0) context.role requestedScopes params.issuer context.existing
          false (call.now 1) (context.existing.map fun _ => call.now 1)
        (some next, storeToken stored context next)

structure RotateDeviceTokenParams where
  deviceId : JsString
  role : JsString
  scopes : Option (List JsString)
  callerScopes : Option (List JsString)

inductive RotateDeviceTokenDenyReason
  | unknownDeviceOrRole
  | missingApprovedScopeBaseline
  | scopeOutsideApprovedBaseline
  | callerMissingScope (scope : JsString)

/-- Rotate a role token inside the device's approved scope baseline. -/
def rotateDeviceToken (params : RotateDeviceTokenParams) (stored : DevicePairingStateFile) :
    Except RotateDeviceTokenDenyReason DeviceAuthToken × DevicePairingStateFile :=
  let state := loadState call stored
  match resolveDeviceTokenUpdateContext state params.deviceId params.role with
  | none => (.error .unknownDeviceOrRole, stored)
  | some context =>
    let requestedScopes := normalizeDeviceAuthScopes
      (params.scopes <|> context.existing.map (·.scopes) <|> context.device.scopes)
    match resolveApprovedDeviceScopeBaseline context.device with
    | none => (.error .missingApprovedScopeBaseline, stored)
    | some approvedScopes =>
      if !scopesWithinApprovedDeviceBaseline context.role requestedScopes (some approvedScopes) then
        (.error .scopeOutsideApprovedBaseline, stored)
      else
        match params.callerScopes.bind (resolveMissingRequestedScope context.role requestedScopes) with
        | some missingScope => (.error (.callerMissingScope missingScope), stored)
        | none =>
          let next := buildDeviceAuthToken (call.newToken 0) context.role requestedScopes none context.existing true
            (call.now 1) (some (call.now 1))
          (.ok next, storeToken stored context next)

structure RevokeDeviceTokenParams where
  deviceId : JsString
  role : JsString
  callerScopes : Option (List JsString)

inductive RevokeDeviceTokenDenyReason
  | unknownDeviceOrRole
  | callerMissingScope (scope : JsString)

/-- Revoke one active role token after optional caller-scope authorization. -/
def revokeDeviceToken (params : RevokeDeviceTokenParams) (stored : DevicePairingStateFile) :
    Except RevokeDeviceTokenDenyReason DeviceAuthToken × DevicePairingStateFile :=
  let state := loadState call stored
  match resolveDeviceTokenUpdateContext state params.deviceId params.role with
  | none => (.error .unknownDeviceOrRole, stored)
  | some context =>
    match context.existing with
    | none => (.error .unknownDeviceOrRole, stored)
    | some existing =>
      let targetScopes := normalizeDeviceAuthScopes (some existing.scopes)
      match params.callerScopes.bind (resolveMissingRequestedScope context.role targetScopes) with
      | some missingScope => (.error (.callerMissingScope missingScope), stored)
      | none =>
        let entry := { existing with revokedAtMs := some (call.now 1) }
        (.ok entry, storeToken stored context entry)

/-- What can be asked of the store. -/
inductive Operation
  | request (req : DevicePairingRequest)
  | approve (requestId : JsString) (options : Option ApproveOptions)
  | approveBootstrap (requestId : JsString) (profile : DeviceBootstrapProfile)
      (accessMetadata : Option DevicePairingAccessMetadata)
  | reject (requestId : JsString)
  | removeDevice (deviceId : JsString)
  | removeRole (deviceId role : JsString)
  | updateMetadata (deviceId : JsString) (patch : PairedDeviceMetadataPatch)
  | verify (params : VerifyDeviceTokenParams)
  | ensure (params : EnsureDeviceTokenParams)
  | rotate (params : RotateDeviceTokenParams)
  | revoke (params : RevokeDeviceTokenParams)

/-- One operation and what it takes from outside. -/
abbrev Step := Surroundings × Operation

/-- What an operation leaves in the store. -/
def perform [LowerCase] (stored : DevicePairingStateFile) (step : Step) : DevicePairingStateFile :=
  match step.2 with
  | .request req => (requestDevicePairing step.1 req stored).2
  | .approve requestId options => (approveDevicePairing step.1 requestId options stored).2
  | .approveBootstrap requestId profile accessMetadata =>
    (approveBootstrapDevicePairing step.1 requestId profile accessMetadata stored).2
  | .reject requestId => (rejectDevicePairing step.1 requestId stored).2
  | .removeDevice deviceId => (removePairedDevice step.1 deviceId stored).2
  | .removeRole deviceId role => (removePairedDeviceRole step.1 deviceId role stored).2
  | .updateMetadata deviceId patch => (updatePairedDeviceMetadata step.1 deviceId patch stored).2
  | .verify params => (verifyDeviceToken step.1 params stored).2
  | .ensure params => (ensureDeviceToken step.1 params stored).2
  | .rotate params => (rotateDeviceToken step.1 params stored).2
  | .revoke params => (revokeDeviceToken step.1 params stored).2

/-- The store before anything was requested. -/
def emptyState : DevicePairingStateFile :=
  ⟨empty, empty⟩


end ClawWorks.DevicePairing
