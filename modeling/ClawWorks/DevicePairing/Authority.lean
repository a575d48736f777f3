import ClawWorks.DevicePairing.Steps

/-!
# Operator authority

Where the operator scopes of a device come from.
-/

namespace ClawWorks.DevicePairing

open KeyedTable List

/-! ## Grants of merged and filtered lists -/

section Grants

variable {scope : JsString}

theorem operatorGrants_iff {held : List JsString} : OperatorGrants held scope ↔
      isOperatorScope scope ∧ ∃ a ∈ normalizeTrimmedStringList held, isOperatorScope a ∧
        Implies a scope := by
  constructor
  · rintro ⟨hscope, a, ha, himp⟩
    exact ⟨hscope, a, ha, himp.isOperatorScope hscope, himp⟩
  · rintro ⟨hscope, a, ha, -, himp⟩
    exact ⟨hscope, a, ha, himp⟩

theorem not_operatorGrants_nil : ¬ OperatorGrants [] scope := by
  rintro ⟨-, a, ha, -⟩
  cases ha

theorem operatorGrants_of_names {held more : List JsString} (hnames : ∀ a ∈ held, IsName a)
    (h : ∀ a ∈ held, isOperatorScope a → OperatorGrants more a) (hgrants : OperatorGrants held scope) :
    OperatorGrants more scope := by
  obtain ⟨hscope, a, ha, hop, himp⟩ := operatorGrants_iff.mp hgrants
  exact (h a ((mem_normalize_iff hnames).mp ha) hop).imp himp hscope

theorem operatorGrants_mergeScopes {items : List (Option (List JsString))}
    (h : OperatorGrants ((mergeScopes items).getD []) scope) :
    ∃ list, some list ∈ items ∧ OperatorGrants list scope := by
  obtain ⟨hscope, a, ha, himp⟩ := h
  obtain ⟨list, hlist, hin⟩ := mem_normalize_mergeScopes.mp ha
  exact ⟨list, hlist, hscope, a, hin, himp⟩

variable {scopes : Option (List JsString)}

theorem operatorGrants_of_mem_normalize (h : scope ∈ normalizeDeviceAuthScopes scopes)
    (hop : isOperatorScope scope) : OperatorGrants (scopes.getD []) scope :=
  ⟨hop, implied_of_mem_normalize h⟩

theorem operatorGrants_roleScoped {role : JsString}
    (h : OperatorGrants (resolveRoleScopedDeviceTokenScopes role scopes) scope) :
    OperatorGrants (scopes.getD []) scope := by
  refine operatorGrants_of_names
    (fun a ha => isName_of_mem_normalizeDeviceAuthScopes (mem_resolveRoleScopedDeviceTokenScopes.mp ha).1) ?_ h
  intro a ha hop
  exact operatorGrants_of_mem_normalize (mem_resolveRoleScopedDeviceTokenScopes.mp ha).1 hop

theorem operatorGrants_of_allow {requested allowed : List JsString}
    (hallow : roleScopesAllow OPERATOR_ROLE requested allowed) (h : OperatorGrants requested scope) :
    OperatorGrants allowed scope := by
  obtain ⟨hscope, a, ha, -, himp⟩ := operatorGrants_iff.mp h
  exact (roleScopesAllow_operator.mp hallow a ha).imp himp hscope

end Grants

section Approval

variable {pending : DevicePairingPendingRequest} {existing : Option PairedDevice} {scope : JsString}

variable {existingToken : Option DeviceAuthToken} {role : JsString}

theorem mem_requestedScopeDelta : scope ∈ requestedScopeDelta role pending existingToken existing ↔
      scope ∈ resolveRoleScopedDeviceTokenScopes role pending.scopes ∧
        ¬ (existingToken.isSome ∧ scope ∈ resolveRoleScopedDeviceTokenScopes role (approvedOrScopes existing)) := by
  unfold requestedScopeDelta
  simp only []
  cases existingToken with
  | none => simp
  | some token =>
    by_cases hbaseline : resolveRoleScopedDeviceTokenScopes role (approvedOrScopes existing) = []
    · simp [hbaseline]
    · simp [isEmpty_eq_false_iff.mpr hbaseline]

theorem approved_of_no_token_scopes {approvedScopes : Option (List JsString)}
    (h : resolveApprovedTokenScopes role pending existingToken approvedScopes existing = [])
    (hscope : scope ∈ resolveRoleScopedDeviceTokenScopes role pending.scopes) :
    scope ∈ resolveRoleScopedDeviceTokenScopes role (approvedOrScopes existing) := by
  have hsome : (resolveRoleScopedDeviceTokenScopes role pending.scopes).isEmpty = false :=
    isEmpty_eq_false_iff.mpr (ne_nil_of_mem hscope)
  by_contra hnew
  have hdelta : scope ∈ requestedScopeDelta role pending existingToken existing :=
    mem_requestedScopeDelta.mpr ⟨hscope, fun hold => hnew hold.2⟩
  -- a scope that is new to the device would be in the token
  have hmerged : scope ∈ (mergeScopes
      [existingToken.map (·.scopes), some (requestedScopeDelta role pending existingToken existing)]).getD [] := by
    refine mem_mergeScopes.mpr ⟨_, by simp, mem_normalize_of_isName ?_ hdelta⟩
    exact isName_of_mem_normalizeDeviceAuthScopes (mem_resolveRoleScopedDeviceTokenScopes.mp hscope).1
  obtain ⟨hnormal, hkind⟩ := mem_resolveRoleScopedDeviceTokenScopes.mp hscope
  have htoken := mem_resolveRoleScopedDeviceTokenScopes.mpr ⟨mem_normalizeDeviceAuthScopes.mpr
    (.inl (mem_normalize_of_isName (isName_of_mem_normalizeDeviceAuthScopes hnormal) hmerged)), hkind⟩
  have hnone : existingToken.filter (fun _ => (requestedScopeDelta role pending existingToken existing).isEmpty) =
      none := by
    rw [Option.filter_eq_none_iff]
    intro _ _
    rw [isEmpty_eq_false_iff.mpr (ne_nil_of_mem hdelta)]
    exact Bool.false_ne_true
  unfold resolveApprovedTokenScopes at h
  simp only [hsome, Bool.false_eq_true, ↓reduceIte, hnone] at h
  rw [h] at htoken
  cases htoken

variable {callerScopes : Option (List JsString)}

theorem caller_grants {scopesFor : JsString → List JsString}
    (hcaller : callerRefusal callerScopes pending scopesFor OPERATOR_ROLE = none) (hne : scopesFor OPERATOR_ROLE ≠ [])
    (hnames : ∀ a ∈ scopesFor OPERATOR_ROLE, IsName a)
    (hscope : scope ∈ resolveRoleScopedDeviceTokenScopes OPERATOR_ROLE pending.scopes ∨
      scope ∈ scopesFor OPERATOR_ROLE) :
    OperatorGrants (callerScopes.getD []) scope := by
  have hname : IsName scope := by
    rcases hscope with h | h
    · exact isName_of_mem_normalizeDeviceAuthScopes (mem_resolveRoleScopedDeviceTokenScopes.mp h).1
    · exact hnames scope h
  have hrequired : scope ∈ (mergeScopes [some (resolveRoleScopedDeviceTokenScopes OPERATOR_ROLE pending.scopes),
      some (scopesFor OPERATOR_ROLE)]).getD (scopesFor OPERATOR_ROLE) := by
    have hmerged : scope ∈ (mergeScopes [some (resolveRoleScopedDeviceTokenScopes OPERATOR_ROLE pending.scopes),
        some (scopesFor OPERATOR_ROLE)]).getD [] := by
      rcases hscope with h | h
      · exact mem_mergeScopes.mpr ⟨_, by simp, mem_normalize_of_isName hname h⟩
      · exact mem_mergeScopes.mpr ⟨_, mem_cons_of_mem _ (mem_singleton_self _), mem_normalize_of_isName hname h⟩
    exact hmerged
  unfold callerRefusal at hcaller
  simp only [decide_true, Bool.true_and, Bool.not_eq_true', isEmpty_eq_false_iff, hne, ne_eq, not_false_eq_true,
    ↓reduceIte] at hcaller
  cases callerScopes with
  | none => cases hcaller
  | some allowed => exact grants_of_missing_none (Option.map_eq_none_iff.mp hcaller) hname hrequired

theorem isName_of_mem_approvalScopes {role a : JsString} (h : a ∈ approvalScopesFor pending existing role) :
    IsName a := by
  have hscoped : ∀ scopes : Option (List JsString), a ∈ resolveRoleScopedDeviceTokenScopes role scopes → IsName a :=
    fun _ ha => isName_of_mem_normalizeDeviceAuthScopes (mem_resolveRoleScopedDeviceTokenScopes.mp ha).1
  unfold approvalScopesFor resolveApprovedTokenScopes at h
  simp only [] at h
  repeat' split at h
  all_goals exact hscoped _ h

section

variable (hrole : OPERATOR_ROLE ∈ resolveRequestedRoles pending.toDevicePairingRequest)

include hrole

/-- **What the check of the caller covers**: every operator scope of a request for the operator role is granted by the
caller, or the device has it. -/
theorem pending_granted (hcaller : (resolveRequestedRoles pending.toDevicePairingRequest).findSome?
      (callerRefusal callerScopes pending (approvalScopesFor pending existing)) = none)
    (hscope : scope ∈ normalizeDeviceAuthScopes pending.scopes) (hop : isOperatorScope scope) :
    OperatorGrants (callerScopes.getD []) scope ∨ OperatorGrants ((approvedOrScopes existing).getD []) scope := by
  have hcheck := findSome?_eq_none_iff.mp hcaller _ hrole
  have hasked : scope ∈ resolveRoleScopedDeviceTokenScopes OPERATOR_ROLE pending.scopes :=
    mem_resolveRoleScopedDeviceTokenScopes.mpr ⟨hscope, by rw [isScopeKindOf_operator, hop]⟩
  by_cases hnone : approvalScopesFor pending existing OPERATOR_ROLE = []
  · right
    have hbaseline := approved_of_no_token_scopes hnone hasked
    exact operatorGrants_of_mem_normalize (mem_resolveRoleScopedDeviceTokenScopes.mp hbaseline).1 hop
  · left
    exact caller_grants hcheck hnone (fun a => isName_of_mem_approvalScopes) (.inl hasked)

theorem token_granted (hcaller : (resolveRequestedRoles pending.toDevicePairingRequest).findSome?
      (callerRefusal callerScopes pending (approvalScopesFor pending existing)) = none)
    (h : OperatorGrants (approvalScopesFor pending existing OPERATOR_ROLE) scope) :
    OperatorGrants (callerScopes.getD []) scope := by
  have hcheck := findSome?_eq_none_iff.mp hcaller _ hrole
  refine operatorGrants_of_names (fun a => isName_of_mem_approvalScopes) ?_ h
  intro a ha _
  exact caller_grants hcheck (ne_nil_of_mem ha) (fun a => isName_of_mem_approvalScopes) (.inr ha)

end

end Approval

/-! ## Approvals of a run -/

def approvedDeviceId (stored : DevicePairingStateFile) (step : Step) : Option JsString :=
  let approvedIn := fun (result : ApproveDevicePairingResult) =>
    match result with
    | .approved _ device => some device.deviceId
    | _ => none
  match step.2 with
  | .approve requestId options => approvedIn (approveDevicePairing step.1 requestId options stored).1
  | .approveBootstrap requestId profile accessMetadata =>
    approvedIn (approveBootstrapDevicePairing step.1 requestId profile accessMetadata stored).1
  | _ => none

/-- The scopes an approval is given with: the caller's, or those a bootstrap profile may hand off. -/
def approverScopes (operation : Operation) : List JsString :=
  match operation with
  | .approve _ options => (options.bind (·.callerScopes)).getD []
  | .approveBootstrap _ profile _ => handoffScopes profile
  | _ => []

section Runs

variable [LowerCase]

abbrev storeAfter (run : List Step) : DevicePairingStateFile :=
  Runs.after perform emptyState run

def Vouched (run : List Step) (deviceId scope : JsString) : Prop :=
  ∃ before step, before ++ [step] <+: run ∧ approvedDeviceId (storeAfter before) step = some deviceId ∧
    OperatorGrants (approverScopes step.2) scope

/-- What the device's approved scopes satisfy, or an operator token of it that is not revoked. -/
def HoldsScope (device : PairedDevice) (scope : JsString) : Prop :=
  OperatorGrants ((approvedOrScopes (some device)).getD []) scope ∨
    ∃ token, tokenOf device OPERATOR_ROLE = some token ∧ token.revokedAtMs = none ∧ OperatorGrants token.scopes scope

/-- No device holds an operator scope that no approval of the run vouches for. -/
def AuthorityKept (run : List Step) : Prop :=
  ∀ device ∈ (storeAfter run).pairedByDeviceId, ∀ scope, HoldsScope device scope → Vouched run device.deviceId scope

/-- An owner approval that checks what it grants: where it does not ask for the operator role, each operator scope it
asks for is one the caller has, or the device. -/
def ApprovesWithinAuthority (stored : DevicePairingStateFile) (step : Step) : Prop :=
  ∀ requestId options, step.2 = .approve requestId options →
    ∀ pending, (loadState step.1 stored).pendingById.get? requestId = some pending →
      let requestedRoles := resolveRequestedRoles pending.toDevicePairingRequest
      let requestedScopes := resolveRequestedScopes pending.toDevicePairingRequest
      resolveScopeOutsideRequestedRoles requestedRoles requestedScopes = none → OPERATOR_ROLE ∉ requestedRoles →
        ∀ scope ∈ requestedScopes, isOperatorScope scope = true → OperatorGrants (approverScopes step.2) scope ∨
            OperatorGrants ((approvedOrScopes (stored.pairedByDeviceId.get? pending.deviceId)).getD []) scope

end Runs

/-! ## The invariant -/

/-- Whatever the scopes and the operator token of the device satisfy is vouched for. -/
structure WithinAuthority (V : JsString → Prop) (device : PairedDevice) : Prop where
  approved : ∀ scope, OperatorGrants ((approvedOrScopes (some device)).getD []) scope → V scope
  token : ∀ token, tokenOf device OPERATOR_ROLE = some token → ∀ scope, OperatorGrants token.scopes scope → V scope

section Invariant

variable {V W : JsString → Prop} {device : PairedDevice}

theorem WithinAuthority.mono (h : WithinAuthority V device) (hVW : ∀ scope, V scope → W scope) :
    WithinAuthority W device :=
  ⟨fun scope hscope => hVW scope (h.approved scope hscope), fun token htoken scope hscope =>
    hVW scope (h.token token htoken scope hscope)⟩

theorem approved_existing {existing : Option PairedDevice}
    (h : ∀ device, existing = some device → WithinAuthority V device)
    {scope : JsString} (hgrants : OperatorGrants ((approvedOrScopes existing).getD []) scope) : V scope := by
  cases existing with
  | none => exact absurd hgrants not_operatorGrants_nil
  | some device => exact (h device rfl).approved scope hgrants

variable {roles : List JsString} {token : DeviceAuthToken}

theorem operatorToken_issued {entryFor : ℕ → JsString → Option DeviceAuthToken → DeviceAuthToken}
    (hrole : ∀ i role existing, (entryFor i role existing).role = role)
    {existing : Option PairedDevice} (h : ∀ device, existing = some device → WithinAuthority V device)
    (hissued : OPERATOR_ROLE ∈ roles →
      ∀ i old scope, OperatorGrants (entryFor i OPERATOR_ROLE old).scopes scope → V scope)
    (htoken : (issueTokens entryFor roles (existingTokens existing)).get? OPERATOR_ROLE = some token)
    {scope : JsString} (hgrants : OperatorGrants token.scopes scope) : V scope := by
  obtain ⟨hmem, hkey⟩ := mem_of_get? htoken
  rcases mem_issueTokens hrole hmem with ⟨hin, i, old, hentry⟩ | ⟨-, hold⟩
  · rw [hkey] at hin hentry
    rw [hentry] at hgrants
    exact hissued hin i old scope hgrants
  · cases existing with
    | none => exact absurd hold (not_mem_empty token)
    | some device =>
      have hget : tokenOf device OPERATOR_ROLE = some token := get?_eq_some_iff.mpr ⟨hold, hkey⟩
      exact (h device rfl).token token hget scope hgrants

variable {call : Surroundings} {pending : DevicePairingPendingRequest} {existing : Option PairedDevice}
  {accessMetadata : Option DevicePairingAccessMetadata}

theorem approvedOrScopes_build (roles approvedScopes : Option (List JsString))
    (tokens : KeyedTable DeviceAuthToken.role) (now : ℕ+) :
    approvedOrScopes
      (some (buildApprovedPairedDevice pending existing roles approvedScopes tokens now accessMetadata)) =
      approvedScopes := by
  cases approvedScopes <;> rfl

theorem withinAuthority_approved (h : ∀ device, existing = some device → WithinAuthority V device)
    (hpending : ∀ scope ∈ normalizeDeviceAuthScopes pending.scopes, isOperatorScope scope → V scope ∧
      ∀ implied, Implies scope implied → isOperatorScope implied → V implied)
    (htoken : OPERATOR_ROLE ∈ resolveRequestedRoles pending.toDevicePairingRequest →
      ∀ scope, OperatorGrants (approvalScopesFor pending existing OPERATOR_ROLE) scope → V scope) :
    WithinAuthority V (approvedDevice call pending existing accessMetadata) where
  approved := by
    intro scope hgrants
    unfold approvedDevice at hgrants
    rw [approvedOrScopes_build] at hgrants
    obtain ⟨list, hlist, hlistgrants⟩ := operatorGrants_mergeScopes hgrants
    simp only [mem_cons, not_mem_nil, or_false] at hlist
    rcases hlist with hold | hasked
    · refine approved_existing h ?_
      rw [← hold]
      exact hlistgrants
    · obtain ⟨hscope, a, ha, hop, himp⟩ := operatorGrants_iff.mp hlistgrants
      have hnormal : a ∈ normalizeDeviceAuthScopes pending.scopes := by
        rw [← hasked]
        exact mem_normalizeDeviceAuthScopes.mpr (.inl ha)
      exact (hpending a hnormal hop).2 scope himp hscope
  token := by
    intro token hget scope hgrants
    exact operatorToken_issued (fun _ _ _ => rfl) h
      (fun hrole _ _ scope hissued => htoken hrole scope hissued) hget hgrants

theorem bootstrapToken_operator_scopes (call : Surroundings) (grantedScopes : List JsString) (i : ℕ)
    (old : Option DeviceAuthToken) : (bootstrapToken call grantedScopes i OPERATOR_ROLE old).scopes =
      resolveBootstrapProfileScopesForRole OPERATOR_ROLE grantedScopes := by
  change (if OPERATOR_ROLE = OPERATOR_ROLE then resolveBootstrapProfileScopesForRole OPERATOR_ROLE grantedScopes
    else []) = _
  exact if_pos rfl

theorem withinAuthority_bootstrap (h : ∀ device, existing = some device → WithinAuthority V device)
    (hgranted : ∀ scope, OperatorGrants (resolveBootstrapProfileScopesForRoles
      (resolveRequestedRoles pending.toDevicePairingRequest) (pending.scopes.getD [])) scope → V scope) :
    WithinAuthority V (bootstrapDevice call pending existing accessMetadata) where
  approved := by
    intro scope hgrants
    unfold bootstrapDevice at hgrants
    rw [approvedOrScopes_build] at hgrants
    obtain ⟨list, hlist, hlistgrants⟩ := operatorGrants_mergeScopes hgrants
    simp only [mem_cons, Option.some.injEq, not_mem_nil, or_false] at hlist
    rcases hlist with rfl | rfl
    · -- the scopes that are preserved are scopes the device had
      refine approved_existing h (operatorGrants_of_names ?_ ?_ hlistgrants)
      · intro a ha
        obtain ⟨role, -, hrole⟩ := mem_flatMap.mp ha
        split at hrole
        · cases hrole
        · exact isName_of_mem (mem_preserveRoleScopedApprovalScopes.mp hrole).1
      · intro a ha hop
        obtain ⟨role, -, hrole⟩ := mem_flatMap.mp ha
        split at hrole
        · cases hrole
        · exact ⟨hop, a, (mem_preserveRoleScopedApprovalScopes.mp hrole).1, Implies.refl a⟩
    · exact hgranted scope hlistgrants
  token := by
    intro token hget scope hgrants
    have hget' : (issueTokens (bootstrapToken call (resolveBootstrapProfileScopesForRoles
        (resolveRequestedRoles pending.toDevicePairingRequest) (pending.scopes.getD [])))
        (resolveRequestedRoles pending.toDevicePairingRequest) (existingTokens existing)).get? OPERATOR_ROLE =
          some token := hget
    refine operatorToken_issued (fun _ _ _ => rfl) h (fun _ i old scope hissued => hgranted scope ?_) hget' hgrants
    rw [bootstrapToken_operator_scopes] at hissued
    refine operatorGrants_of_names (fun a ha => ?_) (fun a ha hop => ?_) hissued
    · exact isName_of_mem_normalizeDeviceAuthScopes (mem_resolveBootstrapProfileScopesForRole.mp ha).2.1
    · exact operatorGrants_of_mem_normalize (mem_resolveBootstrapProfileScopesForRole.mp ha).2.1 hop

theorem mem_of_preservedScopes {scopes : Option (List JsString)} {scope : JsString}
    (h : scope ∈ normalizeTrimmedStringList ((preservedScopes roles scopes).getD [])) :
    scope ∈ normalizeTrimmedStringList (scopes.getD []) := by
  cases scopes with
  | none => exact h
  | some scopes =>
    obtain ⟨list, hlist, hname⟩ := mem_normalize_mergeScopes.mp h
    obtain ⟨entry, -, hentry⟩ := mem_map.mp hlist
    rw [← Option.some.inj hentry, mem_normalize_iff fun a ha =>
      isName_of_mem (mem_preserveRoleScopedApprovalScopes.mp ha).1] at hname
    exact (mem_preserveRoleScopedApprovalScopes.mp hname).1

theorem operatorGrants_preservedScopes {scopes : Option (List JsString)} {scope : JsString}
    (h : OperatorGrants ((preservedScopes roles scopes).getD []) scope) : OperatorGrants (scopes.getD []) scope :=
  h.mono fun _ => mem_of_preservedScopes

theorem approvedOrScopes_withoutRole (device : PairedDevice) (role : JsString) :
    approvedOrScopes (some (deviceWithoutRole device role)) =
      (preservedScopes ((listApprovedPairedDeviceRoles device).filter (· ≠ role)) (approvedOrScopes (some device)) <|>
        approvedOrScopes (some device)) := by
  unfold approvedOrScopes deviceWithoutRole
  simp only [Option.bind_some]
  generalize preservedScopes _ (device.approvedScopes <|> device.scopes) = preserved
  cases preserved <;> rfl

theorem tokenOf_withoutRole {role other : JsString} (h : tokenOf (deviceWithoutRole device role) other = some token) :
    tokenOf device other = some token ∧ other ≠ role := by
  have hdeleted : ((device.tokens.getD empty).deleteWhere (·.role = role)).get? other = some token := by
    unfold tokenOf deviceWithoutRole at h
    simp only [] at h
    split at h
    · cases h
    · exact h
  obtain ⟨hmem, rfl⟩ := mem_of_get? hdeleted
  obtain ⟨hold, hne⟩ := mem_deleteWhere.mp hmem
  exact ⟨get?_eq_some_iff.mpr ⟨hold, rfl⟩, of_decide_eq_false hne⟩

theorem withinAuthority_withoutRole (h : WithinAuthority V device) (role : JsString) :
    WithinAuthority V (deviceWithoutRole device role) where
  approved := by
    intro scope hgrants
    rw [approvedOrScopes_withoutRole] at hgrants
    cases hpreserved : preservedScopes ((listApprovedPairedDeviceRoles device).filter (· ≠ role))
        (approvedOrScopes (some device)) with
    | none =>
      rw [hpreserved] at hgrants
      exact h.approved scope hgrants
    | some preserved =>
      refine h.approved scope (@operatorGrants_preservedScopes
        ((listApprovedPairedDeviceRoles device).filter (· ≠ role)) _ _ ?_)
      rw [hpreserved] at hgrants ⊢
      exact hgrants
  token := by
    intro token hget scope hgrants
    exact h.token token (tokenOf_withoutRole hget).1 scope hgrants

theorem withinAuthority_withToken (h : WithinAuthority V device) {next : DeviceAuthToken}
    (hnext : next.role = OPERATOR_ROLE → ∀ scope, OperatorGrants next.scopes scope → V scope) :
    WithinAuthority V (withToken device next) where
  approved := h.approved
  token := by
    intro token hget scope hgrants
    rcases tokenOf_withToken hget with ⟨hrole, rfl⟩ | hold
    · exact hnext hrole.symm scope hgrants
    · exact h.token token hold scope hgrants

theorem withinAuthority_baseline (h : WithinAuthority V device) {scopes : List JsString}
    (hscopes : scopesWithinApprovedDeviceBaseline OPERATOR_ROLE scopes (resolveApprovedDeviceScopeBaseline device) =
      true) {scope : JsString} (hgrants : OperatorGrants scopes scope) : V scope := by
  refine h.approved scope ?_
  unfold resolveApprovedDeviceScopeBaseline at hscopes
  cases hbaseline : (device.approvedScopes <|> device.scopes) with
  | none => rw [hbaseline] at hscopes; cases hscopes
  | some baseline =>
    rw [hbaseline] at hscopes
    have hallowed := operatorGrants_normalizeDeviceAuthScopes.mp (operatorGrants_of_allow hscopes hgrants)
    change OperatorGrants ((device.approvedScopes <|> device.scopes).getD []) scope
    rw [hbaseline]
    exact hallowed

end Invariant

/-! ## Runs -/

section Kept

variable [LowerCase] {run : List Step} {step : Step}

theorem Vouched.concat {deviceId scope : JsString} (h : Vouched run deviceId scope) :
    Vouched (run ++ [step]) deviceId scope := by
  obtain ⟨before, approval, hearly, happroved⟩ := h
  exact ⟨before, approval, hearly.trans (prefix_append _ _), happroved⟩

theorem vouched_last {deviceId scope : JsString} (happroved : approvedDeviceId (storeAfter run) step = some deviceId)
    (hgrants : OperatorGrants (approverScopes step.2) scope) : Vouched (run ++ [step]) deviceId scope :=
  ⟨run, step, prefix_rfl, happroved, hgrants⟩

def AllWithin (run : List Step) (stored : DevicePairingStateFile) : Prop :=
  ∀ device ∈ stored.pairedByDeviceId, WithinAuthority (Vouched run device.deviceId) device

theorem AllWithin.existing (h : AllWithin run (storeAfter run)) {deviceId : JsString} :
    ∀ device, (storeAfter run).pairedByDeviceId.get? deviceId = some device →
      WithinAuthority (Vouched (run ++ [step]) deviceId) device := by
  intro device hget
  obtain ⟨hmem, rfl⟩ := mem_of_get? hget
  exact (h device hmem).mono fun _ => Vouched.concat

/-- **One operation creates no authority**, where owner approvals check what they grant. -/
theorem withinAuthority_writes (h : AllWithin run (storeAfter run))
    (hchecked : ApprovesWithinAuthority (storeAfter run) step) {device : PairedDevice}
    (hwrites : Writes step.1 (storeAfter run) step.2 device) :
    WithinAuthority (Vouched (run ++ [step]) device.deviceId) device := by
  obtain ⟨call, operation⟩ := step
  have hold : ∀ device ∈ (storeAfter run).pairedByDeviceId,
      WithinAuthority (Vouched (run ++ [(call, operation)]) device.deviceId) device := fun device hmem =>
    (h device hmem).mono fun _ => Vouched.concat
  cases hwrites with
  | @approved pending options hpending hroles hcaller hloaded =>
    have hlast : approvedDeviceId (storeAfter run) (call, .approve pending.requestId options) =
        some pending.deviceId := by
      unfold approvedDeviceId
      simp only [approve_of_checks hroles hcaller hloaded]
      rfl
    refine withinAuthority_approved h.existing ?_ ?_
    · intro scope hscope hop
      -- the caller has the scope, or the device
      have hsource : OperatorGrants ((options.bind (·.callerScopes)).getD []) scope ∨ OperatorGrants
          ((approvedOrScopes ((storeAfter run).pairedByDeviceId.get? pending.deviceId)).getD []) scope := by
        by_cases hrole : OPERATOR_ROLE ∈ resolveRequestedRoles pending.toDevicePairingRequest
        · exact pending_granted hrole hcaller hscope hop
        · exact hchecked _ _ rfl pending hloaded hroles hrole scope hscope hop
      have hvouched : ∀ implied, Implies scope implied → isOperatorScope implied →
          Vouched (run ++ [(call, .approve pending.requestId options)]) pending.deviceId implied := by
        intro implied himp himplied
        rcases hsource with hcallerHas | hdeviceHas
        · exact vouched_last hlast (hcallerHas.imp himp himplied)
        · exact approved_existing h.existing (hdeviceHas.imp himp himplied)
      exact ⟨hvouched scope (Implies.refl scope) hop, hvouched⟩
    · intro hrole scope hgrants
      exact vouched_last hlast (token_granted hrole hcaller hgrants)
  | @bootstrapped pending profile accessMetadata hpending hroles hscopes hloaded =>
    have hlast : approvedDeviceId (storeAfter run) (call, .approveBootstrap pending.requestId profile accessMetadata) =
        some pending.deviceId := by
      unfold approvedDeviceId
      simp only [approveBootstrap_of_checks hroles hscopes hloaded]
      rfl
    refine withinAuthority_bootstrap h.existing fun scope hgrants => vouched_last hlast ?_
    refine operatorGrants_of_names (fun a ha => ?_) (fun a ha hop => ?_) hgrants
    · exact isName_of_mem_normalizeDeviceAuthScopes (mem_resolveBootstrapProfileScopesForRoles.mp ha).2.1
    · have hnormal := (mem_resolveBootstrapProfileScopesForRoles.mp ha).2.1
      exact grants_of_missing_none hscopes (isName_of_mem_normalizeDeviceAuthScopes hnormal)
        (mem_filter.mpr ⟨hnormal, hop⟩)
  | roleRemoved hnames hleft => exact withinAuthority_withoutRole (hold _ hnames.device_mem) _
  | refreshed hdevice => exact ⟨(hold _ hdevice).approved, (hold _ hdevice).token⟩
  | @used params used entry hdevice hentry =>
    have hused : WithinAuthority (Vouched (run ++ [(call, .verify params)]) used.deviceId)
        (withToken used { entry with lastUsedAtMs := some (call.now 1) }) := by
      refine withinAuthority_withToken (hold used hdevice) fun hrole scope hgrants => ?_
      have hentryRole : entry.role = OPERATOR_ROLE := hrole
      exact (hold used hdevice).token entry (hentryRole ▸ hentry) scope hgrants
    exact ⟨hused.approved, hused.token⟩
  | ensured hnames hscopes | rotated hnames hscopes =>
    refine withinAuthority_withToken (hold _ hnames.device_mem) fun hrole scope hgrants => ?_
    exact withinAuthority_baseline (hold _ hnames.device_mem) (hrole ▸ hscopes) hgrants
  | @revoked params owner role existing hnames hexisting =>
    refine withinAuthority_withToken (hold _ hnames.device_mem) fun hrole scope hgrants => ?_
    have hexistingRole : existing.role = OPERATOR_ROLE := hrole
    obtain ⟨-, hkey⟩ := mem_of_get? hexisting
    rw [← hkey, hexistingRole] at hexisting
    exact (hold _ hnames.device_mem).token existing hexisting scope hgrants

theorem allWithin_run (hchecked : Runs.EachStep perform emptyState ApprovesWithinAuthority run) :
    AllWithin run (storeAfter run) := by
  refine Runs.invariant_of_eachStep ?_ ?_ run hchecked
  · intro device hmem
    exact absurd hmem (not_mem_empty device)
  · intro run step ih happroves device hmem
    rcases mem_paired_perform hmem with hold | hwrites
    · exact (ih device hold).mono fun _ => Vouched.concat
    · exact withinAuthority_writes ih happroves hwrites

/-- **Operator authority is never created** in a run whose owner approvals each check what they grant: a request that
asks for an operator scope without the role `operator` is not approved beyond what the caller and the device have. -/
theorem operator_authority_kept (hchecked : Runs.EachStep perform emptyState ApprovesWithinAuthority run) :
    AuthorityKept run := by
  intro device hmem scope hholds
  have hwithin := allWithin_run hchecked device hmem
  rcases hholds with happroved | ⟨token, htoken, -, hgrants⟩
  · exact hwithin.approved scope happroved
  · exact hwithin.token token htoken scope hgrants

end Kept

/-! ## The request that no caller is asked about -/

def roleRequest (deviceId role : JsString) (scopes : Option (List JsString)) : DevicePairingRequest where
  deviceId := deviceId
  publicKey := js "key"
  displayName := none
  platform := none
  deviceFamily := none
  clientId := none
  clientMode := none
  role := some role
  roles := none
  scopes := scopes
  remoteIp := none
  silent := none

/-- Surroundings at one time, whose request id and tokens begin with a letter. -/
def surroundings (letter : UInt16) (hletter : letter < 128) : Surroundings where
  now _ := 1
  randomUUID := [letter]
  newToken i := ⟨replicate (i + 1) letter, fun _ hu => (mem_replicate.mp hu).2 ▸ hletter⟩

def firstCall : Surroundings := surroundings 97 (by decide)
def secondCall : Surroundings := surroundings 98 (by decide)

section Fixed

attribute [local instance] asciiLowerCase

/-- A request for the role `operator.talk`, approved by a caller without scopes. -/
def talkRun : List Step :=
  [(firstCall,
      .request (roleRequest (js "d") (js "operator.talk") (some [js "operator.talk.secrets"]))),
    (secondCall, .approve [97] none)]

/-- `operator.talk.secrets` is approved for the device, and no caller had it. -/
theorem operator_authority_created : ¬ AuthorityKept talkRun := by
  intro hkept
  have hholds : (storeAfter talkRun).pairedByDeviceId.rows.any (fun device =>
      OperatorGrants ((approvedOrScopes (some device)).getD []) (js "operator.talk.secrets")) = true := by
    decide
  obtain ⟨device, hmem, hgrants⟩ := any_eq_true.mp hholds
  obtain ⟨before, step, hearly, -, hvouched⟩ := hkept device hmem _ (Or.inl (of_decide_eq_true hgrants))
  have hstep : step ∈ talkRun := hearly.subset (by simp)
  have hnone : approverScopes step.2 = [] := by
    unfold talkRun at hstep
    simp only [mem_cons, not_mem_nil, or_false] at hstep
    rcases hstep with rfl | rfl <;> rfl
  rw [hnone] at hvouched
  exact not_operatorGrants_nil hvouched

def operatorRequest : Step :=
  (firstCall, .request (roleRequest (js "d") OPERATOR_ROLE (some [js "operator.read"])))

/-- Its approval by a caller who has more than it asks for. -/
def operatorApproval : Step :=
  (secondCall, .approve [97] (some ⟨some [js "operator.write"], none⟩))

theorem operator_authority_kept_approved : AuthorityKept [operatorRequest, operatorApproval] := by
  refine operator_authority_kept (.cons ?_ (.cons ?_ Runs.eachStep_nil))
  · intro requestId options hstep
    cases hstep
  · intro requestId options hstep pending hget
    have hasks : ((loadState operatorApproval.1 (perform emptyState operatorRequest)).pendingById.get? [97]).all
        (fun pending => OPERATOR_ROLE ∈ resolveRequestedRoles pending.toDevicePairingRequest) = true := by
      decide
    obtain ⟨rfl, -⟩ := Operation.approve.inj hstep
    rw [hget, Option.all_some] at hasks
    exact fun _ hnone => absurd (of_decide_eq_true hasks) hnone

end Fixed


end ClawWorks.DevicePairing
