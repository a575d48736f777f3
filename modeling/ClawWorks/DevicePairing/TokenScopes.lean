import ClawWorks.DevicePairing.Authority

/-!
# Usable tokens

A token is of use while its role is approved for the device and its scopes are within the device's approved scopes;
otherwise `verifyDeviceToken` answers `scope-mismatch`.
-/

namespace ClawWorks.DevicePairing

open List

/-! ## What a baseline allows a role -/

def AllowedFor (role : JsString) (baseline : List JsString) (scope : JsString) : Prop :=
  if role = OPERATOR_ROLE then OperatorGrants baseline scope
  else startsWith scope (role ++ js ".") = true ∧ scope ∈ normalizeDeviceAuthScopes (some baseline)

section Allowed

variable {role scope : JsString} {baseline more : List JsString}

theorem allowedFor_operator : AllowedFor OPERATOR_ROLE baseline scope ↔ OperatorGrants baseline scope := by
  rw [AllowedFor, if_pos rfl]

theorem allowedFor_role (hrole : role ≠ OPERATOR_ROLE) : AllowedFor role baseline scope ↔
      startsWith scope (role ++ js ".") ∧ scope ∈ normalizeDeviceAuthScopes (some baseline) := by
  rw [AllowedFor, if_neg hrole]

section

variable (hmore : ∀ a ∈ normalizeTrimmedStringList baseline, a ∈ normalizeTrimmedStringList more)

include hmore

theorem mem_normalizeDeviceAuthScopes_mono
    (h : scope ∈ normalizeDeviceAuthScopes (some baseline)) : scope ∈ normalizeDeviceAuthScopes (some more) := by
  rw [mem_normalizeDeviceAuthScopes] at h ⊢
  rcases h with h | ⟨himplied, a, ha, himp⟩
  · exact .inl (hmore scope h)
  · exact .inr ⟨himplied, a, hmore a ha, himp⟩

theorem AllowedFor.mono (h : AllowedFor role baseline scope) : AllowedFor role more scope := by
  by_cases hrole : role = OPERATOR_ROLE
  · subst hrole
    exact allowedFor_operator.mpr ((allowedFor_operator.mp h).mono hmore)
  · obtain ⟨hstart, hmem⟩ := (allowedFor_role hrole).mp h
    exact (allowedFor_role hrole).mpr ⟨hstart, mem_normalizeDeviceAuthScopes_mono hmore hmem⟩

end

def WithinBaseline (role : JsString) (scopes : List JsString) (approvedScopes : Option (List JsString)) : Prop :=
  ∃ baseline, approvedScopes = some baseline ∧
    ∀ scope ∈ normalizeTrimmedStringList scopes, AllowedFor role baseline scope

variable {scopes : List JsString}

theorem withinBaseline_iff (hrole : IsName role) {device : PairedDevice} :
    scopesWithinApprovedDeviceBaseline role scopes (resolveApprovedDeviceScopeBaseline device) ↔
      WithinBaseline role scopes (approvedOrScopes (some device)) := by
  change scopesWithinApprovedDeviceBaseline role scopes
    ((approvedOrScopes (some device)).map fun baseline => normalizeDeviceAuthScopes (some baseline)) ↔ _
  unfold WithinBaseline
  cases approvedOrScopes (some device) with
  | none => simp [scopesWithinApprovedDeviceBaseline]
  | some baseline =>
    simp only [Option.map_some, scopesWithinApprovedDeviceBaseline, Option.some.injEq, exists_eq_left']
    by_cases hop : role = OPERATOR_ROLE
    · subst hop
      rw [roleScopesAllow_operator]
      simp only [allowedFor_operator, operatorGrants_normalizeDeviceAuthScopes, Option.getD_some]
    · have htrim : trim role ≠ OPERATOR_ROLE := by rwa [hrole.1]
      rw [roleScopesAllow_role htrim, hrole.1]
      simp only [allowedFor_role hop, mem_normalize_iff fun _ => isName_of_mem_normalizeDeviceAuthScopes]

theorem WithinBaseline.grants {approvedScopes : Option (List JsString)}
    (h : WithinBaseline OPERATOR_ROLE scopes approvedScopes) (hgrants : OperatorGrants scopes scope) :
    OperatorGrants (approvedScopes.getD []) scope := by
  obtain ⟨baseline, rfl, hallowed⟩ := h
  obtain ⟨hscope, a, ha, -, himp⟩ := operatorGrants_iff.mp hgrants
  exact (allowedFor_operator.mp (hallowed a ha)).imp himp hscope

end Allowed

section Approval

variable {pending : DevicePairingPendingRequest} {existing : Option PairedDevice} {role scope : JsString}

theorem mem_roleScoped_of_role (hrole : role ≠ OPERATOR_ROLE) {scopes : Option (List JsString)} :
    scope ∈ resolveRoleScopedDeviceTokenScopes role scopes ↔
      isOperatorScope scope = false ∧ scope ∈ normalizeTrimmedStringList (scopes.getD []) := by
  rw [mem_resolveRoleScopedDeviceTokenScopes, isScopeKindOf_role hrole, Bool.not_eq_true']
  constructor
  · rintro ⟨hmem, hop⟩
    exact ⟨hop, (mem_normalizeDeviceAuthScopes_of_not_operator hop).mp hmem⟩
  · rintro ⟨hop, hmem⟩
    exact ⟨(mem_normalizeDeviceAuthScopes_of_not_operator hop).mpr hmem, hop⟩

theorem mem_normalize_approved (h : scope ∈ normalizeTrimmedStringList
      ((mergeScopes [approvedOrScopes existing, pending.scopes] <|> approvedOrScopes existing).getD [])) :
    scope ∈ normalizeTrimmedStringList ((approvedOrScopes existing).getD []) ∨
      scope ∈ normalizeTrimmedStringList (pending.scopes.getD []) := by
  cases hmerged : mergeScopes [approvedOrScopes existing, pending.scopes] with
  | none =>
    rw [hmerged] at h
    exact .inl h
  | some merged =>
    have hin : scope ∈ normalizeTrimmedStringList
        ((mergeScopes [approvedOrScopes existing, pending.scopes]).getD []) := by
      rw [hmerged] at h ⊢
      exact h
    obtain ⟨list, hlist, hname⟩ := mem_normalize_mergeScopes.mp hin
    simp only [mem_cons, not_mem_nil, or_false] at hlist
    rcases hlist with hold | hasked
    · rw [← hold]
      exact .inl hname
    · rw [← hasked]
      exact .inr hname

/-- **What an approval gives a role that is not the operator**: the scopes of its token, those asked for that are new,
or, where it has no token and asks for none, those of the device. -/
theorem mem_approvalScopes_of_role (hrole : role ≠ OPERATOR_ROLE)
    (h : scope ∈ approvalScopesFor pending existing role) :
    isOperatorScope scope = false ∧
      ((∃ token, (existingTokens existing).get? role = some token ∧ scope ∈ normalizeTrimmedStringList token.scopes) ∨
        scope ∈ requestedScopeDelta role pending ((existingTokens existing).get? role) existing ∨
        ((existingTokens existing).get? role = none ∧ resolveRoleScopedDeviceTokenScopes role pending.scopes = [] ∧
          scope ∈ normalizeTrimmedStringList ((approvedOrScopes existing).getD []))) := by
  unfold approvalScopesFor resolveApprovedTokenScopes at h
  simp only [List.isEmpty_iff] at h
  split at h
  · rename_i hnone
    rw [mem_roleScoped_of_role hrole] at h
    refine ⟨h.1, ?_⟩
    cases htoken : (existingTokens existing).get? role with
    | some token =>
      rw [htoken] at h
      exact .inl ⟨token, rfl, h.2⟩
    | none =>
      rw [htoken] at h
      rcases mem_normalize_approved h.2 with hold | hasked
      · exact .inr (.inr ⟨rfl, hnone, hold⟩)
      · have hrequested := (mem_roleScoped_of_role hrole).mpr ⟨h.1, hasked⟩
        rw [hnone] at hrequested
        cases hrequested
  · split at h
    · rename_i token htoken
      rw [mem_roleScoped_of_role hrole] at h
      exact ⟨h.1, .inl ⟨token, (Option.filter_eq_some_iff.mp htoken).1, h.2⟩⟩
    · rw [mem_roleScoped_of_role hrole, mem_normalize_mergeScopes] at h
      obtain ⟨hop, list, hlist, hname⟩ := h
      refine ⟨hop, ?_⟩
      simp only [List.mem_cons, List.not_mem_nil, or_false] at hlist
      rcases hlist with hold | hnew
      · obtain ⟨token, htoken, rfl⟩ := Option.map_eq_some_iff.mp hold.symm
        exact .inl ⟨token, htoken, hname⟩
      · obtain rfl := Option.some.inj hnew
        refine .inr (.inl ((mem_normalize_iff fun a ha => ?_).mp hname))
        exact isName_of_mem_normalizeDeviceAuthScopes
          (mem_resolveRoleScopedDeviceTokenScopes.mp (mem_requestedScopeDelta.mp ha).1).1

theorem isScopeKindOf_of_mem_approvalScopes (h : scope ∈ approvalScopesFor pending existing role) :
    isScopeKindOf role scope := by
  unfold approvalScopesFor resolveApprovedTokenScopes at h
  simp only [] at h
  repeat' split at h
  all_goals exact (mem_resolveRoleScopedDeviceTokenScopes.mp h).2

theorem approvalScopes_granted {allowed : List JsString}
    (htoken : ∀ token, (existingTokens existing).get? OPERATOR_ROLE = some token →
      ∀ scope, OperatorGrants token.scopes scope → OperatorGrants allowed scope)
    (hold : ∀ scope, OperatorGrants ((approvedOrScopes existing).getD []) scope → OperatorGrants allowed scope)
    (hasked : ∀ scope, OperatorGrants (pending.scopes.getD []) scope → OperatorGrants allowed scope)
    (h : OperatorGrants (approvalScopesFor pending existing OPERATOR_ROLE) scope) : OperatorGrants allowed scope := by
  unfold approvalScopesFor resolveApprovedTokenScopes at h
  simp only [List.isEmpty_iff] at h
  split at h
  · have hgrants := operatorGrants_roleScoped h
    cases hget : (existingTokens existing).get? OPERATOR_ROLE with
    | some token =>
      rw [hget] at hgrants
      exact htoken token hget scope hgrants
    | none =>
      rw [hget] at hgrants
      obtain ⟨hscope, a, ha, himp⟩ := hgrants
      rcases mem_normalize_approved ha with holdmem | haskedmem
      · exact hold scope ⟨hscope, a, holdmem, himp⟩
      · exact hasked scope ⟨hscope, a, haskedmem, himp⟩
  · split at h
    · rename_i token hfilter
      exact htoken token (Option.filter_eq_some_iff.mp hfilter).1 scope (operatorGrants_roleScoped h)
    · obtain ⟨list, hlist, hgrants⟩ := operatorGrants_mergeScopes (operatorGrants_roleScoped h)
      simp only [mem_cons, not_mem_nil, or_false] at hlist
      rcases hlist with htokens | hnew
      · obtain ⟨token, hget, rfl⟩ := Option.map_eq_some_iff.mp htokens.symm
        exact htoken token hget scope hgrants
      · obtain rfl := Option.some.inj hnew
        refine hasked scope (operatorGrants_of_names ?_ ?_ hgrants)
        · intro a ha
          exact isName_of_mem_normalizeDeviceAuthScopes
            (mem_resolveRoleScopedDeviceTokenScopes.mp (mem_requestedScopeDelta.mp ha).1).1
        · intro a ha hop
          exact operatorGrants_of_mem_normalize
            (mem_resolveRoleScopedDeviceTokenScopes.mp (mem_requestedScopeDelta.mp ha).1).1 hop

end Approval

/-! ## The invariant -/

/-- Every token of the device is of use: its role is approved, and its scopes are within the approved scopes. -/
structure Usable (device : PairedDevice) : Prop where
  role : ∀ role token, tokenOf device role = some token → role ∈ listApprovedPairedDeviceRoles device
  scopes : ∀ role token, tokenOf device role = some token →
    WithinBaseline role token.scopes (approvedOrScopes (some device))

theorem isName_of_approved {device : PairedDevice} {role : JsString} (h : role ∈ listApprovedPairedDeviceRoles device) :
    IsName role := by
  obtain ⟨list, -, hname⟩ := mem_mergeRoles.mp h
  exact isName_of_mem hname

theorem isName_of_requested {pending : DevicePairingPendingRequest} {role : JsString}
    (h : role ∈ resolveRequestedRoles pending.toDevicePairingRequest) : IsName role := by
  obtain ⟨list, -, hname⟩ := mem_mergeRoles.mp h
  exact isName_of_mem hname

/-- What an owner approval newly gives a role other than the operator is the role's, and a list of scopes is
recorded. -/
structure GrantsOwnScopes (pending : DevicePairingPendingRequest) (existing : Option PairedDevice) : Prop where
  listed : resolveRequestedRoles pending.toDevicePairingRequest ≠ [] →
    (approvedOrScopes existing).isSome ∨ pending.scopes.isSome
  asked : ∀ role ∈ resolveRequestedRoles pending.toDevicePairingRequest, role ≠ OPERATOR_ROLE →
    ∀ scope ∈ resolveRoleScopedDeviceTokenScopes role pending.scopes,
      ¬ (((existingTokens existing).get? role).isSome ∧
        scope ∈ resolveRoleScopedDeviceTokenScopes role (approvedOrScopes existing)) →
      startsWith scope (role ++ js ".") = true
  inherited : ∀ role ∈ resolveRequestedRoles pending.toDevicePairingRequest, role ≠ OPERATOR_ROLE →
    (existingTokens existing).get? role = none → resolveRoleScopedDeviceTokenScopes role pending.scopes = [] →
      ∀ scope ∈ resolveRoleScopedDeviceTokenScopes role (approvedOrScopes existing),
        startsWith scope (role ++ js ".") = true

def KeepsOperatorScopes (device : PairedDevice) (stays operatorScopeStays : JsString → Prop) : Prop :=
  ∀ role token, tokenOf device role = some token → stays role → role ≠ OPERATOR_ROLE →
    ∀ scope ∈ normalizeTrimmedStringList token.scopes, isOperatorScope scope = true → operatorScopeStays scope

section Kept

variable {call : Surroundings} {pending : DevicePairingPendingRequest} {existing : Option PairedDevice}
  {accessMetadata : Option DevicePairingAccessMetadata} {device : PairedDevice}
  {approvedScopes : Option (List JsString)} {now : ℕ+}

theorem mem_roles_build {tokens : KeyedTable DeviceAuthToken.role}
    {role : JsString} (h : (∃ device, existing = some device ∧ role ∈ listApprovedPairedDeviceRoles device) ∨
      role ∈ resolveRequestedRoles pending.toDevicePairingRequest) :
    role ∈ listApprovedPairedDeviceRoles (buildApprovedPairedDevice pending existing
      (rolesAfterApproval pending existing) approvedScopes tokens now accessMetadata) := by
  have hafter : role ∈ (rolesAfterApproval pending existing).getD [] := by
    refine mem_mergeRoles.mpr ?_
    rcases h with ⟨device, rfl, happroved⟩ | hrequested
    · obtain ⟨list, hlist, hname⟩ := mem_mergeRoles.mp happroved
      simp only [mem_cons, not_mem_nil, or_false] at hlist
      rcases hlist with rfl | rfl
      · exact ⟨_, by simp, hname⟩
      · exact ⟨_, mem_cons_of_mem _ mem_cons_self, hname⟩
    · obtain ⟨list, hlist, hname⟩ := mem_mergeRoles.mp hrequested
      exact ⟨list, mem_cons_of_mem _ (mem_cons_of_mem _ hlist), hname⟩
  obtain ⟨list, hlist, hname⟩ := mem_mergeRoles.mp hafter
  exact mem_mergeRoles.mpr ⟨_, mem_cons_self, mem_normalize_of_isName (isName_of_mem hname) hafter⟩

theorem usable_build {entryFor : ℕ → JsString → Option DeviceAuthToken → DeviceAuthToken}
    (hentry : ∀ i role old, (entryFor i role old).role = role) (h : ∀ device, existing = some device → Usable device)
    (hissued : ∀ role ∈ resolveRequestedRoles pending.toDevicePairingRequest, ∀ i old,
      WithinBaseline role (entryFor i role old).scopes approvedScopes)
    (hkept : ∀ device, existing = some device → ∀ role token, tokenOf device role = some token →
      role ∉ resolveRequestedRoles pending.toDevicePairingRequest → WithinBaseline role token.scopes approvedScopes) :
    Usable (buildApprovedPairedDevice pending existing (rolesAfterApproval pending existing) approvedScopes
      (issueTokens entryFor (resolveRequestedRoles pending.toDevicePairingRequest) (existingTokens existing)) now
      accessMetadata) := by
  have htoken : ∀ role token, tokenOf (buildApprovedPairedDevice pending existing (rolesAfterApproval pending existing)
      approvedScopes (issueTokens entryFor (resolveRequestedRoles pending.toDevicePairingRequest)
        (existingTokens existing)) now accessMetadata) role = some token →
      (role ∈ resolveRequestedRoles pending.toDevicePairingRequest ∧ ∃ i old, token = entryFor i role old) ∨
        (role ∉ resolveRequestedRoles pending.toDevicePairingRequest ∧
          ∃ device, existing = some device ∧ tokenOf device role = some token) := by
    intro role token hget
    obtain ⟨hmem, rfl⟩ := mem_of_get? hget
    rcases mem_issueTokens hentry hmem with ⟨hin, i, old, hnew⟩ | ⟨hout, hold⟩
    · exact .inl ⟨hin, i, old, hnew⟩
    · cases existing with
      | none => exact absurd hold (KeyedTable.not_mem_empty token)
      | some device => exact .inr ⟨hout, device, rfl, KeyedTable.get?_eq_some_iff.mpr ⟨hold, rfl⟩⟩
  constructor
  · intro role token hget
    rcases htoken role token hget with ⟨hin, -⟩ | ⟨-, device, hexisting, hold⟩
    · exact mem_roles_build (.inr hin)
    · exact mem_roles_build (.inl ⟨device, hexisting, (h device hexisting).role role token hold⟩)
  · intro role token hget
    rw [approvedOrScopes_build]
    rcases htoken role token hget with ⟨hin, i, old, rfl⟩ | ⟨hout, device, hexisting, hold⟩
    · exact hissued role hin i old
    · exact hkept device hexisting role token hold hout

theorem withinBaseline_approved {role : JsString} {scopes : List JsString}
    (h : WithinBaseline role scopes (approvedOrScopes existing)) :
    WithinBaseline role scopes (mergeScopes [approvedOrScopes existing, pending.scopes]) := by
  obtain ⟨baseline, hbaseline, hallowed⟩ := h
  have hsome : (mergeScopes [approvedOrScopes existing, pending.scopes]).isSome := by
    rw [isSome_mergeScopes, hbaseline]
    rfl
  obtain ⟨merged, hmerged⟩ := Option.isSome_iff_exists.mp hsome
  refine ⟨merged, hmerged, fun scope hscope => (hallowed scope hscope).mono fun a ha => ?_⟩
  have hin : a ∈ normalizeTrimmedStringList ((mergeScopes [approvedOrScopes existing, pending.scopes]).getD []) :=
    mem_normalize_mergeScopes.mpr ⟨baseline, by simp [hbaseline], ha⟩
  rw [hmerged] at hin
  exact hin

theorem existingTokens_get {role : JsString} {token : DeviceAuthToken}
    (h : (existingTokens existing).get? role = some token) :
    ∃ device, existing = some device ∧ tokenOf device role = some token := by
  cases existing with
  | none => cases h
  | some device => exact ⟨device, rfl, h⟩

theorem withinBaseline_issued (h : ∀ device, existing = some device → Usable device)
    (hown : GrantsOwnScopes pending existing) {role : JsString}
    (hrole : role ∈ resolveRequestedRoles pending.toDevicePairingRequest) :
    WithinBaseline role (approvalScopesFor pending existing role)
      (mergeScopes [approvedOrScopes existing, pending.scopes]) := by
  have hsome : (mergeScopes [approvedOrScopes existing, pending.scopes]).isSome := by
    rw [isSome_mergeScopes]
    simpa using hown.listed (ne_nil_of_mem hrole)
  obtain ⟨merged, hmerged⟩ := Option.isSome_iff_exists.mp hsome
  have hin : ∀ {list : List JsString} {a : JsString}, some list ∈ [approvedOrScopes existing, pending.scopes] →
      a ∈ normalizeTrimmedStringList list → a ∈ normalizeTrimmedStringList merged := by
    intro list a hlist ha
    have hall := mem_normalize_mergeScopes.mpr ⟨list, hlist, ha⟩
    rw [hmerged] at hall
    exact hall
  have hold : ∀ a ∈ normalizeTrimmedStringList ((approvedOrScopes existing).getD []),
      a ∈ normalizeTrimmedStringList merged := by
    intro a ha
    cases hbaseline : approvedOrScopes existing with
    | none => rw [hbaseline] at ha; cases ha
    | some baseline => rw [hbaseline] at ha; exact hin (by simp [hbaseline]) ha
  have hasked : ∀ a ∈ normalizeTrimmedStringList (pending.scopes.getD []), a ∈ normalizeTrimmedStringList merged := by
    intro a ha
    cases hscopes : pending.scopes with
    | none => rw [hscopes] at ha; cases ha
    | some scopes => rw [hscopes] at ha; exact hin (by simp [hscopes]) ha
  have htoken : ∀ {role : JsString} {token : DeviceAuthToken}, (existingTokens existing).get? role = some token →
      WithinBaseline role token.scopes (approvedOrScopes existing) := by
    intro role token hget
    obtain ⟨device, rfl, hdevice⟩ := existingTokens_get hget
    exact (h device rfl).scopes role token hdevice
  refine ⟨merged, hmerged, fun scope hscope => ?_⟩
  rw [mem_normalize_iff fun a => isName_of_mem_approvalScopes] at hscope
  by_cases hop : role = OPERATOR_ROLE
  · subst hop
    have hopScope : isOperatorScope scope := by
      rw [← isScopeKindOf_operator]
      exact isScopeKindOf_of_mem_approvalScopes hscope
    have hgrants : OperatorGrants (approvalScopesFor pending existing OPERATOR_ROLE) scope :=
      ⟨hopScope, scope, mem_normalize_of_isName (isName_of_mem_approvalScopes hscope) hscope, Implies.refl scope⟩
    refine allowedFor_operator.mpr (approvalScopes_granted ?_ ?_ ?_ hgrants)
    · intro token hget a ha
      exact ((htoken hget).grants ha).mono hold
    · exact fun a ha => ha.mono hold
    · exact fun a ha => ha.mono hasked
  · obtain ⟨hkind, ⟨token, hget, hmem⟩ | hnew | ⟨hnone, hnotasked, hmem⟩⟩ := mem_approvalScopes_of_role hop hscope
    · obtain ⟨baseline, hbaseline, hallowed⟩ := htoken hget
      refine (hallowed scope hmem).mono fun a ha => hold a ?_
      rw [hbaseline]
      exact ha
    · obtain ⟨hmem, hisnew⟩ := mem_requestedScopeDelta.mp hnew
      refine (allowedFor_role hop).mpr ⟨hown.asked role hrole hop scope hmem hisnew, ?_⟩
      exact mem_normalizeDeviceAuthScopes.mpr (.inl (hasked scope ((mem_roleScoped_of_role hop).mp hmem).2))
    · have hinherited := hown.inherited role hrole hop hnone hnotasked scope
        ((mem_roleScoped_of_role hop).mpr ⟨hkind, hmem⟩)
      exact (allowedFor_role hop).mpr ⟨hinherited, mem_normalizeDeviceAuthScopes.mpr (.inl (hold scope hmem))⟩

/-- **An owner approval keeps the tokens of use** where what it gives a role is the role's. -/
theorem usable_approved (h : ∀ device, existing = some device → Usable device)
    (hown : GrantsOwnScopes pending existing) :
    Usable (approvedDevice call pending existing accessMetadata) := by
  refine usable_build (fun _ _ _ => rfl) h (fun role hrole _ _ => withinBaseline_issued h hown hrole) ?_
  intro device hexisting role token hget _
  have hwithin := (h device hexisting).scopes role token hget
  rw [← hexisting] at hwithin
  exact withinBaseline_approved hwithin

theorem mem_preservedExistingScopes {requestedRoles : List JsString} {role scope : JsString}
    (hrole : role ∈ listApprovedPairedDeviceRoles device) (hout : role ∉ requestedRoles)
    (hscope : scope ∈ normalizeTrimmedStringList ((approvedOrScopes (some device)).getD []))
    (hkind : isScopeKindOf role scope) : scope ∈ preservedExistingScopes requestedRoles (some device) := by
  refine mem_flatMap.mpr ⟨role, hrole, ?_⟩
  rw [if_neg (by simpa using hout)]
  exact mem_preserveRoleScopedApprovalScopes.mpr ⟨hscope, hkind⟩

theorem AllowedFor.of_kept {role scope : JsString} {baseline more : List JsString} (h : AllowedFor role baseline scope)
    (hkind : ∀ a ∈ normalizeTrimmedStringList baseline, isScopeKindOf role a → a ∈ normalizeTrimmedStringList more)
    (hop : role ≠ OPERATOR_ROLE → isOperatorScope scope → scope ∈ normalizeDeviceAuthScopes (some baseline) →
      scope ∈ normalizeDeviceAuthScopes (some more)) : AllowedFor role more scope := by
  by_cases hrole : role = OPERATOR_ROLE
  · subst hrole
    obtain ⟨hscope, a, ha, haop, himp⟩ := operatorGrants_iff.mp (allowedFor_operator.mp h)
    rw [← isScopeKindOf_operator] at haop
    exact allowedFor_operator.mpr ⟨hscope, a, hkind a ha haop, himp⟩
  · obtain ⟨hstart, hmem⟩ := (allowedFor_role hrole).mp h
    refine (allowedFor_role hrole).mpr ⟨hstart, ?_⟩
    cases hscope : isOperatorScope scope with
    | true => exact hop hrole hscope hmem
    | false =>
      rw [mem_normalizeDeviceAuthScopes_of_not_operator hscope] at hmem ⊢
      exact hkind scope hmem (by rw [isScopeKindOf_role hrole, hscope]; rfl)

theorem mem_normalize_of_operatorScopes {scope : JsString} {baseline more : List JsString}
    (hkept : ∀ a ∈ normalizeTrimmedStringList baseline, isOperatorScope a → a ∈ normalizeTrimmedStringList more)
    (hop : isOperatorScope scope) (h : scope ∈ normalizeDeviceAuthScopes (some baseline)) :
    scope ∈ normalizeDeviceAuthScopes (some more) := by
  rw [mem_normalizeDeviceAuthScopes] at h ⊢
  rcases h with h | ⟨himplied, a, ha, himp⟩
  · exact .inl (hkept scope h hop)
  · exact .inr ⟨himplied, a, hkept a ha (himp.isOperatorScope hop), himp⟩

abbrev grantedScopes (pending : DevicePairingPendingRequest) : List JsString :=
  resolveBootstrapProfileScopesForRoles (resolveRequestedRoles pending.toDevicePairingRequest) (pending.scopes.getD [])

/-- **A bootstrap approval keeps the tokens of use** where it keeps the operator scopes other roles have. -/
theorem usable_bootstrap (h : ∀ device, existing = some device → Usable device)
    (hkeeps : ∀ device, existing = some device → KeepsOperatorScopes device
      (· ∉ resolveRequestedRoles pending.toDevicePairingRequest) fun scope =>
        (OPERATOR_ROLE ∈ listApprovedPairedDeviceRoles device ∧
          OPERATOR_ROLE ∉ resolveRequestedRoles pending.toDevicePairingRequest) ∨ scope ∈ grantedScopes pending) :
    Usable (bootstrapDevice call pending existing accessMetadata) := by
  -- what is preserved and what is granted is approved
  have hmerged : ∀ {list : List JsString} {a : JsString},
      list = preservedExistingScopes (resolveRequestedRoles pending.toDevicePairingRequest) existing ∨
        list = grantedScopes pending → a ∈ normalizeTrimmedStringList list →
      a ∈ normalizeTrimmedStringList ((mergeScopes
        [some (preservedExistingScopes (resolveRequestedRoles pending.toDevicePairingRequest) existing),
          some (grantedScopes pending)]).getD []) := by
    intro list a hlist ha
    exact mem_normalize_mergeScopes.mpr ⟨list, by simpa using hlist, ha⟩
  refine usable_build (fun _ _ _ => rfl) h ?_ ?_
  · intro role hrole i old
    refine ⟨_, rfl, fun scope hscope => ?_⟩
    by_cases hop : role = OPERATOR_ROLE
    · subst hop
      rw [bootstrapToken_operator_scopes, mem_normalize_iff fun a ha =>
        isName_of_mem_normalizeDeviceAuthScopes (mem_resolveBootstrapProfileScopesForRole.mp ha).2.1] at hscope
      obtain ⟨-, hgranted, hhandoff⟩ := mem_resolveBootstrapProfileScopesForRole.mp hscope
      obtain ⟨a, ha, himp⟩ := implied_of_mem_normalize hgranted
      exact allowedFor_operator.mpr ⟨isOperatorScope_of_handoff hhandoff, a, hmerged (.inr rfl) ha, himp⟩
    · have hnone : (bootstrapToken call (grantedScopes pending) i role old).scopes = [] := if_neg hop
      rw [hnone] at hscope
      cases hscope
  · intro device hexisting role token hget hout
    obtain ⟨baseline, hbaseline, hallowed⟩ := (h device hexisting).scopes role token hget
    have happroved := (h device hexisting).role role token hget
    have hkind : ∀ {role : JsString}, role ∈ listApprovedPairedDeviceRoles device →
        role ∉ resolveRequestedRoles pending.toDevicePairingRequest → ∀ a ∈ normalizeTrimmedStringList baseline,
          isScopeKindOf role a → a ∈ normalizeTrimmedStringList ((mergeScopes
            [some (preservedExistingScopes (resolveRequestedRoles pending.toDevicePairingRequest) existing),
              some (grantedScopes pending)]).getD []) := by
      intro role hrole hnot a ha hkind
      refine hmerged (.inl rfl) (mem_normalize_of_isName (isName_of_mem ha) ?_)
      rw [hexisting]
      exact mem_preservedExistingScopes hrole hnot (by rw [hbaseline]; exact ha) hkind
    refine ⟨_, rfl, fun scope hscope =>
      (hallowed scope hscope).of_kept (hkind happroved hout) fun hrole hop hnormal => ?_⟩
    rcases hkeeps device hexisting role token hget hout hrole scope hscope hop with ⟨hoperator, hnot⟩ | hgranted
    · refine mem_normalize_of_operatorScopes (fun a ha haop => hkind hoperator hnot a ha ?_) hop hnormal
      rw [isScopeKindOf_operator, haop]
    · refine mem_normalizeDeviceAuthScopes.mpr (.inl (hmerged (.inr rfl) ?_))
      exact mem_normalize_of_isName (isName_of_mem hscope) hgranted

theorem mem_preservedScopes {roles baseline preserved : List JsString}
    (hpreserved : preservedScopes roles (some baseline) = some preserved) {role scope : JsString} (hrole : role ∈ roles)
    (hscope : scope ∈ normalizeTrimmedStringList baseline) (hkind : isScopeKindOf role scope) :
    scope ∈ normalizeTrimmedStringList preserved := by
  have hin : scope ∈ normalizeTrimmedStringList ((preservedScopes roles (some baseline)).getD []) := by
    refine mem_normalize_mergeScopes.mpr ⟨_, mem_map_of_mem hrole, ?_⟩
    exact mem_normalize_of_isName (isName_of_mem hscope) (mem_preserveRoleScopedApprovalScopes.mpr ⟨hscope, hkind⟩)
  rw [hpreserved] at hin
  exact hin

theorem preservedScopes_isSome {roles : List JsString} {role : JsString} (hrole : role ∈ roles)
    (baseline : List JsString) : (preservedScopes roles (some baseline)).isSome := by
  change (mergeScopes (roles.map fun entry => some (preserveRoleScopedApprovalScopes entry (some baseline)))).isSome
  rw [isSome_mergeScopes, any_eq_true]
  exact ⟨_, mem_map_of_mem hrole, rfl⟩

/-- **Removing a role keeps the other tokens of use** where the operator scopes other roles have stay. -/
theorem usable_withoutRole (h : Usable device) {removed : JsString}
    (hkeeps : KeepsOperatorScopes device (· ≠ removed) fun _ =>
      OPERATOR_ROLE ∈ listApprovedPairedDeviceRoles device ∧ OPERATOR_ROLE ≠ removed) :
    Usable (deviceWithoutRole device removed) := by
  have hremaining : ∀ {role : JsString}, role ∈ listApprovedPairedDeviceRoles device → role ≠ removed →
      role ∈ (listApprovedPairedDeviceRoles device).filter (· ≠ removed) := fun hrole hne =>
    mem_filter.mpr ⟨hrole, decide_eq_true hne⟩
  constructor
  · intro role token hget
    obtain ⟨hold, hne⟩ := tokenOf_withoutRole hget
    have happroved := h.role role token hold
    refine mem_mergeRoles.mpr ⟨(listApprovedPairedDeviceRoles device).filter (· ≠ removed), mem_cons_self, ?_⟩
    exact mem_normalize_of_isName (isName_of_approved happroved) (hremaining happroved hne)
  · intro role token hget
    obtain ⟨hold, hne⟩ := tokenOf_withoutRole hget
    have happroved := h.role role token hold
    obtain ⟨baseline, hbaseline, hallowed⟩ := h.scopes role token hold
    obtain ⟨preserved, hpreserved⟩ := Option.isSome_iff_exists.mp
      (preservedScopes_isSome (hremaining happroved hne) baseline)
    refine ⟨preserved, ?_, fun scope hscope => (hallowed scope hscope).of_kept ?_ ?_⟩
    · rw [approvedOrScopes_withoutRole, hbaseline, hpreserved]
      rfl
    · exact fun a ha hkind => mem_preservedScopes hpreserved (hremaining happroved hne) ha hkind
    · intro hrole hop hnormal
      obtain ⟨hoperator, hoperatorNe⟩ := hkeeps role token hold hne hrole scope hscope hop
      refine mem_normalize_of_operatorScopes (fun a ha haop => ?_) hop hnormal
      exact mem_preservedScopes hpreserved (hremaining hoperator hoperatorNe) ha (by rw [isScopeKindOf_operator, haop])

theorem usable_withToken (h : Usable device) {next : DeviceAuthToken}
    (hrole : next.role ∈ listApprovedPairedDeviceRoles device)
    (hscopes : WithinBaseline next.role next.scopes (approvedOrScopes (some device))) :
    Usable (withToken device next) := by
  constructor
  · intro role token hget
    rcases tokenOf_withToken hget with ⟨rfl, -⟩ | hold
    · exact hrole
    · exact h.role role token hold
  · intro role token hget
    rcases tokenOf_withToken hget with ⟨rfl, rfl⟩ | hold
    · exact hscopes
    · exact h.scopes role token hold

end Kept

/-! ## Runs -/

/-- The step keeps the tokens of use, as far as it depends on what is asked for: an owner approval that is given gives
each role its own scopes, and a bootstrap approval or a removal that drops the operator scopes drops none that the token
of another role has. -/
structure KeepsTokensUsable (stored : DevicePairingStateFile) (step : Step) : Prop where
  approve : ∀ requestId options, step.2 = .approve requestId options →
    ∀ pending, (loadState step.1 stored).pendingById.get? requestId = some pending →
      let existing := stored.pairedByDeviceId.get? pending.deviceId
      let requestedRoles := resolveRequestedRoles pending.toDevicePairingRequest
      resolveScopeOutsideRequestedRoles requestedRoles (normalizeDeviceAuthScopes pending.scopes) = none →
        requestedRoles.findSome? (callerRefusal (options.bind (·.callerScopes)) pending
          (approvalScopesFor pending existing)) = none → GrantsOwnScopes pending existing
  approveBootstrap : ∀ requestId profile accessMetadata, step.2 = .approveBootstrap requestId profile accessMetadata →
    ∀ pending, (loadState step.1 stored).pendingById.get? requestId = some pending →
      ∀ device, stored.pairedByDeviceId.get? pending.deviceId = some device → KeepsOperatorScopes device
        (· ∉ resolveRequestedRoles pending.toDevicePairingRequest) fun scope =>
          (OPERATOR_ROLE ∈ listApprovedPairedDeviceRoles device ∧
            OPERATOR_ROLE ∉ resolveRequestedRoles pending.toDevicePairingRequest) ∨ scope ∈ grantedScopes pending
  removeRole : ∀ deviceId rawRole, step.2 = .removeRole deviceId rawRole →
    ∀ device removed, Names stored deviceId rawRole device removed → KeepsOperatorScopes device (· ≠ removed) fun _ =>
      OPERATOR_ROLE ∈ listApprovedPairedDeviceRoles device ∧ OPERATOR_ROLE ≠ removed

theorem usable_writes {stored : DevicePairingStateFile} {step : Step} {device : PairedDevice}
    (h : ∀ device ∈ stored.pairedByDeviceId, Usable device) (hkeeps : KeepsTokensUsable stored step)
    (hwrites : Writes step.1 stored step.2 device) : Usable device := by
  obtain ⟨call, operation⟩ := step
  have hexisting : ∀ {deviceId : JsString} device, stored.pairedByDeviceId.get? deviceId = some device →
      Usable device :=
    fun device hget => h device (mem_of_get? hget).1
  cases hwrites with
  | approved hpending hroles hcaller hloaded =>
    exact usable_approved hexisting (hkeeps.approve _ _ rfl _ hloaded hroles hcaller)
  | bootstrapped hpending hroles hscopes hloaded =>
    exact usable_bootstrap hexisting (hkeeps.approveBootstrap _ _ _ rfl _ hloaded)
  | roleRemoved hnames hleft =>
    exact usable_withoutRole (h _ hnames.device_mem) (hkeeps.removeRole _ _ rfl _ _ hnames)
  | refreshed hdevice => exact ⟨(h _ hdevice).role, (h _ hdevice).scopes⟩
  | @used params used entry hdevice hentry =>
    have hused : Usable (withToken used { entry with lastUsedAtMs := some (call.now 1) }) :=
      usable_withToken (h used hdevice) ((h used hdevice).role entry.role entry hentry)
        ((h used hdevice).scopes entry.role entry hentry)
    exact ⟨hused.role, hused.scopes⟩
  | ensured hnames hscopes | rotated hnames hscopes =>
    exact usable_withToken (h _ hnames.device_mem) hnames.approved
      ((withinBaseline_iff (isName_of_approved hnames.approved)).mp hscopes)
  | @revoked params owner role existing hnames hexistingToken =>
    obtain ⟨-, rfl⟩ := mem_of_get? hexistingToken
    exact usable_withToken (h owner hnames.device_mem) hnames.approved
      ((h owner hnames.device_mem).scopes existing.role existing hexistingToken)

theorem operator_of_startsWith {role scope : JsString}
    (hscope : scope = OPERATOR_ADMIN_SCOPE ∨ scope = OPERATOR_WRITE_SCOPE)
    (h : startsWith scope (role ++ js ".")) : role = OPERATOR_ROLE := by
  have hends : ∀ scope, scope = OPERATOR_ADMIN_SCOPE ∨ scope = OPERATOR_WRITE_SCOPE → ∀ start ∈ scope.inits,
      start.getLast? = some 46 → start = OPERATOR_ROLE ++ js "." := by
    rintro scope (rfl | rfl) <;> decide
  have hearly : role ++ js "." <+: scope := isPrefixOf_iff_prefix.mp h
  have hlast : (role ++ js ".").getLast? = some 46 := getLast?_append_of_ne_nil _ (by decide)
  exact append_cancel_right (hends scope hscope _ ((mem_inits _ _).mpr hearly) hlast)

theorem roleScopesAllow_self {role : JsString} {scopes : List JsString} {device : PairedDevice} (hrole : IsName role)
    (hwithin : WithinBaseline role scopes (approvedOrScopes (some device))) :
    roleScopesAllow role (normalizeDeviceAuthScopes (some scopes)) scopes := by
  obtain ⟨baseline, -, hallowed⟩ := hwithin
  by_cases hop : role = OPERATOR_ROLE
  · subst hop
    rw [roleScopesAllow_operator]
    intro scope hscope
    rw [mem_normalize_iff fun _ => isName_of_mem_normalizeDeviceAuthScopes] at hscope
    obtain ⟨a, ha, himp⟩ := implied_of_mem_normalize hscope
    refine ⟨?_, a, ha, himp⟩
    rcases mem_normalizeDeviceAuthScopes.mp hscope with hown | ⟨rfl | rfl, -⟩
    · exact (allowedFor_operator.mp (hallowed scope hown)).1
    · decide
    · decide
  · have htrim : trim role ≠ OPERATOR_ROLE := by rwa [hrole.1]
    rw [roleScopesAllow_role htrim, hrole.1]
    intro scope hscope
    rw [mem_normalize_iff fun _ => isName_of_mem_normalizeDeviceAuthScopes] at hscope
    have hown : ∀ a ∈ normalizeTrimmedStringList scopes, startsWith a (role ++ js ".") := fun a ha =>
      ((allowedFor_role hop).mp (hallowed a ha)).1
    rcases mem_normalizeDeviceAuthScopes.mp hscope with hmem | ⟨-, a, ha, rfl | hadmin | ⟨hwrite, -⟩⟩
    · exact ⟨hown scope hmem, hmem⟩
    · exact ⟨hown a ha, ha⟩
    · exact absurd (operator_of_startsWith (.inl hadmin) (hown a ha)) hop
    · exact absurd (operator_of_startsWith (.inr hwrite) (hown a ha)) hop

section Runs

variable [LowerCase] {run : List Step}

/-- Every token that is not revoked is of use: its role is approved, its scopes are within the device's approved scopes,
and verifying it with its own scopes does not answer `scope-mismatch`. -/
def TokensUsable (run : List Step) : Prop :=
  ∀ device ∈ (storeAfter run).pairedByDeviceId, ∀ role token, tokenOf device role = some token →
    token.revokedAtMs = none → role ∈ listApprovedPairedDeviceRoles device ∧
        scopesWithinApprovedDeviceBaseline role token.scopes (resolveApprovedDeviceScopeBaseline device) = true ∧
        ∀ call params, normalizeDeviceId params.deviceId = device.deviceId →
          normalizeRole (some params.role) = some role →
          params.scopes = token.scopes → (verifyDeviceToken call params (storeAfter run)).1 ≠ .error .scopeMismatch

theorem usable_run (hkeeps : Runs.EachStep perform emptyState KeepsTokensUsable run) :
    ∀ device ∈ (storeAfter run).pairedByDeviceId, Usable device := by
  refine Runs.invariant_of_eachStep (P := fun _ stored => ∀ device ∈ stored.pairedByDeviceId, Usable device) ?_ ?_ run
    hkeeps
  · intro device hmem
    exact absurd hmem (KeyedTable.not_mem_empty device)
  · intro run step ih hstep device hmem
    rcases mem_paired_perform hmem with hold | hwrites
    · exact ih device hold
    · exact usable_writes ih hstep hwrites

theorem verify_ne_scopeMismatch {call : Surroundings} {stored : DevicePairingStateFile} {device : PairedDevice}
    {role : JsString} {token : DeviceAuthToken} {params : VerifyDeviceTokenParams}
    (hmem : device ∈ stored.pairedByDeviceId) (husable : Usable device)
    (htoken : tokenOf device role = some token) (hdevice : normalizeDeviceId params.deviceId = device.deviceId)
    (hrole : normalizeRole (some params.role) = some role) (hscopes : params.scopes = token.scopes) :
    (verifyDeviceToken call params stored).1 ≠ .error .scopeMismatch := by
  have hname := isName_of_approved (husable.role role token htoken)
  have hwithin := husable.scopes role token htoken
  have hloaded : (loadState call stored).pairedByDeviceId.get? (normalizeDeviceId params.deviceId) = some device := by
    rw [hdevice]
    exact KeyedTable.mem_iff_get?.mp hmem
  have hentry : device.tokens.bind (·.get? role) = some token := by
    rw [← tokenOf_eq]
    exact htoken
  have hself : roleScopesAllow role (normalizeDeviceAuthScopes (some params.scopes)) token.scopes := by
    rw [hscopes]
    exact roleScopesAllow_self hname hwithin
  unfold verifyDeviceToken
  simp only [hloaded, hrole, hentry, (withinBaseline_iff hname).mpr hwithin, hself, Bool.not_true, Bool.false_eq_true,
    ↓reduceIte]
  repeat' split
  all_goals simp

/-- **Every issued token is usable and bounded** in a run each of whose owner approvals gives each role its own scopes,
and whose bootstrap approvals and removals keep the operator scopes that the tokens of other roles have. -/
theorem tokens_usable (hkeeps : Runs.EachStep perform emptyState KeepsTokensUsable run) : TokensUsable run := by
  intro device hmem role token htoken _
  have husable := usable_run hkeeps device hmem
  have hrole := husable.role role token htoken
  refine ⟨hrole, (withinBaseline_iff (isName_of_approved hrole)).mpr (husable.scopes role token htoken), ?_⟩
  intro call params hdevice hparamsRole hscopes
  exact verify_ne_scopeMismatch hmem husable htoken hdevice hparamsRole hscopes

end Runs

section Fixed

attribute [local instance] asciiLowerCase

/-- A request for two roles and a scope of the second, and its approval. -/
def twoRolesRun : List Step :=
  [(firstCall, .request { roleRequest (js "d") (js "node") (some [js "foo.x"]) with
      roles := some [js "node", js "foo"] }),
    (secondCall, .approve [97] none)]

/-- The token of the first role is given the scope of the second. -/
theorem issued_unusable_token : ¬ TokensUsable twoRolesRun := by
  intro husable
  have hissued : (storeAfter twoRolesRun).pairedByDeviceId.rows.any (fun device =>
      (tokenOf device (js "node")).any fun token => token.revokedAtMs.isNone &&
        !scopesWithinApprovedDeviceBaseline (js "node") token.scopes (resolveApprovedDeviceScopeBaseline device)) =
      true := by
    decide
  obtain ⟨device, hmem, htoken⟩ := any_eq_true.mp hissued
  obtain ⟨token, hget, hlive⟩ := (Option.any_eq_true _ _).mp htoken
  rw [Bool.and_eq_true, Bool.not_eq_true', Option.isNone_iff_eq_none] at hlive
  have hwithin := (husable device hmem _ token hget hlive.1).2.1
  rw [hlive.2] at hwithin
  cases hwithin

theorem tokens_usable_approved : TokensUsable [operatorRequest, operatorApproval] := by
  refine tokens_usable (.cons ?_ (.cons ?_ Runs.eachStep_nil))
  · exact ⟨fun _ _ h => (nomatch h), fun _ _ _ h => (nomatch h), fun _ _ h => (nomatch h)⟩
  · refine ⟨?_, fun _ _ _ h => (nomatch h), fun _ _ h => (nomatch h)⟩
    intro requestId options hstep pending hget
    have hasks : ((loadState operatorApproval.1 (perform emptyState operatorRequest)).pendingById.get? [97]).all
        (fun pending =>
          resolveRequestedRoles pending.toDevicePairingRequest = [OPERATOR_ROLE] && pending.scopes.isSome) = true := by
      decide
    obtain ⟨rfl, -⟩ := Operation.approve.inj hstep
    rw [hget, Option.all_some, Bool.and_eq_true, decide_eq_true_eq] at hasks
    have honly : ∀ role ∈ resolveRequestedRoles pending.toDevicePairingRequest, role = OPERATOR_ROLE := by
      rw [hasks.1]
      exact fun role => mem_singleton.mp
    exact fun _ _ => ⟨fun _ => Or.inr hasks.2, fun role hrole hne => absurd (honly role hrole) hne,
      fun role hrole hne => absurd (honly role hrole) hne⟩

end Fixed

end ClawWorks.DevicePairing
