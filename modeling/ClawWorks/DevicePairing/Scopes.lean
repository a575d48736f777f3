import ClawWorks.Js.LowerCase
import ClawWorks.Enterprise.Plan

/-!
# Device scopes

Roles and scopes as the pairing store keeps them, and when a grant of scopes allows others.
-/

namespace ClawWorks.DevicePairing

open List

/-- `value.startsWith(start)`. -/
def startsWith (value start : JsString) : Bool :=
  start.isPrefixOf value

def OPERATOR_ROLE : JsString := js "operator"
def OPERATOR_ADMIN_SCOPE : JsString := js "operator.admin"
def OPERATOR_READ_SCOPE : JsString := js "operator.read"
def OPERATOR_WRITE_SCOPE : JsString := js "operator.write"
def OPERATOR_SCOPE_PREFIX : JsString := js "operator."

/-- `scope.startsWith(OPERATOR_SCOPE_PREFIX)`. -/
def isOperatorScope (scope : JsString) : Bool :=
  startsWith scope OPERATOR_SCOPE_PREFIX

/-! ## Lists of names -/

/-- The entries that are left of a list of names: trimmed, without the blank ones. -/
def normalizeTrimmedStringList (value : List JsString) : List JsString :=
  (value.map trim).filter (Truthy ·)

/-- Entries trimmed, without the blank and the repeated ones. -/
def normalizeUniqueSingleOrTrimmedStringList (value : List JsString) : List JsString :=
  distinct (normalizeTrimmedStringList value)

variable {a : JsString}

theorem mem_distinct {items : List JsString} : a ∈ distinct items ↔ a ∈ items := by
  rw [distinct, mem_eraseDups]

theorem mem_toSorted {items : List JsString} : a ∈ toSorted items ↔ a ∈ items := by
  rw [toSorted, mem_insertionSort]

variable {value : List JsString}

theorem mem_normalizeTrimmedStringList :
    a ∈ normalizeTrimmedStringList value ↔ a ≠ [] ∧ ∃ entry ∈ value, trim entry = a := by
  rw [normalizeTrimmedStringList, mem_filter, mem_map, decide_eq_true_eq, and_comm]
  rfl

@[simp] theorem mem_normalizeUnique :
    a ∈ normalizeUniqueSingleOrTrimmedStringList value ↔ a ∈ normalizeTrimmedStringList value := mem_distinct

/-- A name that was trimmed, and is not blank. -/
def IsName (a : JsString) : Prop :=
  trim a = a ∧ a ≠ []

theorem isName_of_mem (h : a ∈ normalizeTrimmedStringList value) : IsName a := by
  obtain ⟨hne, entry, -, rfl⟩ := mem_normalizeTrimmedStringList.mp h
  exact ⟨trim_trim entry, hne⟩

theorem mem_normalize_of_isName (ha : IsName a) (h : a ∈ value) : a ∈ normalizeTrimmedStringList value :=
  mem_normalizeTrimmedStringList.mpr ⟨ha.2, a, h, ha.1⟩

theorem mem_normalize_iff (hvalue : ∀ a ∈ value, IsName a) : a ∈ normalizeTrimmedStringList value ↔ a ∈ value := by
  constructor
  · intro h
    obtain ⟨-, entry, hentry, rfl⟩ := mem_normalizeTrimmedStringList.mp h
    rwa [(hvalue entry hentry).1]
  · intro h
    exact mem_normalize_of_isName (hvalue a h) h

/-- `[...new Set(...)]` of several lists of roles; `undefined` where none is left. An item that is one string or absent
is the list of what it has. -/
def mergeRoles (items : List (List JsString)) : Option (List JsString) :=
  let roles := distinct (items.flatMap normalizeUniqueSingleOrTrimmedStringList)
  if roles = [] then none else some roles

variable {role : JsString}

theorem mem_mergeRoles {items : List (List JsString)} :
    role ∈ (mergeRoles items).getD [] ↔ ∃ item ∈ items, role ∈ normalizeTrimmedStringList item := by
  have hroles : ∀ roles : List JsString, (if roles = [] then none else some roles).getD [] = roles := by
    intro roles
    split
    · simp_all
    · rfl
  simp [mergeRoles, hroles, mem_distinct]

/-- Several optional lists of scopes as one; `undefined` only where no list is present. -/
def mergeScopes (items : List (Option (List JsString))) : Option (List JsString) :=
  if items.any Option.isSome then
    some (distinct (items.flatMap fun item => normalizeUniqueSingleOrTrimmedStringList (item.getD [])))
  else none

variable {scope : JsString} {items : List (Option (List JsString))}

theorem mem_mergeScopes :
    scope ∈ (mergeScopes items).getD [] ↔ ∃ list, some list ∈ items ∧ scope ∈ normalizeTrimmedStringList list := by
  unfold mergeScopes
  split
  · constructor
    · intro h
      simp only [Option.getD_some, mem_distinct, mem_flatMap, mem_normalizeUnique] at h
      obtain ⟨item, hitem, hscope⟩ := h
      cases item with
      | none => simp [normalizeTrimmedStringList] at hscope
      | some list => exact ⟨list, hitem, hscope⟩
    · rintro ⟨list, hlist, hscope⟩
      simp only [Option.getD_some, mem_distinct, mem_flatMap, mem_normalizeUnique]
      exact ⟨some list, hlist, hscope⟩
  · rename_i hnone
    simp only [Option.getD_none, not_mem_nil, false_iff]
    rintro ⟨list, hlist, -⟩
    exact hnone (any_eq_true.mpr ⟨some list, hlist, rfl⟩)

theorem mem_normalize_mergeScopes : scope ∈ normalizeTrimmedStringList ((mergeScopes items).getD []) ↔
      ∃ list, some list ∈ items ∧ scope ∈ normalizeTrimmedStringList list := by
  rw [mem_normalize_iff, mem_mergeScopes]
  intro a ha
  obtain ⟨list, -, hname⟩ := mem_mergeScopes.mp ha
  exact isName_of_mem hname

theorem isSome_mergeScopes : (mergeScopes items).isSome = items.any Option.isSome := by
  unfold mergeScopes
  split
  · rename_i hsome
    rw [hsome]
    rfl
  · rename_i hnone
    rw [Bool.not_eq_true] at hnone
    rw [hnone]
    rfl

/-! ## What an operator scope is worth -/

/-- Holding the first scope is holding the second. -/
def Implies (held scope : JsString) : Prop :=
  held = scope ∨ held = OPERATOR_ADMIN_SCOPE ∨ (held = OPERATOR_WRITE_SCOPE ∧ scope = OPERATOR_READ_SCOPE)

instance (held scope : JsString) : Decidable (Implies held scope) :=
  inferInstanceAs (Decidable (_ ∨ _))

theorem Implies.refl (scope : JsString) : Implies scope scope := .inl rfl

theorem Implies.trans {a b c : JsString} (hab : Implies a b) (hbc : Implies b c) : Implies a c := by
  rcases hab with rfl | rfl | ⟨rfl, rfl⟩
  · exact hbc
  · exact .inr (.inl rfl)
  · rcases hbc with rfl | hadmin | ⟨hwrite, -⟩
    · exact .inr (.inr ⟨rfl, rfl⟩)
    · exact absurd hadmin (by decide)
    · exact absurd hwrite (by decide)

def OperatorGrants (held : List JsString) (scope : JsString) : Prop :=
  isOperatorScope scope = true ∧ ∃ a ∈ normalizeTrimmedStringList held, Implies a scope

instance (held : List JsString) (scope : JsString) : Decidable (OperatorGrants held scope) :=
  inferInstanceAs (Decidable (_ ∧ _))

theorem Implies.isOperatorScope {a scope : JsString} (h : Implies a scope) (hscope : isOperatorScope scope) :
    isOperatorScope a := by
  rcases h with rfl | rfl | ⟨rfl, -⟩
  · exact hscope
  · decide
  · decide

theorem OperatorGrants.imp {held : List JsString} {a scope : JsString} (h : OperatorGrants held a)
    (himp : Implies a scope) (hscope : DevicePairing.isOperatorScope scope) : OperatorGrants held scope := by
  obtain ⟨-, b, hb, hba⟩ := h
  exact ⟨hscope, b, hb, hba.trans himp⟩

theorem OperatorGrants.mono {held more : List JsString} (h : OperatorGrants held scope)
    (hmore : ∀ a ∈ normalizeTrimmedStringList held, a ∈ normalizeTrimmedStringList more) :
    OperatorGrants more scope := by
  obtain ⟨hscope, a, ha, himp⟩ := h
  exact ⟨hscope, a, hmore a ha, himp⟩

/-! ## The checks -/

/-- Array `normalizeScopeList`: trimmed, without the blank and the repeated ones. -/
def normalizeScopeList (scopes : List JsString) : List JsString :=
  distinct (normalizeTrimmedStringList scopes)

theorem mem_normalizeScopeList {scopes : List JsString} :
    a ∈ normalizeScopeList scopes ↔ a ∈ normalizeTrimmedStringList scopes := mem_distinct

def operatorScopeSatisfied (requestedScope : JsString) (granted : List JsString) : Bool :=
  if !isOperatorScope requestedScope then false
  else if granted.contains OPERATOR_ADMIN_SCOPE then true
  else if requestedScope = OPERATOR_READ_SCOPE then
    granted.contains OPERATOR_READ_SCOPE || granted.contains OPERATOR_WRITE_SCOPE
  else if requestedScope = OPERATOR_WRITE_SCOPE then granted.contains OPERATOR_WRITE_SCOPE
  else granted.contains requestedScope

/-- Returns true when a role grant satisfies requested scopes, including operator implications. -/
def roleScopesAllow (role : JsString) (requestedScopes allowedScopes : List JsString) : Bool :=
  let requested := normalizeScopeList requestedScopes
  let allowed := normalizeScopeList allowedScopes
  if requested.isEmpty then true
  else if allowed.isEmpty then false
  else if trim role ≠ OPERATOR_ROLE then
    requested.all fun scope => startsWith scope (trim role ++ js ".") && allowed.contains scope
  else requested.all fun scope => operatorScopeSatisfied scope allowed

def resolveMissingRequestedScope (role : JsString) (requestedScopes allowedScopes : List JsString) : Option JsString :=
  requestedScopes.find? fun scope => !roleScopesAllow role [scope] allowedScopes

def resolveScopeOutsideRequestedRoles (requestedRoles requestedScopes : List JsString) : Option JsString :=
  requestedScopes.find? fun scope => !requestedRoles.any fun role => roleScopesAllow role [scope] [scope]

theorem operatorScopeSatisfied_iff {granted : List JsString} : operatorScopeSatisfied scope granted ↔
      isOperatorScope scope ∧ ∃ a ∈ granted, Implies a scope := by
  unfold operatorScopeSatisfied
  cases hop : isOperatorScope scope with
  | false => simp
  | true =>
    simp only [Bool.not_true, Bool.false_eq_true, ↓reduceIte, true_and]
    split
    · rename_i hadmin
      rw [contains_iff_mem] at hadmin
      exact iff_of_true rfl ⟨_, hadmin, .inr (.inl rfl)⟩
    · rename_i hadmin
      rw [contains_iff_mem] at hadmin
      split
      · rename_i hread
        subst hread
        simp only [Bool.or_eq_true, contains_iff_mem]
        constructor
        · rintro (h | h)
          · exact ⟨_, h, Implies.refl _⟩
          · exact ⟨_, h, .inr (.inr ⟨rfl, rfl⟩)⟩
        · rintro ⟨a, ha, rfl | rfl | ⟨rfl, -⟩⟩
          · exact .inl ha
          · exact absurd ha hadmin
          · exact .inr ha
      · rename_i hread
        have hexact : (∃ a ∈ granted, Implies a scope) ↔ scope ∈ granted := by
          constructor
          · rintro ⟨a, ha, rfl | rfl | ⟨-, h⟩⟩
            · exact ha
            · exact absurd ha hadmin
            · exact absurd h hread
          · intro h
            exact ⟨scope, h, Implies.refl scope⟩
        rw [hexact]
        split
        · rename_i hwrite
          rw [hwrite, contains_iff_mem]
        · rw [contains_iff_mem]

variable {requested allowed : List JsString}

theorem roleScopesAllow_iff {P : JsString → Prop} (hcheck : ∀ scope, (if trim role ≠ OPERATOR_ROLE then
      startsWith scope (trim role ++ js ".") && (normalizeScopeList allowed).contains scope
      else operatorScopeSatisfied scope (normalizeScopeList allowed)) ↔ P scope)
    (hnone : normalizeScopeList allowed = [] → ∀ scope, ¬ P scope) :
    roleScopesAllow role requested allowed ↔ ∀ scope ∈ normalizeTrimmedStringList requested, P scope := by
  have hall : (normalizeScopeList requested).all (fun scope => if trim role ≠ OPERATOR_ROLE then
      startsWith scope (trim role ++ js ".") && (normalizeScopeList allowed).contains scope
      else operatorScopeSatisfied scope (normalizeScopeList allowed)) ↔
      ∀ scope ∈ normalizeTrimmedStringList requested, P scope := by
    rw [all_eq_true]
    refine forall_congr' fun scope => ?_
    rw [mem_normalizeScopeList, hcheck]
  rw [← hall]
  unfold roleScopesAllow
  cases hrequested : normalizeScopeList requested with
  | nil => exact iff_of_true rfl rfl
  | cons scope rest =>
    cases hallowed : normalizeScopeList allowed with
    | nil =>
      rw [hallowed] at hcheck
      have hscope := (hcheck scope).not.mpr (hnone hallowed scope)
      simp only [Bool.not_eq_true] at hscope
      simp only [isEmpty_cons, Bool.false_eq_true, ↓reduceIte, isEmpty_nil]
      rw [all_cons, hscope, Bool.false_and]
      exact iff_of_false id Bool.false_ne_true
    | cons a as =>
      by_cases hrole : trim role = OPERATOR_ROLE <;> simp [hrole]

theorem roleScopesAllow_operator : roleScopesAllow OPERATOR_ROLE requested allowed ↔
      ∀ scope ∈ normalizeTrimmedStringList requested, OperatorGrants allowed scope := by
  refine roleScopesAllow_iff (fun scope => ?_) ?_
  · rw [if_neg (not_not.mpr (by decide : trim OPERATOR_ROLE = OPERATOR_ROLE)), operatorScopeSatisfied_iff]
    simp only [mem_normalizeScopeList, OperatorGrants]
  · rintro hnone scope ⟨-, a, ha, -⟩
    rw [← mem_normalizeScopeList, hnone] at ha
    cases ha

theorem roleScopesAllow_role (hrole : trim role ≠ OPERATOR_ROLE) : roleScopesAllow role requested allowed ↔
      ∀ scope ∈ normalizeTrimmedStringList requested,
        startsWith scope (trim role ++ js ".") ∧ scope ∈ normalizeTrimmedStringList allowed := by
  refine roleScopesAllow_iff (fun scope => ?_) ?_
  · rw [if_pos hrole, Bool.and_eq_true, contains_iff_mem, mem_normalizeScopeList]
  · rintro hnone scope ⟨-, hallowed⟩
    rw [← mem_normalizeScopeList, hnone] at hallowed
    cases hallowed

theorem resolveMissingRequestedScope_eq_none : resolveMissingRequestedScope role requested allowed = none ↔
      ∀ scope ∈ requested, roleScopesAllow role [scope] allowed := by
  simp [resolveMissingRequestedScope]

theorem grants_of_missing_none
    (h : resolveMissingRequestedScope OPERATOR_ROLE requested allowed = none) (hname : IsName scope)
    (hscope : scope ∈ requested) : OperatorGrants allowed scope :=
  roleScopesAllow_operator.mp (resolveMissingRequestedScope_eq_none.mp h scope hscope) scope
    (mem_normalize_of_isName hname mem_cons_self)

/-- Normalize device-auth scopes, dedupe/sort them, and include implied operator scopes. -/
def normalizeDeviceAuthScopes (scopes : Option (List JsString)) : List JsString :=
  let out := distinct (normalizeTrimmedStringList (scopes.getD []))
  toSorted (distinct (out ++
    -- Operator scope implication keeps older approval checks working with broader grants.
    if OPERATOR_ADMIN_SCOPE ∈ out then [OPERATOR_READ_SCOPE, OPERATOR_WRITE_SCOPE]
    else if OPERATOR_WRITE_SCOPE ∈ out then [OPERATOR_READ_SCOPE]
    else []))

variable {scopes : Option (List JsString)}

/-- **What normalizing adds is implied**: the read and write scopes of a broader grant. -/
theorem mem_normalizeDeviceAuthScopes : scope ∈ normalizeDeviceAuthScopes scopes ↔
      scope ∈ normalizeTrimmedStringList (scopes.getD []) ∨
        ((scope = OPERATOR_READ_SCOPE ∨ scope = OPERATOR_WRITE_SCOPE) ∧
          ∃ a ∈ normalizeTrimmedStringList (scopes.getD []), Implies a scope) := by
  unfold normalizeDeviceAuthScopes
  simp only [mem_toSorted, mem_distinct, mem_append]
  generalize normalizeTrimmedStringList (scopes.getD []) = out
  refine or_congr_right' fun hscope => ?_
  split
  · rename_i hadmin
    simp only [mem_cons, not_mem_nil, or_false]
    exact (and_iff_left ⟨_, hadmin, .inr (.inl rfl)⟩).symm
  · rename_i hadmin
    split
    · rename_i hwrite
      rw [mem_singleton]
      constructor
      · rintro rfl
        exact ⟨.inl rfl, _, hwrite, .inr (.inr ⟨rfl, rfl⟩)⟩
      · rintro ⟨-, a, ha, rfl | rfl | ⟨-, hread⟩⟩
        · exact absurd ha hscope
        · exact absurd ha hadmin
        · exact hread
    · rename_i hwrite
      simp only [not_mem_nil, false_iff]
      rintro ⟨-, a, ha, rfl | rfl | ⟨rfl, -⟩⟩
      · exact hscope ha
      · exact hadmin ha
      · exact hwrite ha

theorem implied_of_mem_normalize (h : scope ∈ normalizeDeviceAuthScopes scopes) :
    ∃ a ∈ normalizeTrimmedStringList (scopes.getD []), Implies a scope := by
  rcases mem_normalizeDeviceAuthScopes.mp h with hscope | ⟨-, himplied⟩
  · exact ⟨scope, hscope, Implies.refl scope⟩
  · exact himplied

theorem isName_of_mem_normalizeDeviceAuthScopes (h : scope ∈ normalizeDeviceAuthScopes scopes) : IsName scope := by
  rcases mem_normalizeDeviceAuthScopes.mp h with hscope | ⟨rfl | rfl, -⟩
  · exact isName_of_mem hscope
  · exact ⟨by decide, by decide⟩
  · exact ⟨by decide, by decide⟩

theorem mem_normalizeDeviceAuthScopes_of_not_operator (hscope : isOperatorScope scope = false) :
    scope ∈ normalizeDeviceAuthScopes scopes ↔ scope ∈ normalizeTrimmedStringList (scopes.getD []) := by
  rw [mem_normalizeDeviceAuthScopes]
  constructor
  · rintro (h | ⟨rfl | rfl, -⟩)
    · exact h
    · exact absurd hscope (by decide)
    · exact absurd hscope (by decide)
  · exact .inl

theorem operatorGrants_normalizeDeviceAuthScopes :
    OperatorGrants (normalizeDeviceAuthScopes scopes) scope ↔ OperatorGrants (scopes.getD []) scope := by
  constructor
  · rintro ⟨hscope, a, ha, himp⟩
    rw [mem_normalize_iff fun _ => isName_of_mem_normalizeDeviceAuthScopes] at ha
    obtain ⟨b, hb, hba⟩ := implied_of_mem_normalize ha
    exact ⟨hscope, b, hb, hba.trans himp⟩
  · rintro ⟨hscope, a, ha, himp⟩
    refine ⟨hscope, a, ?_, himp⟩
    exact mem_normalize_of_isName (isName_of_mem ha) (mem_normalizeDeviceAuthScopes.mpr (.inl ha))

/-! ## Scopes by role -/

/-- The scopes a token of the role may have: the operator scopes for the operator, the other scopes for any other
role. -/
def isScopeKindOf (role scope : JsString) : Bool :=
  if role = OPERATOR_ROLE then isOperatorScope scope else !isOperatorScope scope

def resolveRoleScopedDeviceTokenScopes (role : JsString) (scopes : Option (List JsString)) : List JsString :=
  (normalizeDeviceAuthScopes scopes).filter (isScopeKindOf role)

def preserveRoleScopedApprovalScopes (role : JsString) (scopes : Option (List JsString)) : List JsString :=
  (normalizeUniqueSingleOrTrimmedStringList (scopes.getD [])).filter (isScopeKindOf role)

theorem mem_resolveRoleScopedDeviceTokenScopes {role scope : JsString} :
    scope ∈ resolveRoleScopedDeviceTokenScopes role scopes ↔
      scope ∈ normalizeDeviceAuthScopes scopes ∧ isScopeKindOf role scope := mem_filter

theorem mem_preserveRoleScopedApprovalScopes {role scope : JsString} :
    scope ∈ preserveRoleScopedApprovalScopes role scopes ↔
      scope ∈ normalizeTrimmedStringList (scopes.getD []) ∧ isScopeKindOf role scope := by
  rw [preserveRoleScopedApprovalScopes, mem_filter, mem_normalizeUnique]

@[simp] theorem isScopeKindOf_operator (scope : JsString) : isScopeKindOf OPERATOR_ROLE scope = isOperatorScope scope :=
  if_pos rfl

theorem isScopeKindOf_role (h : role ≠ OPERATOR_ROLE) (scope : JsString) :
    isScopeKindOf role scope = !isOperatorScope scope := if_neg h

/-! ## Bootstrap profiles -/

/-- Normalized roles/scopes carried by a bootstrap token during device handoff. -/
structure DeviceBootstrapProfile where
  roles : List JsString
  scopes : List JsString

def BOOTSTRAP_HANDOFF_OPERATOR_SCOPES : List JsString :=
  [js "operator.approvals", js "operator.read", js "operator.talk.secrets", js "operator.write"]

def resolveBootstrapProfileScopesForRole (role : JsString) (scopes : List JsString) : List JsString :=
  if trim role = OPERATOR_ROLE then
    (normalizeDeviceAuthScopes (some scopes)).filter (BOOTSTRAP_HANDOFF_OPERATOR_SCOPES.contains ·)
  else []

def resolveBootstrapProfileScopesForRoles (roles scopes : List JsString) : List JsString :=
  normalizeDeviceAuthScopes (some (roles.flatMap (resolveBootstrapProfileScopesForRole · scopes)))

theorem isOperatorScope_of_handoff (h : scope ∈ BOOTSTRAP_HANDOFF_OPERATOR_SCOPES) : isOperatorScope scope :=
  (by decide : ∀ scope ∈ BOOTSTRAP_HANDOFF_OPERATOR_SCOPES, isOperatorScope scope) scope h

theorem mem_resolveBootstrapProfileScopesForRole {role scope : JsString} {scopes : List JsString} :
    scope ∈ resolveBootstrapProfileScopesForRole role scopes ↔
      trim role = OPERATOR_ROLE ∧ scope ∈ normalizeDeviceAuthScopes (some scopes) ∧
        scope ∈ BOOTSTRAP_HANDOFF_OPERATOR_SCOPES := by
  unfold resolveBootstrapProfileScopesForRole
  split
  · rename_i hrole
    rw [mem_filter, contains_iff_mem]
    exact (and_iff_right hrole).symm
  · rename_i hrole
    exact iff_of_false not_mem_nil fun h => hrole h.1

theorem mem_resolveBootstrapProfileScopesForRoles {roles scopes : List JsString} :
    scope ∈ resolveBootstrapProfileScopesForRoles roles scopes ↔
      (∃ role ∈ roles, trim role = OPERATOR_ROLE) ∧ scope ∈ normalizeDeviceAuthScopes (some scopes) ∧
        scope ∈ BOOTSTRAP_HANDOFF_OPERATOR_SCOPES := by
  have hflat : ∀ a, a ∈ roles.flatMap (resolveBootstrapProfileScopesForRole · scopes) ↔
      (∃ role ∈ roles, trim role = OPERATOR_ROLE) ∧ a ∈ normalizeDeviceAuthScopes (some scopes) ∧
        a ∈ BOOTSTRAP_HANDOFF_OPERATOR_SCOPES := by
    intro a
    simp only [mem_flatMap, mem_resolveBootstrapProfileScopesForRole]
    tauto
  have hnames : ∀ a ∈ roles.flatMap (resolveBootstrapProfileScopesForRole · scopes), IsName a := fun a ha =>
    isName_of_mem_normalizeDeviceAuthScopes ((hflat a).mp ha).2.1
  unfold resolveBootstrapProfileScopesForRoles
  rw [mem_normalizeDeviceAuthScopes, Option.getD_some, mem_normalize_iff hnames, hflat]
  refine ⟨?_, .inl⟩
  rintro (h | ⟨hscope, a, ha, himp⟩)
  · exact h
  · rw [mem_normalize_iff hnames, hflat] at ha
    obtain ⟨hrole, hmem, -⟩ := ha
    refine ⟨hrole, ?_, ?_⟩
    · -- the read and write scopes that a scope of a normal form implies are in it
      obtain ⟨b, hb, hba⟩ := implied_of_mem_normalize hmem
      exact mem_normalizeDeviceAuthScopes.mpr (.inr ⟨hscope, b, hb, hba.trans himp⟩)
    · rcases hscope with rfl | rfl <;> decide


end ClawWorks.DevicePairing
