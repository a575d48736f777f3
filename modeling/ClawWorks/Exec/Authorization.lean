import ClawWorks.Exec.AuthorizationPlan

/-!
# What a plan authorizes

A plan is evaluated candidate by candidate: the allowlist, then safe binaries, safe builtins and trusted skill binaries.
-/

namespace ClawWorks.Exec

open List

/-! ## Evaluation -/

inductive ExecSegmentSatisfiedBy
  | allowlist | safeBins | safeBuiltins | skills

structure SkillBinTrustEntry where
  name : JsString
  resolvedPath : JsString

/-- What segments are evaluated with: the tests of the host, as they are for its allowlist, directory, environment and
platform, and whether builtins and skills count. -/
structure ExecAllowlistContext (ε : Type) where
  /-- The vector that runs, and the entry of the allowlist it matches. -/
  resolveSegmentAllowlistMatch : ExecCommandSegment → Argv × Option ε
  isSafeBinUsage : Argv → ExecCommandSegment → Bool
  isSafeBuiltinSegment : ExecCommandSegment → Bool
  /-- Whether the execution target is one of the skill binaries, under its trusted path. -/
  isTrustedSkillBin : List SkillBinTrustEntry → ExecCommandSegment → Bool
  allowShellBuiltins : Bool
  autoAllowSkills : Bool
  skillBins : List SkillBinTrustEntry

structure CandidateEvaluation (ε : Type) where
  allowlistMatch : Option ε
  satisfiedBy : Option ExecSegmentSatisfiedBy

structure ExecAllowlistAnalysis (ε : Type) where
  analysisOk : Bool
  allowlistSatisfied : Bool
  allowlistMatches : List ε
  segments : List ExecCommandSegment
  segmentAllowlistEntries : List (Option ε)
  segmentSatisfiedBy : List (Option ExecSegmentSatisfiedBy)
  authorizationPlan : ExecAuthorizationPlan

section

variable {ε : Type} (context : ExecAllowlistContext ε)

def ExecAllowlistContext.allowSkills : Bool :=
  context.autoAllowSkills && 0 < context.skillBins.length

def isSkillAutoAllowedSegment (segment : ExecCommandSegment) : Bool :=
  context.allowSkills && context.isTrustedSkillBin context.skillBins segment

def resolveSegmentSatisfaction (allowlistMatch : Option ε) (segment : ExecCommandSegment) (effectiveArgv : Argv) :
    Option ExecSegmentSatisfiedBy :=
  if allowlistMatch.isSome then some .allowlist
  else if context.isSafeBinUsage effectiveArgv segment then some .safeBins
  else if context.allowShellBuiltins && context.isSafeBuiltinSegment segment then some .safeBuiltins
  else if isSkillAutoAllowedSegment context segment then some .skills
  else none

def evaluateAuthorizationCandidate (candidate : ExecAuthorizationCandidate) : CandidateEvaluation ε :=
  if candidate.trustMode = .promptOnly then ⟨none, none⟩
  else
    let resolved := context.resolveSegmentAllowlistMatch candidate.sourceSegment
    if resolved.2.isSome then ⟨resolved.2, some .allowlist⟩
    else ⟨resolved.2, resolveSegmentSatisfaction context resolved.2 candidate.sourceSegment resolved.1⟩

def evaluateAuthorizationPlanGroup (group : ExecAuthorizationGroup) :
    List (ExecCommandSegment × CandidateEvaluation ε) :=
  group.candidates.map fun candidate =>
    (candidate.sourceSegment, evaluateAuthorizationCandidate context candidate)

def evaluateAuthorizationPlan (plan : ExecAuthorizationPlan) : ExecAllowlistAnalysis ε :=
  match plan with
  | .failed _ _ _ => ⟨false, false, [], [], [], [], plan⟩
  | .ok _ _ groups _ =>
    let evaluations := groups.map (evaluateAuthorizationPlanGroup context)
    { analysisOk := true
      allowlistSatisfied := evaluations.all fun evaluation => evaluation.all fun result => result.2.satisfiedBy.isSome
      allowlistMatches := evaluations.flatten.filterMap fun result => result.2.allowlistMatch
      segments := evaluations.flatten.map (·.1)
      segmentAllowlistEntries := evaluations.flatten.map fun result => result.2.allowlistMatch
      segmentSatisfiedBy := evaluations.flatten.map fun result => result.2.satisfiedBy
      authorizationPlan := plan }

/-- A segment that the allowlist, a safe binary, a safe builtin or a trusted skill binary lets run. -/
def IsSatisfied (segment : ExecCommandSegment) : Prop :=
  (context.resolveSegmentAllowlistMatch segment).2.isSome = true ∨
    context.isSafeBinUsage (context.resolveSegmentAllowlistMatch segment).1 segment = true ∨
    (context.allowShellBuiltins = true ∧ context.isSafeBuiltinSegment segment = true) ∨
    context.autoAllowSkills = true ∧ context.isTrustedSkillBin context.skillBins segment = true

variable {context}

theorem candidate_satisfied {candidate : ExecAuthorizationCandidate}
    (h : (evaluateAuthorizationCandidate context candidate).satisfiedBy.isSome) :
    candidate.trustMode ≠ .promptOnly ∧ IsSatisfied context candidate.sourceSegment := by
  unfold evaluateAuthorizationCandidate at h
  split at h
  · cases h
  rename_i htrust
  refine ⟨htrust, ?_⟩
  dsimp only at h
  split at h
  · rename_i hmatch
    exact .inl hmatch
  · unfold resolveSegmentSatisfaction at h
    split at h
    · rename_i hmatch
      exact .inl hmatch
    · split at h
      · rename_i hsafe
        exact .inr (.inl hsafe)
      · split at h
        · rename_i hbuiltin
          exact .inr (.inr (.inl (Bool.and_eq_true_iff.mp hbuiltin)))
        · split at h
          · rename_i hskill
            obtain ⟨hallowed, htrusted⟩ := Bool.and_eq_true_iff.mp hskill
            exact .inr (.inr (.inr ⟨(Bool.and_eq_true_iff.mp hallowed).1, htrusted⟩))
          · cases h

theorem evaluation_satisfied {dialect : ExecAuthorizationDialect} {command : JsString}
    {groups : List ExecAuthorizationGroup} {operators : List CommandOperator}
    (h : (evaluateAuthorizationPlan context (.ok dialect command groups operators)).allowlistSatisfied) :
    ∀ candidate ∈ planCandidates groups,
      candidate.trustMode ≠ .promptOnly ∧ IsSatisfied context candidate.sourceSegment := by
  intro candidate hcandidate
  obtain ⟨group, hgroup, hmem⟩ := mem_flatMap.mp hcandidate
  have hall := all_eq_true.mp h _ (mem_map_of_mem hgroup)
  exact candidate_satisfied (all_eq_true.mp hall _ (mem_map_of_mem hmem))

end

/-! ## What no plan should leave out -/

/-- Distinct ids, and operators between the commands. -/
structure CommandExplanation.WellFormed (explanation : CommandExplanation) : Prop where
  ids : ∀ step ∈ explanation.topLevelCommands ++ explanation.nestedCommands, ∃ id, step.id = some id ∧ Truthy id
  distinct : ((explanation.topLevelCommands ++ explanation.nestedCommands).map (·.id)).Nodup
  operators : ∀ operator ∈ explanation.operators,
    some operator.fromCommandId ∈ (explanation.topLevelCommands ++ explanation.nestedCommands).map (·.id) ∧
      some operator.toCommandId ∈ (explanation.topLevelCommands ++ explanation.nestedCommands).map (·.id)

def inSourceOrder (steps : List CommandStep) : List CommandStep :=
  steps.insertionSort fun left right => left.span.startIndex ≤ right.span.startIndex

def payloadCommands (explanation : CommandExplanation) (wrapper : CommandStep) : List CommandStep :=
  explanation.nestedCommands.filter fun step =>
    step.context == .wrapperPayload && step.parentCommandId == wrapper.id

def isUnanalyzable (risk : CommandRisk) : Prop :=
  UNANALYZABLE_RISKS.contains risk.kind = true

section

variable [LowerCase]

variable (explanation : CommandExplanation)

def IsOnlyWrapper (wrapper : CommandStep) : Prop :=
  explanation.topLevelCommands = [wrapper] ∧ (shellWrapperRiskForStep wrapper explanation.risks).isSome = true

def CandidatesComplete (context : PlanningContext) (groups : List ExecAuthorizationGroup) : Prop :=
  candidateSteps groups = inSourceOrder explanation.topLevelCommands ∨ ∃ wrapper, IsOnlyWrapper explanation wrapper ∧
      (candidateSteps groups = inSourceOrder (payloadCommands explanation wrapper) ∨
        ∃ carriedArgv, positionalCarrierArgv (commandSegmentFromStep wrapper context) = some carriedArgv ∧
          candidateSteps groups = [carriedStep wrapper carriedArgv])

/-- Nothing that is not analyzed is outside a single wrapper. -/
def RisksInside : Prop :=
  ((∀ risk ∈ explanation.risks, ¬ isUnanalyzable risk) ∧
      ∀ shape ∈ explanation.shapes, shape ∉ UNSUPPORTED_DIRECT_SHELL_TOPOLOGY_SHAPES) ∨
    ∃ wrapper, IsOnlyWrapper explanation wrapper ∧
      ∀ risk ∈ explanation.risks, isUnanalyzable risk → riskInsideStep risk wrapper = true

def NoCommandEscapes (command : JsString) (explanation : CommandExplanation) (context : PlanningContext) : Prop :=
  ∀ dialect original groups operators,
    planFromExplanation command explanation context = .ok dialect original groups operators →
      CandidatesComplete explanation context groups ∧ (candidateSteps groups).Nodup ∧ RisksInside explanation ∧
        ∀ (ε : Type) (allow : ExecAllowlistContext ε),
          (evaluateAuthorizationPlan allow (.ok dialect original groups operators)).allowlistSatisfied = true →
            planCandidates groups ≠ [] ∧ ∀ candidate ∈ planCandidates groups,
              candidate.trustMode ≠ .promptOnly ∧ candidate.sourceSegment.isPolicyBlocked = false ∧
                IsSatisfied allow candidate.sourceSegment

def CarriesBesideOthers (context : PlanningContext) : Prop :=
  explanation.ok = true ∧ allowsNestedPayload explanation = true ∧
    ∃ wrapper other rest, explanation.topLevelCommands = wrapper :: other :: rest ∧
      (shellWrapperRiskForStep wrapper explanation.risks).isSome = true ∧ hasCommandPrelude wrapper = false ∧
      (positionalCarrierArgv (commandSegmentFromStep wrapper context)).isSome = true

/-- The first risk that is not analyzed is inside the only wrapper, and another one is outside. -/
def RiskOverlooked : Prop :=
  explanation.ok = true ∧ ∃ wrapper, IsOnlyWrapper explanation wrapper ∧
    (∃ first, findUnanalyzableRisk explanation = some first ∧ riskInsideStep first wrapper = true) ∧
    ∃ risk ∈ explanation.risks, isUnanalyzable risk ∧ riskInsideStep risk wrapper = false

/-! ## The parts of a plan -/

variable {explanation : CommandExplanation} {context : PlanningContext} {wrapper : CommandStep}
  {groups : List ExecAuthorizationGroup}

omit [LowerCase] in
theorem sorted_steps (context : PlanningContext) (steps : List CommandStep) :
    ((steps.map (withSegment context)).insertionSort startsBefore).map (·.step) = inSourceOrder steps := by
  have hsorted := map_insertionSort startsBefore
    (fun left right : CommandStep => left.span.startIndex ≤ right.span.startIndex) (·.step)
    (steps.map (withSegment context)) fun _ _ _ _ => Iff.rfl
  rw [hsorted, map_map]
  exact congrArg inSourceOrder (map_id steps)

omit [LowerCase] in
theorem inSourceOrder_perm (steps : List CommandStep) : (inSourceOrder steps).Perm steps := perm_insertionSort _ _

omit [LowerCase] in
theorem analyzed_of_not_blocked (h : hasBlockingRisk explanation = none) :
    (∀ risk ∈ explanation.risks, ¬ isUnanalyzable risk) ∧
      ∀ shape ∈ explanation.shapes, shape ∉ UNSUPPORTED_DIRECT_SHELL_TOPOLOGY_SHAPES := by
  unfold hasBlockingRisk at h
  split at h
  · cases h
  rename_i hrisk
  split at h
  · cases h
  · rename_i hshape
    refine ⟨fun risk hmem => find?_eq_none.mp hrisk risk hmem, fun shape hmem hunsupported => ?_⟩
    exact find?_eq_none.mp hshape shape hmem (contains_iff_mem.mpr hunsupported)

omit [LowerCase] in
theorem onlyWrapper_of_fallBack (h : canFallBackToExactWrapper explanation) :
    ∃ wrapper, IsOnlyWrapper explanation wrapper ∧
      ∀ risk, findUnanalyzableRisk explanation = some risk → riskInsideStep risk wrapper := by
  unfold canFallBackToExactWrapper at h
  split at h
  · rename_i wrapper htop
    obtain ⟨hrisk, hinside⟩ := Bool.and_eq_true_iff.mp h
    refine ⟨wrapper, ⟨htop, hrisk⟩, fun risk hfound => ?_⟩
    rw [hfound] at hinside
    exact hinside
  · cases h

omit [LowerCase] in
theorem payload_steps {id : JsString} (hid : wrapper.id = some id) (hne : Truthy id) (context : PlanningContext)
    (nested : List CommandStep) :
    stepsForWrapper wrapper ((nested.filter fun step => step.context == .wrapperPayload).map (withSegment context)) =
      (nested.filter fun step => step.context == .wrapperPayload && step.parentCommandId == wrapper.id).map
        (withSegment context) := by
  rw [stepsForWrapper, hid, truthy?_some hne]
  dsimp only
  rw [filter_map, filter_filter]
  congr 1
  exact filter_congr fun step _ => Bool.and_comm _ _

theorem payloadPlan_cases (h : payloadPlan explanation context = some groups) :
    ∃ wrapper rest, explanation.topLevelCommands = wrapper :: rest ∧ allowsNestedPayload explanation ∧
      (shellWrapperRiskForStep wrapper explanation.risks).isSome ∧ hasCommandPrelude wrapper = false ∧
      (∀ group ∈ groups, group.Sound) ∧
      ((∃ carriedArgv, positionalCarrierArgv (commandSegmentFromStep wrapper context) = some carriedArgv ∧
          candidateSteps groups = [carriedStep wrapper carriedArgv]) ∨
        rest = [] ∧ ∀ id, wrapper.id = some id → Truthy id →
          candidateSteps groups = inSourceOrder (payloadCommands explanation wrapper)) := by
  unfold payloadPlan wrapperPayloadPlan at h
  cases htop : explanation.topLevelCommands with
  | nil =>
    rw [htop] at h
    cases h
  | cons wrapper rest =>
    rw [htop, map_cons, head?_cons] at h
    dsimp only at h
    have hstep : (withSegment context wrapper).step = wrapper := rfl
    have hsegment : (withSegment context wrapper).segment = commandSegmentFromStep wrapper context := rfl
    rw [hstep, hsegment] at h
    cases hrisk : shellWrapperRiskForStep wrapper explanation.risks with
    | none =>
      rw [hrisk] at h
      cases h
    | some risk =>
      rw [hrisk] at h
      dsimp only at h
      split at h
      · cases h
      rename_i hopen
      simp only [Bool.or_eq_true, Bool.not_eq_true', not_or, Bool.not_eq_true, Bool.not_eq_false] at hopen
      obtain ⟨⟨hprelude, -⟩, hallowed⟩ := hopen
      refine ⟨wrapper, rest, rfl, hallowed, by rw [hrisk]; rfl, hprelude, ?_⟩
      cases hcarried : positionalCarrierArgv (commandSegmentFromStep wrapper context) with
      | some carriedArgv =>
        rw [positionalCarrierSteps, hsegment, hcarried, Option.map_some] at h
        obtain ⟨hsteps, hsound⟩ := boundedGroups_eq_some h (groupsFromSteps_sound _ _ _)
        rw [groupsFromSteps_steps] at hsteps
        exact ⟨hsound, .inl ⟨carriedArgv, rfl, hsteps⟩⟩
      | none =>
        rw [positionalCarrierSteps, hsegment, hcarried, Option.map_none] at h
        dsimp only at h
        split at h
        · cases h
        rename_i hused
        obtain ⟨hsteps, hsound⟩ := boundedGroups_eq_some h (groupsFromSteps_sound _ _ _)
        rw [groupsFromSteps_steps] at hsteps
        refine ⟨hsound, .inr ⟨?_, fun id hid hne => ?_⟩⟩
        · rw [Bool.not_eq_true', Bool.not_eq_false, shouldUseWrapperPayload] at hused
          simp only [length_cons, length_map, Bool.and_eq_true, beq_iff_eq] at hused
          exact length_eq_zero_iff.mp (by omega)
        · rw [hsteps, payload_steps hid hne, sorted_steps]
          rfl

omit [LowerCase] in
theorem boundedGroups_ne_nil {wrapper : CommandStepWithSegment} {groups bounded : List ExecAuthorizationGroup}
    (h : boundedGroups wrapper groups = some bounded) : bounded ≠ [] := by
  obtain ⟨hlength, hbounded⟩ := Option.ite_none_right_eq_some.mp h
  obtain rfl := Option.some.inj hbounded
  unfold applyWrapperPayloadPersistenceBoundary
  split
  · exact length_pos_iff.mp hlength
  · exact mt map_eq_nil_iff.mp (length_pos_iff.mp hlength)

theorem payloadPlan_ne_nil (h : payloadPlan explanation context = some groups) : groups ≠ [] := by
  unfold payloadPlan wrapperPayloadPlan at h
  split at h
  · cases h
  split at h
  · cases h
  split at h
  · cases h
  dsimp only at h
  split at h
  · exact boundedGroups_ne_nil h
  · split at h
    · cases h
    · exact boundedGroups_ne_nil h

theorem canUse_of_carrier {segment : ExecCommandSegment} {carriedArgv : Argv}
    (h : positionalCarrierArgv segment = some carriedArgv) : canUseWrapperShellInvocation segment := by
  unfold positionalCarrierArgv at h
  dsimp only at h
  split at h
  · split at h
    · cases h
    · rename_i hopen
      simp only [Bool.or_eq_true, Bool.not_eq_true', not_or, Bool.not_eq_false] at hopen
      exact hopen.1
  · cases h

theorem payloadPlan_carried {rest : List CommandStep} {carriedArgv : Argv}
    (htop : explanation.topLevelCommands = wrapper :: rest) (hallowed : allowsNestedPayload explanation)
    (hrisk : (shellWrapperRiskForStep wrapper explanation.risks).isSome)
    (hprelude : hasCommandPrelude wrapper = false)
    (hcarried : positionalCarrierArgv (commandSegmentFromStep wrapper context) = some carriedArgv) :
    ∃ groups, payloadPlan explanation context = some groups ∧
      candidateSteps groups = [carriedStep wrapper carriedArgv] := by
  obtain ⟨risk, hrisk⟩ := Option.isSome_iff_exists.mp hrisk
  have hstep : (withSegment context wrapper).step = wrapper := rfl
  have hsegment : (withSegment context wrapper).segment = commandSegmentFromStep wrapper context := rfl
  have hopen : ¬ (hasCommandPrelude wrapper || !canUseWrapperShellInvocation (commandSegmentFromStep wrapper context) ||
      !allowsNestedPayload explanation) := by
    simp [hprelude, canUse_of_carrier hcarried, hallowed]
  rw [payloadPlan, htop, map_cons, wrapperPayloadPlan, head?_cons]
  simp only [hstep, hsegment, hrisk, if_neg hopen, positionalCarrierSteps, hcarried, Option.map_some]
  obtain ⟨groups, hbounded⟩ := boundedGroups_of_ne_nil (withSegment context wrapper)
    (groupsFromSteps_ne_nil _ [] (cons_ne_nil _ []))
  obtain ⟨hsteps, -⟩ := boundedGroups_eq_some hbounded (groupsFromSteps_sound _ _ _)
  exact ⟨groups, hbounded, hsteps.trans (groupsFromSteps_steps _ _ _)⟩

variable {dialect : ExecAuthorizationDialect} {operators : List CommandOperator}

theorem plan_eq_ok_iff {command original : JsString} :
    planFromExplanation command explanation context = .ok dialect original groups operators ↔ explanation.ok ∧
        (hasBlockingRisk explanation = none ∨ canFallBackToExactWrapper explanation) ∧
        (payloadPlan explanation context).getD (directPlan explanation context) = groups ∧
        groups ≠ [] ∧ dialect = .posixShell ∧ original = command ∧ operators = explanation.operators := by
  unfold planFromExplanation
  dsimp only
  generalize Option.getD _ _ = all
  by_cases hopen : explanation.ok ∧ (hasBlockingRisk explanation = none ∨ canFallBackToExactWrapper explanation)
  · have hgate : ¬ (!explanation.ok || (hasBlockingRisk explanation).isSome && !canFallBackToExactWrapper explanation) =
        true := by
      rcases hopen with ⟨hok, hnone | hfall⟩
      · simp [hok, hnone]
      · simp [hok, hfall]
    rw [if_neg hgate]
    by_cases hall : all = []
    · rw [if_pos (isEmpty_iff.mpr hall)]
      refine iff_of_false nofun ?_
      rintro ⟨-, -, rfl, hne, -⟩
      exact hne hall
    · rw [if_neg (mt List.isEmpty_iff.mp hall)]
      constructor
      · intro hplan
        cases hplan
        exact ⟨hopen.1, hopen.2, rfl, hall, rfl, rfl, rfl⟩
      · rintro ⟨-, -, rfl, -, rfl, rfl, rfl⟩
        rfl
  · have hgate : (!explanation.ok || (hasBlockingRisk explanation).isSome && !canFallBackToExactWrapper explanation) =
        true := by
      by_contra hgate
      simp only [Bool.or_eq_true, Bool.not_eq_true', Bool.and_eq_true, not_or, not_and, Bool.not_eq_false,
        Option.isSome_iff_ne_none] at hgate
      exact hopen ⟨hgate.1, or_iff_not_imp_left.mpr hgate.2⟩
    rw [if_pos hgate]
    refine iff_of_false nofun ?_
    rintro ⟨hok, hblocked, -⟩
    exact hopen ⟨hok, hblocked⟩

omit [LowerCase] in
theorem groups_satisfied (hne : groups ≠ []) (hsound : ∀ group ∈ groups, group.Sound) {original : JsString} (ε : Type)
    (allow : ExecAllowlistContext ε)
    (h : (evaluateAuthorizationPlan allow (.ok dialect original groups operators)).allowlistSatisfied) :
    planCandidates groups ≠ [] ∧ ∀ candidate ∈ planCandidates groups,
      candidate.trustMode ≠ .promptOnly ∧ candidate.sourceSegment.isPolicyBlocked = false ∧
        IsSatisfied allow candidate.sourceSegment := by
  refine ⟨?_, fun candidate hcandidate => ?_⟩
  · obtain ⟨group, rest, rfl⟩ := exists_cons_of_ne_nil hne
    intro hnil
    exact (hsound group mem_cons_self).candidates_ne_nil (append_eq_nil_iff.mp hnil).1
  · obtain ⟨htrust, hsatisfied⟩ := evaluation_satisfied h candidate hcandidate
    obtain ⟨group, hgroup, hmem⟩ := mem_flatMap.mp hcandidate
    refine ⟨htrust, ?_, hsatisfied⟩
    by_contra hblocked
    exact htrust ((hsound group hgroup).respectsPolicy candidate hmem (Bool.not_eq_false _ ▸ hblocked))

omit [LowerCase] in
theorem fallBack_of_first {first : CommandRisk} (honly : IsOnlyWrapper explanation wrapper)
    (hfirst : findUnanalyzableRisk explanation = some first) (hinside : riskInsideStep first wrapper) :
    canFallBackToExactWrapper explanation := by
  unfold canFallBackToExactWrapper
  rw [honly.1]
  dsimp only
  rw [honly.2, hfirst]
  exact hinside

theorem plan_of_fallBack (command : JsString) (context : PlanningContext) (hok : explanation.ok)
    (hfall : canFallBackToExactWrapper explanation) :
    ∃ groups, planFromExplanation command explanation context =
      .ok .posixShell command groups explanation.operators := by
  refine ⟨_, plan_eq_ok_iff.mpr ⟨hok, .inr hfall, rfl, ?_, rfl, rfl, rfl⟩⟩
  obtain ⟨wrapper, ⟨htop, -⟩, -⟩ := onlyWrapper_of_fallBack hfall
  cases hpayload : payloadPlan explanation context with
  | some payload =>
    rw [Option.getD_some]
    exact payloadPlan_ne_nil hpayload
  | none =>
    rw [Option.getD_none, directPlan, htop]
    exact groupsFromSteps_ne_nil _ _ (cons_ne_nil _ [])

omit [LowerCase] in
theorem inSourceOrder_nodup {steps : List CommandStep} (h : (steps.map (·.id)).Nodup) : (inSourceOrder steps).Nodup :=
  (inSourceOrder_perm steps).nodup_iff.mpr h.of_map

theorem plan_complete (h : explanation.WellFormed) (hok : explanation.ok)
    (hcarries : ¬ CarriesBesideOthers explanation context)
    (hgroups : (payloadPlan explanation context).getD (directPlan explanation context) = groups) :
    CandidatesComplete explanation context groups ∧ (candidateSteps groups).Nodup ∧
      ∀ group ∈ groups, group.Sound := by
  have hdistinct := h.distinct
  rw [map_append, nodup_append] at hdistinct
  obtain ⟨htopIds, hnestedIds, -⟩ := hdistinct
  cases hpayload : payloadPlan explanation context with
  | none =>
    rw [hpayload, Option.getD_none] at hgroups
    subst hgroups
    have hsteps : candidateSteps (directPlan explanation context) = inSourceOrder explanation.topLevelCommands :=
      (groupsFromSteps_steps _ _ _).trans (sorted_steps context _)
    refine ⟨.inl hsteps, ?_, groupsFromSteps_sound _ _ _⟩
    rw [hsteps]
    exact inSourceOrder_nodup htopIds
  | some payload =>
    rw [hpayload, Option.getD_some] at hgroups
    subst hgroups
    obtain ⟨wrapper, rest, htop, hallowed, hrisk, hprelude, hsound, hsteps⟩ := payloadPlan_cases hpayload
    rcases hsteps with ⟨carriedArgv, hcarried, hsteps⟩ | ⟨rfl, hsteps⟩
    · -- with further commands this is the first of the two ways
      cases rest with
      | cons other rest =>
        exact absurd ⟨hok, hallowed, wrapper, other, rest, htop, hrisk, hprelude,
          Option.isSome_iff_exists.mpr ⟨carriedArgv, hcarried⟩⟩ hcarries
      | nil =>
        refine ⟨.inr ⟨wrapper, ⟨htop, hrisk⟩, .inr ⟨carriedArgv, hcarried, hsteps⟩⟩, ?_, hsound⟩
        rw [hsteps]
        exact nodup_singleton _
    · obtain ⟨id, hid, htruthy⟩ := h.ids wrapper (by rw [htop]; exact mem_cons_self)
      have hpayloadSteps := hsteps id hid htruthy
      refine ⟨.inr ⟨wrapper, ⟨htop, hrisk⟩, .inl hpayloadSteps⟩, ?_, hsound⟩
      rw [hpayloadSteps]
      exact inSourceOrder_nodup (hnestedIds.sublist (filter_sublist.map _))

omit [LowerCase] in
theorem risks_inside (hok : explanation.ok)
    (hblocked : hasBlockingRisk explanation = none ∨ canFallBackToExactWrapper explanation)
    (hoverlooked : ¬ RiskOverlooked explanation) : RisksInside explanation := by
  rcases hblocked with hnone | hfall
  · exact .inl (analyzed_of_not_blocked hnone)
  obtain ⟨wrapper, honly, hfirst⟩ := onlyWrapper_of_fallBack hfall
  refine .inr ⟨wrapper, honly, fun risk hrisk hunanalyzable => ?_⟩
  by_contra houtside
  cases hfound : findUnanalyzableRisk explanation with
  | none => exact find?_eq_none.mp hfound risk hrisk hunanalyzable
  | some first =>
    exact hoverlooked ⟨hok, wrapper, honly, ⟨first, hfound, hfirst first hfound⟩, risk, hrisk, hunanalyzable,
      Bool.eq_false_iff.mpr houtside⟩

/-- **No command escapes the plan but in these two ways.** -/
theorem noCommandEscapes_iff (command : JsString) {explanation : CommandExplanation} (context : PlanningContext)
    (h : explanation.WellFormed) : NoCommandEscapes command explanation context ↔
      ¬ CarriesBesideOthers explanation context ∧ ¬ RiskOverlooked explanation := by
  constructor
  · intro hescapes
    constructor
    · rintro ⟨hok, hallowed, wrapper, other, rest, htop, hrisk, hprelude, hcarried⟩
      obtain ⟨carriedArgv, hcarried⟩ := Option.isSome_iff_exists.mp hcarried
      obtain ⟨groups, hplan, hsteps⟩ := payloadPlan_carried htop hallowed hrisk hprelude hcarried
      have hblocked : hasBlockingRisk explanation = none :=
        Option.isNone_iff_eq_none.mp (Bool.and_eq_true_iff.mp hallowed).1
      have hne : groups ≠ [] := by
        rintro rfl
        cases hsteps
      obtain ⟨hcomplete, -⟩ := hescapes _ _ _ _ (plan_eq_ok_iff.mpr
        ⟨hok, Or.inl hblocked, by rw [hplan, Option.getD_some], hne, rfl, rfl, rfl⟩)
      rcases hcomplete with hall | ⟨only, ⟨honly, -⟩, -⟩
      · have hlength := (inSourceOrder_perm explanation.topLevelCommands).length_eq
        rw [← hall, hsteps, htop] at hlength
        simp at hlength
      · rw [htop] at honly
        cases honly
    · rintro ⟨hok, wrapper, honly, ⟨first, hfirst, hinside⟩, risk, hrisk, hunanalyzable, houtside⟩
      obtain ⟨groups, hplan⟩ := plan_of_fallBack command context hok
        (fallBack_of_first honly hfirst hinside)
      obtain ⟨-, -, hrisks, -⟩ := hescapes _ _ _ _ hplan
      rcases hrisks with ⟨hanalyzed, -⟩ | ⟨only, ⟨htop, -⟩, hall⟩
      · exact hanalyzed risk hrisk hunanalyzable
      · rw [honly.1] at htop
        cases htop
        rw [hall risk hrisk hunanalyzable] at houtside
        cases houtside
  · rintro ⟨hcarries, hoverlooked⟩ dialect original groups operators hplan
    obtain ⟨hok, hblocked, hgroups, hne, -, -, -⟩ := plan_eq_ok_iff.mp hplan
    obtain ⟨hcomplete, hnodup, hsound⟩ := plan_complete h hok hcarries hgroups
    exact ⟨hcomplete, hnodup, risks_inside hok hblocked hoverlooked, groups_satisfied hne hsound⟩

end

section

attribute [local instance] asciiLowerCase

/-- `sh -c 'echo $(id)' > out`: the substitution is inside the step of the shell, the redirect is not. -/
def redirectedShell : CommandExplanation where
  ok := true
  shapes := []
  topLevelCommands :=
    [⟨some (js "command-0"), none, .topLevel, js "sh", [js "sh", js "-c", js "echo $(id)"], js "sh -c 'echo $(id)'",
      ⟨0, 18⟩, ⟨0, 2⟩⟩]
  nestedCommands :=
    [⟨some (js "command-1"), some (js "command-0"), .wrapperPayload, js "echo", [js "echo", js "$(id)"],
        js "echo $(id)", ⟨7, 17⟩, ⟨7, 11⟩⟩,
      ⟨some (js "command-2"), some (js "command-0"), .commandSubstitution, js "id", [js "id"], js "id", ⟨14, 16⟩,
        ⟨14, 16⟩⟩]
  operators := []
  risks :=
    [⟨.shellWrapper, js "echo $(id)", js "sh -c 'echo $(id)'", ⟨0, 18⟩⟩, ⟨.dynamicArgument, [], js "$(id)", ⟨12, 17⟩⟩,
      ⟨.commandSubstitution, [], js "$(id)", ⟨12, 17⟩⟩,
      ⟨.redirect, [], js "> out", ⟨19, 24⟩⟩]

/-- Nothing resolves. -/
def unresolvedContext : PlanningContext where
  resolveCommandResolutionFromArgv _ := none
  process := .linux

theorem redirectedShell_wellFormed : redirectedShell.WellFormed where
  ids := by decide
  distinct := by decide
  operators := nofun

theorem redirectedShell_escapes_iff :
    NoCommandEscapes (js "sh -c 'echo $(id)' > out") redirectedShell unresolvedContext ↔
      ¬ CarriesBesideOthers redirectedShell unresolvedContext ∧ ¬ RiskOverlooked redirectedShell :=
  noCommandEscapes_iff _ unresolvedContext redirectedShell_wellFormed

/-- The shell is approved as it stands, with its redirect. -/
theorem redirect_escapes : redirectedShell.WellFormed ∧
    ¬ NoCommandEscapes (js "sh -c 'echo $(id)' > out") redirectedShell unresolvedContext := by
  refine ⟨redirectedShell_wellFormed, fun hescapes => ?_⟩
  obtain ⟨groups, hplan⟩ := plan_of_fallBack (js "sh -c 'echo $(id)' > out") unresolvedContext
    (rfl : redirectedShell.ok = true) (by decide)
  obtain ⟨-, -, hrisks, -⟩ := hescapes _ _ _ _ hplan
  rcases hrisks with ⟨hanalyzed, -⟩ | ⟨wrapper, ⟨htop, -⟩, hinside⟩
  · exact hanalyzed ⟨.redirect, [], js "> out", ⟨19, 24⟩⟩ (by decide) rfl
  · cases htop
    exact absurd (hinside ⟨.redirect, [], js "> out", ⟨19, 24⟩⟩ (by decide) rfl) (by decide)

end

end ClawWorks.Exec
