import ClawWorks.Enterprise.Runtime
import ClawWorks.Enterprise.TraceStore

/-!
# Opening a mediated run

`openRun` places the cursor of a new execution: on the first step of its route that the execution it continues did not
finish, else on the first step. `openRun_cases` says which, and what the opening records.
-/

namespace ClawWorks

/-- The `run.resumed` event: the cumulative prefix the new execution inherits. -/
def runResumedEvent (resume : TakenResume) (openedOn : EnterpriseId) : EnterpriseRunEvent where
  kind := .runResumed
  nodeId := none
  payload :=
    [("resumedFrom", .text resume.executionId), ("carriedSteps", .array (resume.completedNodeIds.map some)),
      ("openedOn", .text openedOn)]

@[simp] theorem carriedSteps_runResumedEvent (resume : TakenResume) (openedOn : EnterpriseId) :
    (runResumedEvent resume openedOn).payload.strings "carriedSteps" = resume.completedNodeIds := by
  have hfield : (runResumedEvent resume openedOn).payload.lookup "carriedSteps" =
      some (.array (resume.completedNodeIds.map some)) := by
    simp [runResumedEvent, List.lookup_cons]
  simp [EventPayload.strings, hfield]

variable [RunEnvironment]

variable (plan : EnterpriseRunPlan) (resume : Option TakenResume)

def acceptedResume : Option TakenResume :=
  if planTracksSteps plan && !(enterpriseStepSequence plan).isEmpty then resume else none

def resumeStepId : Option EnterpriseId :=
  truthy? (resume.bind fun resume => firstUnfinishedStep (enterpriseStepSequence plan) resume.completedNodeIds)

/-- Where the cursor opens: it moves only when some prefix of this route carries over. -/
def openingNodeId (resumeStep : Option EnterpriseId) : EnterpriseId :=
  let steps := enterpriseStepSequence plan
  if planTracksSteps plan && !steps.isEmpty && (resumeStep.isSome || plan.activeNodeId ∉ steps) then
    resumeStep.getD (steps.headD [])
  else plan.activeNodeId

/-- The record of a resume, only when the cursor actually moved. -/
def resumedEvents (resumeStep : Option EnterpriseId) : List EnterpriseRunEvent :=
  match resume, resumeStep with
  | some resume, some step => [runResumedEvent resume step]
  | _, _ => []

/-- The first entry of the step timeline. -/
def openingEvents (activeNodeId : EnterpriseId) : List EnterpriseRunEvent :=
  if planTracksSteps plan && activeNodeId ∈ enterpriseStepSequence plan then
    ((findPlanNode plan activeNodeId).map fun node => nodeEnteredEvent node none).toList
  else []

/-- Open the step timeline of a newly registered execution. -/
def openRun (run : EnterpriseActiveRun) (resume : Option TakenResume) : EnterpriseActiveRun :=
  let taken := acceptedResume run.plan resume
  let resumeStep := resumeStepId run.plan taken
  let activeNodeId := openingNodeId run.plan resumeStep
  { run.moveTo activeNodeId with
    trace := run.trace ++ resumedEvents taken resumeStep ++ openingEvents run.plan activeNodeId }

/-- A registered execution before its timeline opens: its cursor is on the first step and nothing is recorded. -/
structure NewlyRegistered (run : EnterpriseActiveRun) : Prop where
  cursor : (enterpriseStepSequence run.plan)[0]? = some run.plan.activeNodeId
  openRoute : run.routeCompleted = false
  unrecorded : run.trace = []

variable {plan : EnterpriseRunPlan}

theorem kind_of_mem_openingEvents {activeNodeId : EnterpriseId}
    {event : EnterpriseRunEvent} (h : event ∈ openingEvents plan activeNodeId) : event.kind = .nodeEntered := by
  unfold openingEvents at h
  split at h
  · simp only [Option.mem_toList, Option.map_eq_some_iff] at h
    obtain ⟨node, -, rfl⟩ := h
    rfl
  · cases h

theorem openingNodeId_none (h : plan.activeNodeId ∈ enterpriseStepSequence plan) :
    openingNodeId plan none = plan.activeNodeId := by
  simp [openingNodeId, h]

theorem openingNodeId_some {resume : Option TakenResume} {carried : TakenResume}
    (h : acceptedResume plan resume = some carried) (step : EnterpriseId) :
    resume = some carried ∧ openingNodeId plan (some step) = step := by
  unfold acceptedResume at h
  split at h
  · rename_i hguard
    simp only [Bool.and_eq_true, Bool.not_eq_true'] at hguard
    exact ⟨h, by simp [openingNodeId, hguard.1, hguard.2]⟩
  · cases h

/-- **Where a new execution opens.** Either on its first step, with nothing carried in its record; or on step `k` of
its route, behind steps that were all carried, and its record carries exactly what was taken. -/
theorem openRun_cases {run : EnterpriseActiveRun} (h : NewlyRegistered run) (resume : Option TakenResume) :
    ((openRun run resume).plan.activeNodeId = run.plan.activeNodeId ∧
        ∀ event ∈ (openRun run resume).trace, event.kind = .nodeEntered) ∨
      ∃ carried k entered, resume = some carried ∧
        (enterpriseStepSequence run.plan)[k]? = some (openRun run resume).plan.activeNodeId ∧
        (∀ s ∈ (enterpriseStepSequence run.plan).take k, s ∈ carried.completedNodeIds) ∧
        (openRun run resume).trace = runResumedEvent carried (openRun run resume).plan.activeNodeId :: entered ∧
        ∀ event ∈ entered, event.kind = .nodeEntered := by
  have hmem : run.plan.activeNodeId ∈ enterpriseStepSequence run.plan := List.mem_of_getElem? h.cursor
  have hactive : (openRun run resume).plan.activeNodeId =
      openingNodeId run.plan (resumeStepId run.plan (acceptedResume run.plan resume)) := rfl
  have htrace : (openRun run resume).trace =
      resumedEvents (acceptedResume run.plan resume) (resumeStepId run.plan (acceptedResume run.plan resume)) ++
        openingEvents run.plan (openRun run resume).plan.activeNodeId := by
    rw [hactive, openRun, h.unrecorded, List.nil_append]
  cases htaken : acceptedResume run.plan resume with
  | none =>
    rw [htaken] at hactive htrace
    refine Or.inl ⟨hactive.trans (openingNodeId_none hmem), fun event hevent => ?_⟩
    rw [htrace] at hevent
    exact kind_of_mem_openingEvents hevent
  | some carried =>
    rw [htaken] at hactive htrace
    cases hstep : resumeStepId run.plan (some carried) with
    | none =>
      rw [hstep] at hactive htrace
      refine Or.inl ⟨hactive.trans (openingNodeId_none hmem), fun event hevent => ?_⟩
      rw [htrace] at hevent
      exact kind_of_mem_openingEvents hevent
    | some step =>
      rw [hstep] at hactive htrace
      obtain ⟨hresume, hopen⟩ := openingNodeId_some htaken step
      rw [hopen] at hactive
      obtain ⟨k, hk, hbehind⟩ := firstUnfinishedStep_spec (truthy?_eq_some hstep)
      refine Or.inr ⟨carried, k, openingEvents run.plan step, hresume, by rw [hactive]; exact hk, hbehind, ?_,
        fun _ => kind_of_mem_openingEvents⟩
      rw [htrace, hactive]
      rfl

end ClawWorks
