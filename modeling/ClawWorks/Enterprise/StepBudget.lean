import ClawWorks.Enterprise.StepCursor
import ClawWorks.Lib.Runs

/-!
# A run cannot cycle forever

A reopen takes one of the `MAX_STEP_REOPENS_PER_RUN` that a run has, and gives back at most the steps of one route to
close; every step that is closed takes one of them (`closingsLeft`). So both kinds of calls are bounded over every
sequence of calls.
-/

namespace ClawWorks

def EnterpriseStepAdvance.closes : EnterpriseStepAdvance → Bool
  | .advanced _ _ | .routeComplete _ => true
  | _ => false

def EnterpriseStepReopen.goesBack : EnterpriseStepReopen → Bool
  | .reopened _ _ => true
  | _ => false

open EnterpriseStepReopen

def EnterpriseActiveRun.reopensLeft (run : EnterpriseActiveRun) : ℕ :=
  MAX_STEP_REOPENS_PER_RUN - run.reopenCount

open EnterpriseActiveRun

/-- The steps from the cursor to the end of an open route. -/
def EnterpriseActiveRun.stepsLeft (run : EnterpriseActiveRun) : ℕ :=
  if run.routeCompleted then 0
  else ((enterpriseStepSequence run.plan).idxOf? run.plan.activeNodeId).elim 0
    ((enterpriseStepSequence run.plan).length - ·)

/-- How many steps the run can still close, whatever is called. -/
def EnterpriseActiveRun.closingsLeft (run : EnterpriseActiveRun) : ℕ :=
  run.reopensLeft * (enterpriseStepSequence run.plan).length + run.stepsLeft

theorem EnterpriseActiveRun.stepsLeft_le (run : EnterpriseActiveRun) :
    run.stepsLeft ≤ (enterpriseStepSequence run.plan).length := by
  unfold stepsLeft
  split
  · exact Nat.zero_le _
  · cases (enterpriseStepSequence run.plan).idxOf? run.plan.activeNodeId with
    | none => exact Nat.zero_le _
    | some i => exact Nat.sub_le _ _

theorem stepsLeft_of_cursor {run : EnterpriseActiveRun} (hp : DistinctSteps run.plan) {i : ℕ}
    (hi : (enterpriseStepSequence run.plan)[i]? = some run.plan.activeNodeId) (hopen : run.routeCompleted = false) :
    run.stepsLeft = (enterpriseStepSequence run.plan).length - i := by
  simp [stepsLeft, hopen, hp.idxOf? hi]

theorem stepRef_eq_none {run : EnterpriseActiveRun} {nodeId : EnterpriseId}
    (h : nodeId ∉ enterpriseStepSequence run.plan) : stepRef run nodeId = none := by
  have hnone : findPlanNode run.plan nodeId = none := by
    refine List.find?_eq_none.mpr fun node hnode hid => h ?_
    rw [← beq_iff_eq.mp hid]
    exact List.mem_map_of_mem hnode
  rw [stepRef, hnone]
  rfl

section Budget

variable [RunEnvironment] {run : EnterpriseActiveRun}

structure SameRoute (run run' : EnterpriseActiveRun) : Prop where
  steps : enterpriseStepSequence run'.plan = enterpriseStepSequence run.plan
  distinct : DistinctSteps run.plan → DistinctSteps run'.plan

omit [RunEnvironment] in
theorem SameRoute.of_steps {run run' : EnterpriseActiveRun}
    (h : enterpriseStepSequence run'.plan = enterpriseStepSequence run.plan) : SameRoute run run' :=
  ⟨h, fun hp => ⟨h ▸ hp.nodup, h ▸ hp.truthy⟩⟩

theorem completeRunStep_pays (hp : DistinctSteps run.plan) (params : CompleteStepParams) :
    (if (completeRunStep run params).1.closes then 1 else 0) + (completeRunStep run params).2.closingsLeft ≤
        run.closingsLeft ∧
      (completeRunStep run params).2.reopensLeft = run.reopensLeft ∧ SameRoute run (completeRunStep run params).2 := by
  have hidle : ∀ outcome : EnterpriseStepAdvance, outcome.closes = false →
      completeRunStep run params = (outcome, run) →
      (if (completeRunStep run params).1.closes then 1 else 0) + (completeRunStep run params).2.closingsLeft ≤
          run.closingsLeft ∧
        (completeRunStep run params).2.reopensLeft = run.reopensLeft ∧
          SameRoute run (completeRunStep run params).2 := by
    intro outcome houtcome heq
    rw [heq]
    simp [houtcome, SameRoute.of_steps rfl]
  by_cases htracks : planTracksSteps run.plan
  · by_cases hon : run.plan.activeNodeId ∈ enterpriseStepSequence run.plan
    · obtain ⟨i, hlt, hget⟩ := List.getElem_of_mem hon
      have hi : (enterpriseStepSequence run.plan)[i]? = some run.plan.activeNodeId :=
        List.getElem?_eq_some_iff.mpr ⟨hlt, hget⟩
      obtain ⟨active, hactive, -⟩ := exists_stepRef hon
      by_cases hexpected : (truthy? params.expectedNodeId).any (· != run.plan.activeNodeId)
      · exact hidle (.wrongStep active) rfl (by simp [completeRunStep, htracks, hactive, hexpected])
      cases hroute : run.routeCompleted with
      | true =>
        exact hidle (.alreadyComplete active) rfl (by simp [completeRunStep, htracks, hactive, hexpected, hroute])
      | false =>
        have hleft := stepsLeft_of_cursor hp hi hroute
        rcases completeRunStep_cases hp htracks hi params with
          heq | ⟨-, closed, -, -, ⟨hlast, heq⟩ | ⟨next, entered, hnext, -, heq⟩⟩
        · -- an open route that nothing stops always moves
          exfalso
          have hmoved : (completeRunStep run params).2.trace ≠ run.trace := by
            unfold completeRunStep
            simp only [htracks, Bool.not_true, Bool.false_eq_true, if_false, hactive, hexpected, hroute]
            split
            · simp [finishRoute, emit]
            · split
              · simp [emit]
              · simp [emit, moveTo]
          exact hmoved (congrArg _ heq)
        · rw [heq]
          refine ⟨?_, rfl, .of_steps rfl⟩
          have hdone : (run.emit closed).finishRoute.stepsLeft = 0 := rfl
          have hsame : (run.emit closed).finishRoute.closingsLeft =
              run.reopensLeft * (enterpriseStepSequence run.plan).length := by
            rw [closingsLeft, hdone]
            rfl
          rw [hsame, closingsLeft, hleft]
          split <;> omega
        · rw [heq]
          refine ⟨?_, rfl, .of_steps rfl⟩
          have hmoved : DistinctSteps (((run.emit closed).moveTo next).emit entered).plan := ⟨hp.nodup, hp.truthy⟩
          have hafter : (((run.emit closed).moveTo next).emit entered).stepsLeft =
              (enterpriseStepSequence run.plan).length - (i + 1) :=
            stepsLeft_of_cursor hmoved hnext hroute
          have hsame : (((run.emit closed).moveTo next).emit entered).closingsLeft =
              run.reopensLeft * (enterpriseStepSequence run.plan).length +
                ((enterpriseStepSequence run.plan).length - (i + 1)) := by
            rw [closingsLeft, hafter]
            rfl
          rw [hsame, closingsLeft, hleft]
          split <;> omega
    · exact hidle .noSteps rfl (by simp [completeRunStep, htracks, stepRef_eq_none hon])
  · exact hidle .noSteps rfl (by simp [completeRunStep, htracks])

theorem reopenRunStep_idle_or (params : ReopenStepParams) :
    ((reopenRunStep run params).1.goesBack = false ∧ (reopenRunStep run params).2 = run) ∨
      ∃ (nodeId : EnterpriseId) (event : EnterpriseRunEvent), run.reopenCount < MAX_STEP_REOPENS_PER_RUN ∧
        (reopenRunStep run params).2 = (run.reopenAt nodeId).emit event := by
  by_cases htracks : planTracksSteps run.plan
  · cases htarget : (enterpriseStepSequence run.plan).idxOf? params.nodeId with
    | none => exact .inl (by simp [reopenRunStep, htracks, htarget, goesBack])
    | some k =>
      cases hactive : stepRef run run.plan.activeNodeId with
      | none => exact .inl (by simp [reopenRunStep, htracks, htarget, hactive, goesBack])
      | some active =>
        unfold reopenRunStep
        simp only [htracks, Bool.not_true, Bool.false_eq_true, if_false, htarget, hactive]
        split
        · exact .inl ⟨rfl, rfl⟩
        · split
          · exact .inl ⟨rfl, rfl⟩
          · split
            · exact .inl ⟨rfl, rfl⟩
            · rename_i hcount
              exact .inr ⟨_, _, Nat.lt_of_not_le hcount, rfl⟩
  · exact .inl (by simp [reopenRunStep, htracks, goesBack])

/-- **Going back** takes one of the reopens left, and what it gives back to close is at most one route. -/
theorem reopenRunStep_pays (params : ReopenStepParams) :
    (if (reopenRunStep run params).1.goesBack then 1 else 0) + (reopenRunStep run params).2.reopensLeft ≤
        run.reopensLeft ∧
      (reopenRunStep run params).2.closingsLeft ≤ run.closingsLeft ∧ SameRoute run (reopenRunStep run params).2 := by
  rcases reopenRunStep_idle_or params with ⟨houtcome, heq⟩ | ⟨nodeId, event, hcount, heq⟩
  · rw [heq]
    simp [houtcome, SameRoute.of_steps rfl]
  · rw [heq]
    have htaken : ((run.reopenAt nodeId).emit event).reopensLeft + 1 = run.reopensLeft := by
      simp only [reopensLeft, emit, reopenAt]
      omega
    have hgiven : ((run.reopenAt nodeId).emit event).closingsLeft ≤ run.closingsLeft := by
      have hroute := ((run.reopenAt nodeId).emit event).stepsLeft_le
      simp only [closingsLeft]
      rw [← htaken, Nat.succ_mul]
      exact Nat.le_trans (Nat.add_le_add_left hroute _) (Nat.le_add_right _ _)
    exact ⟨by split <;> omega, hgiven, .of_steps rfl⟩

/-! ## Every sequence of calls -/

def reopensRun (runId : JsString) (runs : ActiveRuns) : StepCall → Bool
  | .complete _ => false
  | .reopen params => params.runId == runId && (reopenEnterpriseStep runs params).1.goesBack

def closesStep (runId : JsString) (runs : ActiveRuns) : StepCall → Bool
  | .complete params => params.runId == runId && (completeEnterpriseStep runs params).1.closes
  | .reopen _ => false

/-- A run with the steps `steps`, pairwise distinct, is registered under the id. -/
structure RegisteredOn (runId : JsString) (steps : List EnterpriseId) (runs : ActiveRuns)
    (run : EnterpriseActiveRun) : Prop where
  registered : runs runId = some run
  distinct : DistinctSteps run.plan
  route : enterpriseStepSequence run.plan = steps

theorem RegisteredOn.call {runId : JsString} {steps : List EnterpriseId} {runs : ActiveRuns}
    (h : RegisteredOn runId steps runs run) (call : StepCall) :
    ∃ run', RegisteredOn runId steps (call.run runs) run' ∧
      (if reopensRun runId runs call then 1 else 0) + run'.reopensLeft ≤ run.reopensLeft ∧
      (if closesStep runId runs call then 1 else 0) + run'.closingsLeft ≤ run.closingsLeft := by
  have happly := call.run_apply runs runId
  rw [h.registered] at happly
  by_cases hid : runId = call.runId
  · rw [if_pos hid] at happly
    subst hid
    cases call with
    | complete params =>
      obtain ⟨hclosings, hreopens, hroute⟩ := completeRunStep_pays h.distinct params
      refine ⟨(completeRunStep run params).2, ⟨happly, hroute.distinct h.distinct, hroute.steps.trans h.route⟩, ?_, ?_⟩
      · simp [reopensRun, hreopens]
      · have houtcome : (completeEnterpriseStep runs params).1 = (completeRunStep run params).1 := by
          have hrun : runs params.runId = some run := h.registered
          simp [completeEnterpriseStep, hrun]
        simpa [closesStep, StepCall.runId, houtcome] using hclosings
    | reopen params =>
      obtain ⟨hreopens, hclosings, hroute⟩ := @reopenRunStep_pays _ run params
      refine ⟨(reopenRunStep run params).2, ⟨happly, hroute.distinct h.distinct, hroute.steps.trans h.route⟩, ?_, ?_⟩
      · have houtcome : (reopenEnterpriseStep runs params).1 = (reopenRunStep run params).1 := by
          have hrun : runs params.runId = some run := h.registered
          simp [reopenEnterpriseStep, hrun]
        simpa [reopensRun, StepCall.runId, houtcome] using hreopens
      · simpa [closesStep] using hclosings
  · -- a call for another run leaves this one alone
    rw [if_neg hid] at happly
    refine ⟨run, ⟨happly, h.distinct, h.route⟩, ?_, ?_⟩
    · have hother : reopensRun runId runs call = false := by
        cases call with
        | complete params => rfl
        | reopen params => simp [reopensRun, show params.runId ≠ runId from fun he => hid he.symm]
      simp [hother]
    · have hother : closesStep runId runs call = false := by
        cases call with
        | complete params => simp [closesStep, show params.runId ≠ runId from fun he => hid he.symm]
        | reopen params => rfl
      simp [hother]

def leftOf (left : EnterpriseActiveRun → ℕ) (runId : JsString) (runs : ActiveRuns) : ℕ :=
  (runs runId).elim 0 left

omit [RunEnvironment] in
theorem RegisteredOn.leftOf {runId : JsString} {steps : List EnterpriseId} {runs : ActiveRuns}
    (h : RegisteredOn runId steps runs run) (left : EnterpriseActiveRun → ℕ) :
    ClawWorks.leftOf left runId runs = left run := by
  simp [ClawWorks.leftOf, h.registered]

/-- **A run cannot cycle forever.** Whatever `complete_step` and `reopen_step` calls follow its opening, at most
`MAX_STEP_REOPENS_PER_RUN` of them go back, and at most that many routes and one more are closed, step by step. -/
theorem run_cannot_cycle {runs : ActiveRuns} {runId : JsString} {run₀ : EnterpriseActiveRun}
    (hrun : runs runId = some run₀) (hdistinct : DistinctSteps run₀.plan) (hfresh : run₀.reopenCount = 0)
    (calls : List StepCall) :
    Runs.occurrences StepCall.run (reopensRun runId) runs calls ≤ MAX_STEP_REOPENS_PER_RUN ∧
      Runs.occurrences StepCall.run (closesStep runId) runs calls ≤
        (enterpriseStepSequence run₀.plan).length * (MAX_STEP_REOPENS_PER_RUN + 1) := by
  have hstart : RegisteredOn runId (enterpriseStepSequence run₀.plan) runs run₀ := ⟨hrun, hdistinct, rfl⟩
  have hkeep : ∀ (rs : ActiveRuns) (call : StepCall),
      (∃ run, RegisteredOn runId (enterpriseStepSequence run₀.plan) rs run) →
      ∃ run, RegisteredOn runId (enterpriseStepSequence run₀.plan) (call.run rs) run := by
    rintro rs call ⟨run, h⟩
    obtain ⟨run', h', -⟩ := h.call call
    exact ⟨run', h'⟩
  have hreopens : run₀.reopensLeft = MAX_STEP_REOPENS_PER_RUN := by
    simp [EnterpriseActiveRun.reopensLeft, hfresh]
  constructor
  · calc Runs.occurrences StepCall.run (reopensRun runId) runs calls
        ≤ ClawWorks.leftOf EnterpriseActiveRun.reopensLeft runId runs := by
          refine Runs.occurrences_le hkeep ?_ ⟨run₀, hstart⟩ calls
          rintro rs call ⟨run, h⟩
          obtain ⟨run', h', hpaid, -⟩ := h.call call
          rwa [h.leftOf, h'.leftOf]
      _ = MAX_STEP_REOPENS_PER_RUN := by rw [hstart.leftOf, hreopens]
  · calc Runs.occurrences StepCall.run (closesStep runId) runs calls
        ≤ ClawWorks.leftOf EnterpriseActiveRun.closingsLeft runId runs := by
          refine Runs.occurrences_le hkeep ?_ ⟨run₀, hstart⟩ calls
          rintro rs call ⟨run, h⟩
          obtain ⟨run', h', -, hpaid⟩ := h.call call
          rwa [h.leftOf, h'.leftOf]
      _ ≤ MAX_STEP_REOPENS_PER_RUN * (enterpriseStepSequence run₀.plan).length +
            (enterpriseStepSequence run₀.plan).length := by
          rw [hstart.leftOf, EnterpriseActiveRun.closingsLeft, hreopens]
          exact Nat.add_le_add_left run₀.stepsLeft_le _
      _ = (enterpriseStepSequence run₀.plan).length * (MAX_STEP_REOPENS_PER_RUN + 1) := by
          rw [Nat.mul_succ, Nat.mul_comm]

end Budget

/-- Two steps closed, one way back, and one of the two closed again. -/
theorem run_cannot_cycle_threeStepPlan :
    @Runs.occurrences _ _ (@StepCall.run plainEnvironment) (@reopensRun plainEnvironment (js "run-1"))
        (fun _ => some { plan := threeStepPlan })
        [.complete { runId := js "run-1" }, .complete { runId := js "run-1" },
          .reopen { runId := js "run-1", nodeId := js "intake" }, .complete { runId := js "run-1" }] ≤
        MAX_STEP_REOPENS_PER_RUN ∧
      @Runs.occurrences _ _ (@StepCall.run plainEnvironment) (@closesStep plainEnvironment (js "run-1"))
        (fun _ => some { plan := threeStepPlan })
        [.complete { runId := js "run-1" }, .complete { runId := js "run-1" },
          .reopen { runId := js "run-1", nodeId := js "intake" }, .complete { runId := js "run-1" }] ≤
        (enterpriseStepSequence threeStepPlan).length * (MAX_STEP_REOPENS_PER_RUN + 1) :=
  letI := plainEnvironment
  let runs : ActiveRuns := fun _ => some { plan := threeStepPlan }
  have hrun : runs (js "run-1") = some { plan := threeStepPlan } := rfl
  have hdistinct : DistinctSteps threeStepPlan := ⟨by decide, by decide⟩
  run_cannot_cycle hrun hdistinct rfl _

end ClawWorks
