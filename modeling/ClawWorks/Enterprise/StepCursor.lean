import ClawWorks.Enterprise.CompletedSteps
import ClawWorks.Enterprise.Runtime

/-!
# The cursor and the event log agree

The cursor of a run lives in memory, the steps it finished are folded from the events it emitted, and a later run
reconciles the two. `Accounted` says that they agree; it holds on the first step (`StandsOnFirstStep.accounted`), every
call keeps it (`Accounted.complete`, `Accounted.reopen`), and so does every sequence of calls on the registry
(`Accounted.runStepCalls`).
-/

namespace ClawWorks

/-- The steps a cursor on step `i` has closed: those strictly before it, all of them once the route is complete. -/
def closedSteps (run : EnterpriseActiveRun) (i : Nat) : List EnterpriseId :=
  if run.routeCompleted then enterpriseStepSequence run.plan else (enterpriseStepSequence run.plan).take i

theorem closedSteps_of_open {steps : List EnterpriseId} {run : EnterpriseActiveRun} {i : Nat}
    (hroute : enterpriseStepSequence run.plan = steps) (h : run.routeCompleted = false) :
    closedSteps run i = steps.take i := by
  simp [closedSteps, h, hroute]

theorem closedSteps_of_complete {steps : List EnterpriseId} {run : EnterpriseActiveRun} {i : Nat}
    (hroute : enterpriseStepSequence run.plan = steps) (h : run.routeCompleted) : closedSteps run i = steps := by
  simp [closedSteps, h, hroute]

section Invariant

variable [RunEnvironment]

/-- The cursor is on step `i` of the route `steps`, and the emitted events fold to the steps it has closed. -/
structure Accounted (steps : List EnterpriseId) (run : EnterpriseActiveRun) (i : Nat) : Prop where
  route : enterpriseStepSequence run.plan = steps
  distinct : DistinctSteps run.plan
  tracks : planTracksSteps run.plan = true
  cursor : steps[i]? = some run.plan.activeNodeId
  standing : ∀ id, id ∈ cumulativeCompletedNodeIds run.trace ↔ id ∈ closedSteps run i
  fresh : FreshCompletions run.trace

structure StandsOnFirstStep (run : EnterpriseActiveRun) : Prop where
  distinct : DistinctSteps run.plan
  tracks : planTracksSteps run.plan = true
  cursor : (enterpriseStepSequence run.plan)[0]? = some run.plan.activeNodeId
  openRoute : run.routeCompleted = false
  nothingFinished : ∀ event ∈ run.trace, ∀ id, ¬ event.Finishes id

end Invariant

/-! ## Steps keep the invariant -/

section Keeping

variable [RunEnvironment] {steps : List EnterpriseId} {run : EnterpriseActiveRun} {i : Nat}

theorem StandsOnFirstStep.accounted (h : StandsOnFirstStep run) :
    Accounted (enterpriseStepSequence run.plan) run 0 where
  route := rfl
  distinct := h.distinct
  tracks := h.tracks
  cursor := h.cursor
  standing id := by
    have hnone : id ∉ cumulativeCompletedNodeIds run.trace := by
      rw [mem_cumulativeCompletedNodeIds]
      rintro ⟨before, event, after, htrace, hfin, -⟩
      exact h.nothingFinished event (by simp [htrace]) id hfin
    simp [closedSteps, h.openRoute, hnone]
  fresh before event after htrace hkind id hid hmem := by
    obtain ⟨b, e, a, rfl, hfin, -⟩ := mem_cumulativeCompletedNodeIds.mp hmem
    exact h.nothingFinished e (by simp [htrace]) id hfin

section

variable (h : Accounted steps run i)

include h

theorem Accounted.active_not_mem (hopen : run.routeCompleted = false) :
    run.plan.activeNodeId ∉ cumulativeCompletedNodeIds run.trace := by
  rw [h.standing, closedSteps_of_open h.route hopen]
  exact (h.route ▸ h.distinct.nodup : steps.Nodup).not_mem_take h.cursor

theorem Accounted.complete (params : CompleteStepParams) : ∃ j, Accounted steps (completeRunStep run params).2 j := by
  have hcursor : (enterpriseStepSequence run.plan)[i]? = some run.plan.activeNodeId := by rw [h.route]; exact h.cursor
  rcases completeRunStep_cases h.distinct h.tracks hcursor params with
    heq | ⟨hopen, closed, hkind, hnode, hcase⟩
  · exact ⟨i, by rw [heq]; exact h⟩
  · have htruthy : Truthy run.plan.activeNodeId := h.distinct.truthy _ (List.mem_of_getElem? hcursor)
    have hclosed : ∀ id, id ∈ cumulativeCompletedNodeIds (run.trace ++ [closed]) ↔ id ∈ steps.take (i + 1) := by
      intro id
      rw [mem_cumulative_completed hkind htruthy hnode, h.standing, List.mem_take_succ_iff h.cursor,
        closedSteps_of_open h.route hopen]
    have hfresh : FreshCompletions (run.trace ++ [closed]) := by
      refine h.fresh.concat fun _ id hid => ?_
      rw [hnode, Option.some.injEq] at hid
      exact hid ▸ h.active_not_mem hopen
    rcases hcase with ⟨hlast, heq⟩ | ⟨next, entered, hnext, hentered, heq⟩
    · rw [heq]
      refine ⟨i, h.route, h.distinct, h.tracks, h.cursor, fun id => ?_, hfresh⟩
      have hall : steps.take (i + 1) = steps := by
        rw [h.route] at hlast
        exact List.take_of_length_le (List.getElem?_eq_none_iff.mp hlast)
      have hdone : closedSteps (run.emit closed).finishRoute i = steps := closedSteps_of_complete h.route rfl
      rw [hdone, ← hall]
      exact hclosed id
    · rw [heq]
      rw [h.route] at hnext
      refine ⟨i + 1, h.route, ⟨h.distinct.nodup, h.distinct.truthy⟩, h.tracks, hnext, fun id => ?_, ?_⟩
      · have hmoved : closedSteps (((run.emit closed).moveTo next).emit entered) (i + 1) = steps.take (i + 1) :=
          closedSteps_of_open h.route hopen
        rw [hmoved, ← hclosed]
        exact mem_cumulative_entered hentered
      · exact hfresh.concat fun hk => by rw [hentered] at hk; cases hk

theorem Accounted.reopen (params : ReopenStepParams) : ∃ j, Accounted steps (reopenRunStep run params).2 j := by
  have hcursor : (enterpriseStepSequence run.plan)[i]? = some run.plan.activeNodeId := by rw [h.route]; exact h.cursor
  rcases reopenRunStep_cases h.distinct h.tracks hcursor params with
    heq | ⟨k, reopened, htarget, hbehind, -, hkind, -, hinvalid, heq⟩
  · exact ⟨i, by rw [heq]; exact h⟩
  · rw [heq]
    rw [h.route] at htarget hinvalid
    refine ⟨k, h.route, ⟨h.distinct.nodup, h.distinct.truthy⟩, h.tracks, htarget, fun id => ?_, ?_⟩
    · have hnodup : steps.Nodup := h.route ▸ h.distinct.nodup
      have hfold : id ∈ cumulativeCompletedNodeIds (run.trace ++ [reopened]) ↔
          id ∈ closedSteps run i ∧ id ∉ steps.drop k := by
        rw [mem_cumulative_reopened hkind, hinvalid, h.standing]
      have hopened : closedSteps ((run.reopenAt params.nodeId).emit reopened) k = steps.take k :=
        closedSteps_of_open h.route rfl
      rw [hopened]
      refine hfold.trans ?_
      cases hroute : run.routeCompleted with
      | true =>
        rw [closedSteps_of_complete h.route hroute]
        exact hnodup.mem_and_not_mem_drop_iff
      | false =>
        have hk : k < i := hbehind.resolve_right (by simp [hroute])
        rw [closedSteps_of_open h.route hroute]
        exact hnodup.mem_take_and_not_mem_drop_iff (Nat.le_of_lt hk)
    · exact h.fresh.concat fun hk => by rw [hkind] at hk; cases hk

theorem Accounted.act : ∀ call : StepCall, ∃ j, Accounted steps (call.act run) j
  | .complete params => h.complete params
  | .reopen params => h.reopen params

end

def RegisteredAccounted (runId : JsString) (steps : List EnterpriseId) (runs : ActiveRuns) : Prop :=
  ∃ run i, runs runId = some run ∧ Accounted steps run i

theorem RegisteredAccounted.call {runId : JsString} {runs : ActiveRuns} (h : RegisteredAccounted runId steps runs)
    (call : StepCall) : RegisteredAccounted runId steps (call.run runs) := by
  obtain ⟨run, i, hrun, hacc⟩ := h
  have happly := call.run_apply runs runId
  by_cases hid : runId = call.runId
  · obtain ⟨j, hj⟩ := hacc.act call
    rw [if_pos hid, hrun] at happly
    exact ⟨_, j, happly, hj⟩
  · rw [if_neg hid, hrun] at happly
    exact ⟨run, i, happly, hacc⟩

theorem RegisteredAccounted.runStepCalls {runId : JsString} {runs : ActiveRuns}
    (h : RegisteredAccounted runId steps runs) (calls : List StepCall) :
    RegisteredAccounted runId steps (runStepCalls runs calls) :=
  List.foldlRecOn calls StepCall.run h fun _ hr call _ => hr.call call

theorem Accounted.firstUnfinishedStep (h : Accounted steps run i) :
    firstUnfinishedStep steps (cumulativeCompletedNodeIds run.trace) =
      if run.routeCompleted ∨ i = 0 then none else some run.plan.activeNodeId := by
  cases hroute : run.routeCompleted with
  | true =>
    have hstanding := h.standing
    rw [closedSteps_of_complete h.route hroute] at hstanding
    rw [if_pos (Or.inl rfl)]
    exact firstUnfinishedStep_of_finished fun s hs => (hstanding s).mpr hs
  | false =>
    have hstanding := h.standing
    rw [closedSteps_of_open h.route hroute] at hstanding
    cases i with
    | zero =>
      rw [if_pos (Or.inr rfl)]
      refine firstUnfinishedStep_of_not_mem_head h.cursor fun hmem => ?_
      simpa using (hstanding _).mp hmem
    | succ i =>
      rw [if_neg (by simp)]
      refine firstUnfinishedStep_eq_some (Nat.succ_pos i) h.cursor ?_ fun s hs => (hstanding s).mpr hs
      exact h.active_not_mem hroute

/-- **The cursor is what the log says.** Whatever sequence of `complete_step` and `reopen_step` calls follows the
opening of a run on its first step: the emitted events fold to exactly the steps strictly before the cursor (all of
them once the route is complete), no completion is emitted for a step whose completion still stands, the cursor is on
a step of the route, and a later run would open on that step (nowhere from the first step or a complete route). -/
theorem cursor_matches_folded_trace {runs : ActiveRuns} {runId : JsString} {run₀ : EnterpriseActiveRun}
    (hrun : runs runId = some run₀) (hopening : StandsOnFirstStep run₀) (calls : List StepCall) :
    ∃ run i, runStepCalls runs calls runId = some run ∧
      (enterpriseStepSequence run₀.plan)[i]? = some run.plan.activeNodeId ∧
      (∀ id, id ∈ cumulativeCompletedNodeIds run.trace ↔
        id ∈ if run.routeCompleted then enterpriseStepSequence run₀.plan
          else (enterpriseStepSequence run₀.plan).take i) ∧
      FreshCompletions run.trace ∧
      ClawWorks.firstUnfinishedStep (enterpriseStepSequence run₀.plan) (cumulativeCompletedNodeIds run.trace) =
        if run.routeCompleted = true ∨ i = 0 then none else some run.plan.activeNodeId := by
  have hstart : RegisteredAccounted runId (enterpriseStepSequence run₀.plan) runs :=
    ⟨run₀, 0, hrun, hopening.accounted⟩
  obtain ⟨run, i, hrun', hacc⟩ := hstart.runStepCalls calls
  refine ⟨run, i, hrun', hacc.cursor, fun id => ?_, hacc.fresh, hacc.firstUnfinishedStep⟩
  rw [hacc.standing id, closedSteps, hacc.route]

end Keeping

def threeStepPlan : EnterpriseRunPlan where
  runId := js "run-1"
  treeId := js "orders"
  nodes := [{ nodeId := js "intake" }, { nodeId := js "review", seq := 1 }, { nodeId := js "close", seq := 2 }]
  activeNodeId := js "intake"

/-- Complete the first two steps, go back to the first, and name an unknown step. -/
theorem cursor_matches_folded_trace_threeStepPlan :
    ∃ run i, @runStepCalls plainEnvironment (fun _ => some { plan := threeStepPlan })
        [.complete { runId := js "run-1" }, .complete { runId := js "run-1", expectedNodeId := some (js "review") },
          .reopen { runId := js "run-1", nodeId := js "intake" }, .reopen { runId := js "run-1", nodeId := js "x" }]
        (js "run-1") = some run ∧
      (enterpriseStepSequence threeStepPlan)[i]? = some run.plan.activeNodeId ∧
      (∀ id, id ∈ cumulativeCompletedNodeIds run.trace ↔
        id ∈ if run.routeCompleted then enterpriseStepSequence threeStepPlan
          else (enterpriseStepSequence threeStepPlan).take i) ∧
      FreshCompletions run.trace ∧
      firstUnfinishedStep (enterpriseStepSequence threeStepPlan) (cumulativeCompletedNodeIds run.trace) =
        if run.routeCompleted = true ∨ i = 0 then none else some run.plan.activeNodeId :=
  letI := plainEnvironment
  have hopening : StandsOnFirstStep { plan := threeStepPlan } :=
    ⟨⟨by decide, by decide⟩, by decide, by decide, rfl, by simp⟩
  cursor_matches_folded_trace rfl hopening _

end ClawWorks
