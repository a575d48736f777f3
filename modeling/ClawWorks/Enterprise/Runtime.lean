import Mathlib.Logic.Function.Basic
import ClawWorks.Enterprise.Plan

/-!
# Run state: the two calls that move the cursor

`completeEnterpriseStep` finishes the current step and moves onto the next one; `reopenEnterpriseStep` moves the
cursor back onto a step the run already closed. Both act on the registry of active runs and hand events to the run's
trace sink.
-/

namespace ClawWorks

/-- The step the run stands on, for the model and for operator-facing surfaces. -/
structure EnterpriseStepRef where
  nodeId : EnterpriseId
  title : JsString
  ordinal : Nat
  total : Nat

/-- Outcome of asking the run to finish its current step. -/
inductive EnterpriseStepAdvance
  | unmediated
  | noSteps
  | wrongStep (active : EnterpriseStepRef)
  | alreadyComplete (completed : EnterpriseStepRef)
  | advanced (completed next : EnterpriseStepRef)
  | routeComplete (completed : EnterpriseStepRef)

/-- Outcome of asking a run to step back onto work it already closed. -/
inductive EnterpriseStepReopen
  | unmediated
  | noSteps
  | unknownStep (steps : List EnterpriseId)
  | notBehind (active : EnterpriseStepRef)
  | exhausted (active : EnterpriseStepRef) (limit : Nat)
  | reopened (origin target : EnterpriseStepRef)

def stepRef (run : EnterpriseActiveRun) (nodeId : EnterpriseId) : Option EnterpriseStepRef :=
  (findPlanNode run.plan nodeId).map fun node =>
    let steps := enterpriseStepSequence run.plan
    { nodeId := node.nodeId
      title := node.title
      ordinal := (steps.idxOf? nodeId).elim 0 (· + 1)
      total := steps.length }

def textField (field : String) (value : Option JsString) : EventPayload :=
  match truthy? value with
  | some text => [(field, .text text)]
  | none => []

def EnterpriseActiveRun.emit (run : EnterpriseActiveRun) (event : EnterpriseRunEvent) : EnterpriseActiveRun :=
  { run with trace := run.trace ++ [event] }

/-- Put the cursor on a step. -/
def EnterpriseActiveRun.moveTo (run : EnterpriseActiveRun) (nodeId : EnterpriseId) : EnterpriseActiveRun :=
  { run with plan := { run.plan with activeNodeId := nodeId } }

def EnterpriseActiveRun.finishRoute (run : EnterpriseActiveRun) : EnterpriseActiveRun :=
  { run with routeCompleted := true }

/-- Put the cursor back on a step: the route is open again. -/
def EnterpriseActiveRun.reopenAt (run : EnterpriseActiveRun) (nodeId : EnterpriseId) : EnterpriseActiveRun :=
  { run.moveTo nodeId with
    reopenCount := run.reopenCount + 1
    routeCompleted := false }

theorem exists_stepRef {run : EnterpriseActiveRun} {nodeId : EnterpriseId}
    (h : nodeId ∈ enterpriseStepSequence run.plan) : ∃ ref, stepRef run nodeId = some ref ∧ ref.nodeId = nodeId := by
  obtain ⟨node, hnode, hid⟩ := exists_findPlanNode h
  exact ⟨_, by rw [stepRef, hnode]; rfl, hid⟩

section Steps

variable [RunEnvironment]

/-- The arguments of `completeEnterpriseStep`. -/
structure CompleteStepParams where
  runId : JsString
  expectedNodeId : Option JsString := none
  summary : Option JsString := none
  toolCallId : Option JsString := none

/-- The `node.completed` event of a step. -/
def nodeCompletedEvent (run : EnterpriseActiveRun) (completed : EnterpriseStepRef) (params : CompleteStepParams) :
    EnterpriseRunEvent where
  kind := .nodeCompleted
  nodeId := some completed.nodeId
  payload :=
    [("seq", .number ((findPlanNode run.plan completed.nodeId).elim 0 (·.seq))), ("title", .text completed.title)] ++
      textField "summary" ((truthy? params.summary).map summarizeModelText) ++
      textField "toolCallId" params.toolCallId

/-- The `node.entered` event of the step the cursor moves to. -/
def nodeEnteredEvent (node : EnterprisePlanNode) (toolCallId : Option JsString) : EnterpriseRunEvent where
  kind := .nodeEntered
  nodeId := some node.nodeId
  payload := [("seq", .number node.seq), ("title", .text node.title)] ++ textField "toolCallId" toolCallId

/-- `completeEnterpriseStep` on the run it found. -/
def completeRunStep (run : EnterpriseActiveRun) (params : CompleteStepParams) :
    EnterpriseStepAdvance × EnterpriseActiveRun :=
  if !planTracksSteps run.plan then (.noSteps, run)
  else
    let steps := enterpriseStepSequence run.plan
    let activeId := run.plan.activeNodeId
    match stepRef run activeId with
    | none => (.noSteps, run)
    | some active =>
      if (truthy? params.expectedNodeId).any (· != activeId) then (.wrongStep active, run)
      else
        let nextId := truthy? steps[(steps.idxOf? activeId).elim 0 (· + 1)]?
        if run.routeCompleted then (.alreadyComplete active, run)
        else
          let run := run.emit (nodeCompletedEvent run active params)
          match nextId with
          -- Last step: the cursor stays where it is.
          | none => (.routeComplete active, run.finishRoute)
          | some nextId =>
            match findPlanNode run.plan nextId with
            | none => (.routeComplete active, run)
            | some node =>
              let run := (run.moveTo node.nodeId).emit (nodeEnteredEvent node params.toolCallId)
              (.advanced active ((stepRef run node.nodeId).getD { active with nodeId := node.nodeId }), run)

/-- Finish the current step and move onto the next one. -/
def completeEnterpriseStep (runs : ActiveRuns) (params : CompleteStepParams) : EnterpriseStepAdvance × ActiveRuns :=
  match runs params.runId with
  | none => (.unmediated, runs)
  | some run =>
    let (outcome, run) := completeRunStep run params
    (outcome, Function.update runs params.runId (some run))

/-- How many times one run may go back. -/
def MAX_STEP_REOPENS_PER_RUN : Nat := 10

/-- The arguments of `reopenEnterpriseStep`. -/
structure ReopenStepParams where
  runId : JsString
  nodeId : JsString
  reason : Option JsString := none
  toolCallId : Option JsString := none

/-- The `node.reopened` event: the target, where the cursor came from, and every step from the target onward. -/
def nodeReopenedEvent (node : EnterprisePlanNode) (activeId : EnterpriseId) (invalidated : List EnterpriseId)
    (params : ReopenStepParams) : EnterpriseRunEvent where
  kind := .nodeReopened
  nodeId := some node.nodeId
  payload :=
    [("seq", .number node.seq), ("title", .text node.title), ("from", .text activeId),
      ("invalidated", .array (invalidated.map some))] ++
      textField "reason" ((truthy? params.reason).map summarizeModelText) ++
      textField "toolCallId" params.toolCallId

@[simp] theorem invalidated_nodeReopenedEvent (node : EnterprisePlanNode) (activeId : EnterpriseId)
    (invalidated : List EnterpriseId) (params : ReopenStepParams) :
    (nodeReopenedEvent node activeId invalidated params).payload.strings "invalidated" = invalidated := by
  have hfield : (nodeReopenedEvent node activeId invalidated params).payload.lookup "invalidated" =
      some (.array (invalidated.map some)) := by
    simp [nodeReopenedEvent, List.lookup_cons]
  simp [EventPayload.strings, hfield]

/-- `reopenEnterpriseStep` on the run it found. -/
def reopenRunStep (run : EnterpriseActiveRun) (params : ReopenStepParams) :
    EnterpriseStepReopen × EnterpriseActiveRun :=
  if !planTracksSteps run.plan then (.noSteps, run)
  else
    let steps := enterpriseStepSequence run.plan
    match steps.idxOf? params.nodeId with
    | none => (.unknownStep steps, run)
    | some targetIndex =>
      let activeId := run.plan.activeNodeId
      match stepRef run activeId with
      | none => (.noSteps, run)
      | some active =>
        -- `activeIndex` is -1 off the route, and every target is at or past that.
        if (steps.idxOf? activeId).all (· ≤ targetIndex) && !run.routeCompleted then (.notBehind active, run)
        else
          match findPlanNode run.plan params.nodeId with
          | none => (.unknownStep steps, run)
          | some node =>
            if MAX_STEP_REOPENS_PER_RUN ≤ run.reopenCount then (.exhausted active MAX_STEP_REOPENS_PER_RUN, run)
            else
              let event := nodeReopenedEvent node activeId (steps.drop targetIndex) params
              let run := (run.reopenAt node.nodeId).emit event
              (.reopened active ((stepRef run node.nodeId).getD { active with nodeId := node.nodeId }), run)

/-- Move the cursor back onto a step this run already completed. -/
def reopenEnterpriseStep (runs : ActiveRuns) (params : ReopenStepParams) : EnterpriseStepReopen × ActiveRuns :=
  match runs params.runId with
  | none => (.unmediated, runs)
  | some run =>
    let (outcome, run) := reopenRunStep run params
    (outcome, Function.update runs params.runId (some run))

inductive StepCall
  | complete (params : CompleteStepParams)
  | reopen (params : ReopenStepParams)

def StepCall.runId : StepCall → JsString
  | .complete params => params.runId
  | .reopen params => params.runId

def StepCall.act (run : EnterpriseActiveRun) : StepCall → EnterpriseActiveRun
  | .complete params => (completeRunStep run params).2
  | .reopen params => (reopenRunStep run params).2

/-- The registry after one call. -/
def StepCall.run (runs : ActiveRuns) : StepCall → ActiveRuns
  | .complete params => (completeEnterpriseStep runs params).2
  | .reopen params => (reopenEnterpriseStep runs params).2

/-- The registry after a sequence of calls. -/
def runStepCalls (runs : ActiveRuns) (calls : List StepCall) : ActiveRuns :=
  calls.foldl StepCall.run runs

theorem StepCall.run_apply (runs : ActiveRuns) (call : StepCall) (runId : JsString) :
    call.run runs runId = if runId = call.runId then (runs runId).map call.act else runs runId := by
  cases call with
  | complete params =>
    simp only [StepCall.run, StepCall.runId, completeEnterpriseStep]
    cases hrun : runs params.runId with
    | none => by_cases h : runId = params.runId <;> simp [h, hrun]
    | some run => by_cases h : runId = params.runId <;> simp [h, hrun, StepCall.act]
  | reopen params =>
    simp only [StepCall.run, StepCall.runId, reopenEnterpriseStep]
    cases hrun : runs params.runId with
    | none => by_cases h : runId = params.runId <;> simp [h, hrun]
    | some run => by_cases h : runId = params.runId <;> simp [h, hrun, StepCall.act]

variable {run : EnterpriseActiveRun} {i : Nat}

/-- **Everything `complete_step` can do** to a run whose cursor is on step `i`: nothing, close the last step and with
it the route, or close step `i` and enter step `i + 1`. -/
theorem completeRunStep_cases (hp : DistinctSteps run.plan) (ht : planTracksSteps run.plan)
    (hi : (enterpriseStepSequence run.plan)[i]? = some run.plan.activeNodeId) (params : CompleteStepParams) :
    (completeRunStep run params).2 = run ∨ (run.routeCompleted = false ∧ ∃ closed : EnterpriseRunEvent,
        closed.kind = .nodeCompleted ∧ closed.nodeId = some run.plan.activeNodeId ∧
        (((enterpriseStepSequence run.plan)[i + 1]? = none ∧
            (completeRunStep run params).2 = (run.emit closed).finishRoute) ∨
          ∃ (next : EnterpriseId) (entered : EnterpriseRunEvent),
            (enterpriseStepSequence run.plan)[i + 1]? = some next ∧ entered.kind = .nodeEntered ∧
            (completeRunStep run params).2 = ((run.emit closed).moveTo next).emit entered)) := by
  obtain ⟨active, hactive, hactiveId⟩ := exists_stepRef (List.mem_of_getElem? hi)
  unfold completeRunStep
  simp only [ht, Bool.not_true, Bool.false_eq_true, if_false, hactive, hp.idxOf? hi, Option.elim_some]
  split
  · exact .inl rfl
  cases hroute : run.routeCompleted with
  | true => exact .inl rfl
  | false =>
    refine .inr ⟨rfl, nodeCompletedEvent run active params, rfl, by rw [← hactiveId]; rfl, ?_⟩
    cases hnext : (enterpriseStepSequence run.plan)[i + 1]? with
    | none => exact .inl ⟨rfl, rfl⟩
    | some next =>
      have hmem : next ∈ enterpriseStepSequence run.plan := List.mem_of_getElem? hnext
      obtain ⟨node, hnode, hid⟩ := exists_findPlanNode hmem
      have hfind : findPlanNode (run.emit (nodeCompletedEvent run active params)).plan next = some node := hnode
      refine .inr ⟨next, nodeEnteredEvent node params.toolCallId, rfl, rfl, ?_⟩
      simp only [Bool.false_eq_true, if_false, truthy?_some (hp.truthy next hmem), hfind, hid]

/-- **Everything `reopen_step` can do** to a run whose cursor is on step `i`: nothing, or put the cursor on an earlier
step `k` (any step once the route is complete) and record the suffix from `k` on as invalidated. -/
theorem reopenRunStep_cases (hp : DistinctSteps run.plan) (ht : planTracksSteps run.plan)
    (hi : (enterpriseStepSequence run.plan)[i]? = some run.plan.activeNodeId) (params : ReopenStepParams) :
    (reopenRunStep run params).2 = run ∨ ∃ (k : Nat) (reopened : EnterpriseRunEvent),
        (enterpriseStepSequence run.plan)[k]? = some params.nodeId ∧ (k < i ∨ run.routeCompleted) ∧
        run.reopenCount < MAX_STEP_REOPENS_PER_RUN ∧
        reopened.kind = .nodeReopened ∧ reopened.nodeId = some params.nodeId ∧
        reopened.payload.strings "invalidated" = (enterpriseStepSequence run.plan).drop k ∧
        (reopenRunStep run params).2 = (run.reopenAt params.nodeId).emit reopened := by
  obtain ⟨active, hactive, -⟩ := exists_stepRef (List.mem_of_getElem? hi)
  unfold reopenRunStep
  simp only [ht, Bool.not_true, Bool.false_eq_true, if_false]
  cases htarget : (enterpriseStepSequence run.plan).idxOf? params.nodeId with
  | none => exact .inl rfl
  | some k =>
    obtain ⟨hk, hkid, -⟩ := List.idxOf?_eq_some_iff.mp htarget
    have hget : (enterpriseStepSequence run.plan)[k]? = some params.nodeId := by
      rw [List.getElem?_eq_getElem hk, hkid]
    obtain ⟨node, hnode, hid⟩ := exists_findPlanNode (List.mem_of_getElem? hget)
    simp only [hactive, hp.idxOf? hi, Option.all_some, hnode, hid]
    split
    · exact .inl rfl
    rename_i hbehind
    split
    · exact .inl rfl
    rename_i hcount
    refine .inr ⟨k, _, hget, ?_, by omega, rfl, by rw [← hid]; rfl, ?_, rfl⟩
    · simp only [Bool.and_eq_true, decide_eq_true_eq, Bool.not_eq_true', not_and] at hbehind
      by_cases hik : k < i
      · exact .inl hik
      · exact .inr (by simpa using hbehind (by omega))
    · exact invalidated_nodeReopenedEvent node _ _ params

end Steps

end ClawWorks
