import ClawWorks.Lib.KeyedTable
import ClawWorks.Enterprise.CompletedSteps
import ClawWorks.Enterprise.Plan

/-!
# The trace store

The two tables of run traces, `enterprise_runs` and `enterprise_run_events`, and the transactions on them.
-/

namespace ClawWorks

inductive EnterpriseRunEndStatus
  | completed
  | failed
  | blocked
  | aborted
  | timedOut
  deriving DecidableEq

inductive EnterpriseRunStatus
  | running
  | ended (status : EnterpriseRunEndStatus)
  deriving DecidableEq

/-- A row of `enterprise_runs`. -/
structure EnterpriseRunRow where
  executionId : JsString
  sessionKey : Option JsString
  sessionId : Option JsString
  agentId : Option JsString
  treeId : EnterpriseId
  status : EnterpriseRunStatus
  plan : EnterpriseRunPlan
  createdAt : Nat
  /-- When an operator asked for this execution to be continued. -/
  resumeRequested : Option Nat := none

/-- A row of `enterprise_run_events`. -/
structure EnterpriseRunEventRow where
  executionId : JsString
  seq : Nat
  event : EnterpriseRunEvent

def EnterpriseRunEventRow.key (row : EnterpriseRunEventRow) : JsString × Nat :=
  (row.executionId, row.seq)

/-- The trace tables of the state database. -/
structure TraceStore where
  runs : KeyedTable EnterpriseRunRow.executionId
  events : KeyedTable EnterpriseRunEventRow.key

/-- A database no run was traced in. -/
def TraceStore.empty : TraceStore :=
  ⟨.empty, .empty⟩

/-! ## What a run writes -/

/-- The parameters of `persistEnterpriseRunStart`. -/
structure RunStartParams where
  executionId : JsString
  plan : EnterpriseRunPlan
  sessionKey : Option JsString := none
  sessionId : Option JsString := none
  agentId : Option JsString := none

variable (store : TraceStore)

/-- Insert the execution row for one mediated run start as running. The insert of a duplicate execution fails, and
the caller's trace guard swallows the failure. -/
def persistEnterpriseRunStart (params : RunStartParams) : TraceStore :=
  { store with
    runs := store.runs.insert {
      executionId := params.executionId
      sessionKey := params.sessionKey
      sessionId := params.sessionId
      agentId := params.agentId
      treeId := params.plan.treeId
      status := .running
      plan := params.plan
      createdAt := params.plan.createdAt } }

def appendEnterpriseRunEvent (row : EnterpriseRunEventRow) : TraceStore :=
  { store with events := store.events.insert row }

variable (executionId : JsString)

/-- `UPDATE enterprise_runs SET … WHERE execution_id = …`. -/
def TraceStore.updateRun (f : EnterpriseRunRow → EnterpriseRunRow)
    (hf : ∀ row, (f row).executionId = row.executionId) : TraceStore :=
  { store with runs := store.runs.updateWhere (·.executionId = executionId) f hf }

theorem mem_updateRun {store : TraceStore} {executionId : JsString} {f : EnterpriseRunRow → EnterpriseRunRow}
    {hf : ∀ row, (f row).executionId = row.executionId} {r : EnterpriseRunRow} :
    r ∈ (store.updateRun executionId f hf).runs ↔
      ∃ q ∈ store.runs, (if q.executionId = executionId then f q else q) = r := by
  simp only [TraceStore.updateRun, KeyedTable.mem_updateWhere, decide_eq_true_eq]

def updateEnterpriseRunPlan (plan : EnterpriseRunPlan) : TraceStore :=
  store.updateRun executionId (fun row => { row with plan := plan }) fun _ => rfl

/-- Follow a transcript rotation on the durable row. -/
def updateEnterpriseRunSessionId (executionId sessionId : JsString) : TraceStore :=
  store.updateRun executionId (fun row => { row with sessionId := some sessionId }) fun _ => rfl

def finalizeEnterpriseRun (status : EnterpriseRunEndStatus) : TraceStore :=
  store.updateRun executionId (fun row => { row with status := .ended status }) fun _ => rfl

def completionEventsFor : List EnterpriseRunEvent :=
  let rows := store.events.rows.filter fun row =>
    row.executionId = executionId ∧
      (row.event.kind = .nodeCompleted ∨ row.event.kind = .nodeReopened ∨ row.event.kind = .runResumed)
  (rows.insertionSort fun a b => a.seq ≤ b.seq).map (·.event)

/-- Every step finished by this execution and by the chain it continues. -/
def completedNodeIdsFor : List EnterpriseId :=
  cumulativeCompletedNodeIds (completionEventsFor store executionId)

/-! ## Requesting a resume -/

inductive EnterpriseResumeRefusal
  | notFound
  | stillRunning
  | noSession
  | noStepsCompleted
  | routeComplete
  | transcriptRotated

variable (row : EnterpriseRunRow)

/-- Would a request to continue this execution be accepted, and if not, why? -/
def enterpriseRunResumeRefusal (completedNodeIds : List EnterpriseId) : Option EnterpriseResumeRefusal :=
  if row.status = .running then some .stillRunning
  else if truthy? row.sessionKey = none ∨ truthy? row.sessionId = none then some .noSession
  else if completedNodeIds = [] then some .noStepsCompleted
  else
    match truthy? (firstUnfinishedStep (enterpriseStepSequence row.plan) completedNodeIds) with
    | some _ => none
    | none => some .routeComplete

/-- Has this run's conversation been replaced since it ran? -/
def enterpriseRunTranscriptRotated : Bool :=
  match truthy? row.sessionKey, truthy? row.sessionId with
  | some sessionKey, some sessionId =>
    store.runs.rows.any fun newer =>
      newer.sessionKey = some sessionKey ∧ row.createdAt < newer.createdAt ∧
        newer.sessionId.any (· ≠ sessionId) ∧ newer.agentId = row.agentId
  | _, _ => false

structure ResumeRequestParams where
  expectedSessionId : JsString
  activeSessionId : Option JsString
  now : Nat

/-- Why a resume request was refused, or the run it will continue. -/
inductive EnterpriseResumeRequest
  | ok (sessionKey : JsString) (treeId : EnterpriseId)
  | refused (reason : EnterpriseResumeRefusal)

/-- Mark the row, then clear every other marker of its agent lane. -/
def armResume (sessionKey : JsString) (armedAt : Nat) : TraceStore :=
  let marked := store.updateRun row.executionId (fun row => { row with resumeRequested := some armedAt }) fun _ => rfl
  { marked with
    runs := marked.runs.updateWhere
      (fun other => other.resumeRequested.isSome ∧ other.sessionKey = some sessionKey ∧
        other.executionId ≠ row.executionId ∧ other.agentId = row.agentId)
      (fun row => { row with resumeRequested := none }) fun _ => rfl }

/-- Record an operator's request to continue an execution. -/
def requestEnterpriseRunResume (params : ResumeRequestParams) : EnterpriseResumeRequest × TraceStore :=
  match store.runs.get? executionId with
  | none => (.refused .notFound, store)
  | some row =>
    match enterpriseRunResumeRefusal row (completedNodeIdsFor store executionId), truthy? row.sessionKey with
    | some refusal, _ => (.refused refusal, store)
    | none, none => (.refused .noSession, store)
    | none, some sessionKey =>
      if row.sessionId ≠ some params.expectedSessionId ∨ row.sessionId ≠ params.activeSessionId then
        (.refused .transcriptRotated, store)
      else if enterpriseRunTranscriptRotated store row then (.refused .transcriptRotated, store)
      else (.ok sessionKey row.treeId, armResume store row sessionKey params.now)

/-- The turn that asks for a pending resume. -/
structure ResumeTakeParams where
  sessionKey : JsString
  sessionId : JsString
  agentId : Option JsString
  treeId : EnterpriseId
  /-- When the consuming turn began. -/
  startedAt : Nat

def pendingResumeFor (params : ResumeTakeParams) : Option EnterpriseRunRow :=
  let rows := store.runs.rows.filter fun row =>
    row.resumeRequested.any (· < params.startedAt) ∧ row.sessionKey = some params.sessionKey ∧
      row.sessionId = some params.sessionId ∧ row.treeId = params.treeId ∧ row.agentId = params.agentId
  (rows.insertionSort fun a b => b.createdAt ≤ a.createdAt).head?

/-- The work an earlier execution finished, carried into a new one. -/
structure TakenResume where
  executionId : JsString
  completedNodeIds : List EnterpriseId

def clearResume : TraceStore :=
  store.updateRun executionId (fun row => { row with resumeRequested := none }) fun _ => rfl

/-- Consume a pending resume for this session and tree, if one is marked. -/
def takeEnterpriseRunResume (params : ResumeTakeParams) : Option TakenResume × TraceStore :=
  match pendingResumeFor store params with
  | none => (none, store)
  | some row =>
    let store := clearResume store row.executionId
    let completedNodeIds := completedNodeIdsFor store row.executionId
    (if completedNodeIds = [] then none else some ⟨row.executionId, completedNodeIds⟩, store)

end ClawWorks
