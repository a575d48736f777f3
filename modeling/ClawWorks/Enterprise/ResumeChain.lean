import ClawWorks.Enterprise.RunMediation

/-!
# Chains of resumed runs

Executions of one tree, each continuing the one before on a route of its own. `history` is everything recorded by the
whole chain.
-/

namespace ClawWorks

open EnterpriseActiveRun List EditLog

/-! ## Standing through a chain -/

variable (order : List EnterpriseId)

/-- `target` is `step` or comes before it in the order. -/
def Precedes (target step : EnterpriseId) : Prop :=
  order.idxOf target ≤ order.idxOf step

instance (order : List EnterpriseId) (target step : EnterpriseId) : Decidable (Precedes order target step) :=
  inferInstanceAs (Decidable (order.idxOf target ≤ order.idxOf step))

def Completes (event : EnterpriseRunEvent) (step : EnterpriseId) : Prop :=
  event.kind = .nodeCompleted ∧ event.nodeId = some step

instance (event : EnterpriseRunEvent) (step : EnterpriseId) : Decidable (Completes event step) :=
  inferInstanceAs (Decidable (_ ∧ _))

def ReopensThrough (event : EnterpriseRunEvent) (step : EnterpriseId) : Prop :=
  event.kind = .nodeReopened ∧ event.nodeId.any (Precedes order · step)

instance (order : List EnterpriseId) (event : EnterpriseRunEvent) (step : EnterpriseId) :
    Decidable (ReopensThrough order event step) :=
  inferInstanceAs (Decidable (_ ∧ _))

/-- The step was completed, and after its last completion no reopen targeted it or any step preceding it. -/
def StandsInChain (history : List EnterpriseRunEvent) (step : EnterpriseId) : Prop :=
  ∃ before done after, history = before ++ done :: after ∧ Completes done step ∧
    ∀ event ∈ after, ¬ Completes event step ∧ ¬ ReopensThrough order event step

variable {order : List EnterpriseId} {history : List EnterpriseRunEvent} {event : EnterpriseRunEvent}
  {step : EnterpriseId}

theorem standsInChain_concat : StandsInChain order (history ++ [event]) step ↔
    Completes event step ∨ (StandsInChain order history step ∧ ¬ ReopensThrough order event step) := by
  constructor
  · rintro ⟨before, done, after, hsplit, hdone, hafter⟩
    rcases concat_eq_append_cons_iff.mp hsplit with ⟨-, rfl, -⟩ | ⟨rest, rfl, rfl⟩
    · exact .inl hdone
    · exact .inr ⟨⟨before, done, rest, rfl, hdone, fun e he => hafter e (by simp [he])⟩, (hafter event (by simp)).2⟩
  · intro h
    by_cases hcompletes : Completes event step
    · exact ⟨history, event, [], rfl, hcompletes, by simp⟩
    · obtain ⟨⟨before, done, after, rfl, hdone, hafter⟩, hreopen⟩ := h.resolve_left hcompletes
      refine ⟨before, done, after ++ [event], by simp, hdone, fun e he => ?_⟩
      rw [mem_append, mem_singleton] at he
      rcases he with he | rfl
      · exact hafter e he
      · exact ⟨hcompletes, hreopen⟩

def standsFrom (order : List EnterpriseId) (step : EnterpriseId) : List EnterpriseRunEvent → Bool
  | [] => false
  | newest :: older =>
    decide (Completes newest step) || (!decide (ReopensThrough order newest step) && standsFrom order step older)

theorem standsInChain_iff (order : List EnterpriseId) (step : EnterpriseId) (history : List EnterpriseRunEvent) :
    StandsInChain order history step ↔ standsFrom order step history.reverse := by
  induction history using reverseRecOn with
  | nil => simp [StandsInChain, standsFrom]
  | append_singleton history event ih =>
    rw [standsInChain_concat, ih, reverse_concat]
    simp [standsFrom, and_comm]

theorem StandsInChain.append (h : StandsInChain order history step) :
    ∀ {events : List EnterpriseRunEvent}, (∀ e ∈ events, e.kind ≠ .nodeReopened) →
      StandsInChain order (history ++ events) step := by
  intro events
  induction events using reverseRecOn with
  | nil => exact fun _ => by rwa [append_nil]
  | append_singleton events e ih =>
    intro hevents
    rw [← append_assoc, standsInChain_concat]
    exact .inr ⟨ih fun x hx => hevents x (by simp [hx]), fun hre => hevents e (by simp) hre.1⟩

/-- A tree whose node ids are distinct and not empty, as its schema makes sure. -/
structure DistinctTree (tree : WorkflowTreeDefinition) : Prop where
  nodup : (treeOrder tree.root).Nodup
  truthy : ∀ id ∈ treeOrder tree.root, Truthy id

theorem not_precedes_of_mem_take {steps : List EnterpriseId} (hsub : steps.Sublist order) (hn : order.Nodup) {k : Nat}
    {target : EnterpriseId} (hk : steps[k]? = some target) {s : EnterpriseId} (hs : s ∈ steps.take k) :
    ¬ Precedes order target s := by
  obtain ⟨hlt, rfl⟩ := List.getElem?_eq_some_iff.mp hk
  have hpair := hn.pairwise_idxOf hsub
  rw [← List.take_append_drop k steps, List.pairwise_append] at hpair
  have hbefore := hpair.2.2 s hs steps[k] (by rw [List.drop_eq_getElem_cons hlt]; exact List.mem_cons_self)
  unfold Precedes
  omega

theorem DistinctTree.steps {tree : WorkflowTreeDefinition} (ht : DistinctTree tree) {plan : EnterpriseRunPlan}
    (hsub : (enterpriseStepSequence plan).Sublist (treeOrder tree.root)) : DistinctSteps plan :=
  ⟨hsub.nodup ht.nodup, fun id hid => ht.truthy id (hsub.subset hid)⟩

theorem not_mem_cumulative_of_entered {trace : List EnterpriseRunEvent} (h : ∀ e ∈ trace, e.kind = .nodeEntered)
    (s : EnterpriseId) : s ∉ cumulativeCompletedNodeIds trace := by
  rw [mem_cumulativeCompletedNodeIds]
  rintro ⟨before, e, after, rfl, hfin, -⟩
  exact not_finishes_entered (h e (by simp)) hfin

theorem mem_cumulative_resumed {carried : TakenResume} {openedOn : EnterpriseId} {entered : List EnterpriseRunEvent}
    (h : ∀ e ∈ entered, e.kind = .nodeEntered) {s : EnterpriseId}
    (hs : s ∈ cumulativeCompletedNodeIds (runResumedEvent carried openedOn :: entered)) :
    s ∈ carried.completedNodeIds := by
  obtain ⟨before, e, after, hsplit, hfin, -⟩ := mem_cumulativeCompletedNodeIds.mp hs
  cases before with
  | nil =>
    rw [nil_append, cons.injEq] at hsplit
    rw [← hsplit.1] at hfin
    have hadds : s ∈ (runResumedEvent carried openedOn).payload.strings "carriedSteps" := hfin
    rwa [carriedSteps_runResumedEvent] at hadds
  | cons b before =>
    rw [cons_append, cons.injEq] at hsplit
    exact absurd hfin (not_finishes_entered (h e (by rw [hsplit.2]; simp)))

section Chains

variable [RunEnvironment]

variable (tree : WorkflowTreeDefinition)

def RoutedPlan (plan : EnterpriseRunPlan) : Prop :=
  ∃ params : RunPlanParams, params.tree = tree ∧ buildEnterpriseRunPlan params = .ok plan

variable (run : EnterpriseActiveRun)

def StepCall.emitted (call : StepCall) : List EnterpriseRunEvent :=
  (call.act run).trace.drop run.trace.length

/-- Executions of one tree linked by resumes, with what the whole chain recorded and the run it has reached. Each run
is opened fresh or carries what the one before it had completed, on a route of its own; then it completes and reopens
steps in any order, as `allowed` permits. -/
inductive ResumeChain (tree : WorkflowTreeDefinition) (allowed : EnterpriseActiveRun → StepCall → Prop) :
    List EnterpriseRunEvent → EnterpriseActiveRun → Prop
  | fresh {plan : EnterpriseRunPlan} {policies : List GovernancePolicy} {mcpServers : Option (List JsString)}
      (hplan : RoutedPlan tree plan) :
      ResumeChain tree allowed (openRun { plan, policies, mcpServers } none).trace
        (openRun { plan, policies, mcpServers } none)
  | call {history : List EnterpriseRunEvent} {run : EnterpriseActiveRun} (chain : ResumeChain tree allowed history run)
      (call : StepCall) (hallowed : allowed run call) :
      ResumeChain tree allowed (history ++ call.emitted run) (call.act run)
  | resume {history : List EnterpriseRunEvent} {run : EnterpriseActiveRun} {plan : EnterpriseRunPlan}
      {policies : List GovernancePolicy} {mcpServers : Option (List JsString)}
      (chain : ResumeChain tree allowed history run) (row : EnterpriseRunRow) (hrow : row.plan = run.plan)
      (haccepted : enterpriseRunResumeRefusal row (cumulativeCompletedNodeIds run.trace) = none)
      (hplan : RoutedPlan tree plan) :
      ResumeChain tree allowed (history ++ (openRun { plan, policies, mcpServers }
          (some ⟨row.executionId, cumulativeCompletedNodeIds run.trace⟩)).trace)
        (openRun { plan, policies, mcpServers } (some ⟨row.executionId, cumulativeCompletedNodeIds run.trace⟩))

/-- Whatever continues a run of the chain opens behind steps of its route that stand in the chain. -/
def ResumesSoundly (allowed : EnterpriseActiveRun → StepCall → Prop) : Prop :=
  ∀ (history : List EnterpriseRunEvent) (run : EnterpriseActiveRun), ResumeChain tree allowed history run →
    ∀ (row : EnterpriseRunRow), row.plan = run.plan →
      enterpriseRunResumeRefusal row (cumulativeCompletedNodeIds run.trace) = none →
    ∀ (plan : EnterpriseRunPlan) (policies : List GovernancePolicy) (mcpServers : Option (List JsString)),
      RoutedPlan tree plan →
    ∀ (k : Nat), (enterpriseStepSequence plan)[k]? = some (openRun { plan, policies, mcpServers }
        (some ⟨row.executionId, cumulativeCompletedNodeIds run.trace⟩)).plan.activeNodeId →
    ∀ s ∈ (enterpriseStepSequence plan).take k, StandsInChain (treeOrder tree.root) history s

/-- The run would accept the reopen: its target is a step of the route, behind the cursor or of a complete route, and
the run may still go back. -/
def ReopenAccepted (params : ReopenStepParams) : Prop :=
  planTracksSteps run.plan = true ∧ run.reopenCount < MAX_STEP_REOPENS_PER_RUN ∧
    ∃ k i : Nat, (enterpriseStepSequence run.plan)[k]? = some params.nodeId ∧
      (enterpriseStepSequence run.plan)[i]? = some run.plan.activeNodeId ∧ (k < i ∨ run.routeCompleted = true)

def LeavesNothingBehind : StepCall → Prop
  | .complete _ => True
  | .reopen params => ReopenAccepted run params →
      ∀ s ∈ cumulativeCompletedNodeIds run.trace, Precedes (treeOrder tree.root) params.nodeId s →
        s ∈ enterpriseStepSequence run.plan

/-! ## The invariant of a chain -/

structure ChainSound (tree : WorkflowTreeDefinition) (history : List EnterpriseRunEvent) (run : EnterpriseActiveRun) :
    Prop where
  sublist : (enterpriseStepSequence run.plan).Sublist (treeOrder tree.root)
  cursor : ∃ i : Nat, (enterpriseStepSequence run.plan)[i]? = some run.plan.activeNodeId
  standing : ∀ s ∈ cumulativeCompletedNodeIds run.trace, StandsInChain (treeOrder tree.root) history s

section Sound

variable {tree : WorkflowTreeDefinition} {run : EnterpriseActiveRun}

variable {plan : EnterpriseRunPlan}

theorem RoutedPlan.newlyRegistered (h : RoutedPlan tree plan)
    (policies : List GovernancePolicy) (mcpServers : Option (List JsString)) :
    NewlyRegistered { plan, policies, mcpServers } := by
  obtain ⟨params, -, hplan⟩ := h
  exact ⟨enterpriseStepSequence_head hplan, rfl, rfl⟩

theorem RoutedPlan.sublist (h : RoutedPlan tree plan) :
    (enterpriseStepSequence plan).Sublist (treeOrder tree.root) := by
  obtain ⟨params, rfl, hplan⟩ := h
  exact enterpriseStepSequence_sublist hplan

theorem ChainSound.openRun (history : List EnterpriseRunEvent)
    {policies : List GovernancePolicy} {mcpServers : Option (List JsString)}
    (hplan : RoutedPlan tree plan) {resume : Option TakenResume}
    (hcarried : ∀ carried, resume = some carried → ∀ s ∈ carried.completedNodeIds,
      StandsInChain (treeOrder tree.root) history s) :
    ChainSound tree (history ++ (openRun { plan, policies, mcpServers } resume).trace)
      (openRun { plan, policies, mcpServers } resume) := by
  have hnew := hplan.newlyRegistered policies mcpServers
  rcases openRun_cases hnew resume with ⟨hactive, hentered⟩ | ⟨carried, k, entered, hresume, hk, -, htrace, hentered⟩
  · refine ⟨hplan.sublist, ⟨0, ?_⟩, fun s hs => absurd hs (not_mem_cumulative_of_entered hentered s)⟩
    rw [hactive]
    exact hnew.cursor
  · refine ⟨hplan.sublist, ⟨k, hk⟩, fun s hs => ?_⟩
    rw [htrace] at hs ⊢
    refine (hcarried carried hresume s (mem_cumulative_resumed hentered hs)).append fun e he => ?_
    rcases mem_cons.mp he with rfl | he
    · simp [runResumedEvent]
    · simp [hentered e he]

theorem ChainSound.complete (h : ChainSound tree history run) (ht : DistinctTree tree)
    (params : CompleteStepParams) : ChainSound tree (history ++ (StepCall.complete params).emitted run)
      ((StepCall.complete params).act run) := by
  have hp := ht.steps h.sublist
  obtain ⟨i, hi⟩ := h.cursor
  by_cases htracks : planTracksSteps run.plan
  · rcases completeRunStep_cases hp htracks hi params with heq | ⟨-, closed, hkind, hnode, hcase⟩
    · simp only [StepCall.emitted, StepCall.act, heq, drop_length, append_nil]
      exact h
    · have htruthy : Truthy run.plan.activeNodeId := hp.truthy _ (mem_of_getElem? hi)
      have hclosed : ∀ s ∈ cumulativeCompletedNodeIds (run.trace ++ [closed]),
          StandsInChain (treeOrder tree.root) (history ++ [closed]) s := by
        intro s hs
        rw [mem_cumulative_completed hkind htruthy hnode] at hs
        rw [standsInChain_concat]
        rcases hs with rfl | hs
        · exact .inl ⟨hkind, hnode⟩
        · exact .inr ⟨h.standing s hs, fun hre => by rw [ReopensThrough, hkind] at hre; cases hre.1⟩
      rcases hcase with ⟨-, heq⟩ | ⟨next, entered, hnext, hentered, heq⟩
      · have hemit : (StepCall.complete params).emitted run = [closed] := by
          simp [StepCall.emitted, StepCall.act, heq, emit, finishRoute]
        rw [hemit, StepCall.act, heq]
        exact ⟨h.sublist, ⟨i, hi⟩, hclosed⟩
      · have hemit : (StepCall.complete params).emitted run = [closed, entered] := by
          simp [StepCall.emitted, StepCall.act, heq, emit, moveTo]
        rw [hemit, StepCall.act, heq]
        refine ⟨h.sublist, ⟨i + 1, hnext⟩, fun s hs => ?_⟩
        have hs' : s ∈ cumulativeCompletedNodeIds (run.trace ++ [closed] ++ [entered]) := hs
        rw [mem_cumulative_entered hentered] at hs'
        rw [append_cons]
        exact (hclosed s hs').append (by simp [hentered])
  · have heq : (completeRunStep run params).2 = run := by simp [completeRunStep, htracks]
    simp only [StepCall.emitted, StepCall.act, heq, drop_length, append_nil]
    exact h

theorem ChainSound.reopen (h : ChainSound tree history run) (ht : DistinctTree tree) (params : ReopenStepParams)
    (hclear : LeavesNothingBehind tree run (.reopen params)) :
    ChainSound tree (history ++ (StepCall.reopen params).emitted run) ((StepCall.reopen params).act run) := by
  have hp := ht.steps h.sublist
  obtain ⟨i, hi⟩ := h.cursor
  by_cases htracks : planTracksSteps run.plan
  · rcases reopenRunStep_cases hp htracks hi params with
      heq | ⟨k, reopened, htarget, hbehind, hcount, hkind, hnode, hinvalid, heq⟩
    · simp only [StepCall.emitted, StepCall.act, heq, drop_length, append_nil]
      exact h
    · have hemit : (StepCall.reopen params).emitted run = [reopened] := by
        simp [StepCall.emitted, StepCall.act, heq, emit, reopenAt, moveTo]
      rw [hemit, StepCall.act, heq]
      refine ⟨h.sublist, ⟨k, htarget⟩, fun s hs => ?_⟩
      have hs' : s ∈ cumulativeCompletedNodeIds (run.trace ++ [reopened]) := hs
      rw [mem_cumulative_reopened hkind, hinvalid] at hs'
      rw [standsInChain_concat]
      refine .inr ⟨h.standing s hs'.1, fun hre => ?_⟩
      -- a completed step from the target on is on the route, and there the reopen took it back
      have hprecedes : Precedes (treeOrder tree.root) params.nodeId s := by
        have hany := hre.2
        rw [hnode] at hany
        simpa using hany
      have hmem : s ∈ enterpriseStepSequence run.plan :=
        hclear ⟨htracks, hcount, k, i, htarget, hi, hbehind⟩ s hs'.1 hprecedes
      have htake := hp.nodup.mem_and_not_mem_drop_iff.mp ⟨hmem, hs'.2⟩
      exact not_precedes_of_mem_take h.sublist ht.nodup htarget htake hprecedes
  · have heq : (reopenRunStep run params).2 = run := by simp [reopenRunStep, htracks]
    simp only [StepCall.emitted, StepCall.act, heq, drop_length, append_nil]
    exact h

theorem ResumeChain.sound (ht : DistinctTree tree) (chain : ResumeChain tree (LeavesNothingBehind tree) history run) :
    ChainSound tree history run := by
  induction chain with
  | fresh hplan => exact ChainSound.openRun [] hplan fun _ hnone => by cases hnone
  | call _ call hallowed ih =>
    cases call with
    | complete params => exact ih.complete ht params
    | reopen params => exact ih.reopen ht params hallowed
  | resume _ _ _ _ hplan ih =>
    refine ChainSound.openRun _ hplan fun carried hcarried s hs => ?_
    cases hcarried
    exact ih.standing s hs

/-- **A resumed run opens behind work that is done**, in every chain whose reopens leave nothing completed behind. -/
theorem resumes_soundly_of_leaves_nothing_behind (ht : DistinctTree tree) :
    ResumesSoundly tree (LeavesNothingBehind tree) := by
  intro history run chain row _ _ plan policies mcpServers hplan k hk s hs
  have hp := ht.steps hplan.sublist
  have hnew := hplan.newlyRegistered policies mcpServers
  rcases openRun_cases hnew (some ⟨row.executionId, cumulativeCompletedNodeIds run.trace⟩) with
    ⟨hactive, -⟩ | ⟨carried, j, entered, hcarried, hj, hbehind, -, -⟩
  · rw [hactive] at hk
    have hzero : k = 0 := hp.index_unique hk hnew.cursor
    simp [hzero] at hs
  · rw [hp.index_unique hk hj] at hs
    cases hcarried
    exact (chain.sound ht).standing s (hbehind s hs)

end Sound

end Chains

/-! ## A completed step off the route -/

/-- A work-map with three steps under its root. -/
def orderTree : WorkflowTreeDefinition where
  id := js "orders"
  version := js "1"
  name := js "Orders"
  root := {
    id := js "root"
    title := js "Intake"
    children := [{ id := js "a", title := js "A" }, { id := js "x", title := js "X" },
      { id := js "b", title := js "B" }] }

/-- A step of the work-map as a route plans it. -/
def orderNode (seq : Nat) (id title : String) : EnterprisePlanNode where
  nodeId := js id
  parentId := if seq = 0 then none else some (js "root")
  seq := seq
  title := js title

/-- The route through the steps `a` and `b`. -/
def orderPlanAB : EnterpriseRunPlan where
  runId := js "run"
  treeId := js "orders"
  treeVersion := js "1"
  treeName := js "Orders"
  treeHash := some (js "orders")
  nodes := [orderNode 0 "root" "Intake", orderNode 1 "a" "A", orderNode 2 "b" "B"]
  activeNodeId := js "root"

/-- The route through the step `x`. -/
def orderPlanX : EnterpriseRunPlan :=
  { orderPlanAB with nodes := [orderNode 0 "root" "Intake", orderNode 1 "x" "X"] }

def interruptedRow (executionId : String) (plan : EnterpriseRunPlan) : EnterpriseRunRow where
  executionId := js executionId
  sessionKey := some (js "agent:main")
  sessionId := some (js "session")
  agentId := none
  treeId := plan.treeId
  status := .ended .aborted
  plan := plan
  createdAt := 0

section OffRoute

attribute [local instance] plainEnvironment

theorem orderPlanAB_routed : RoutedPlan orderTree orderPlanAB :=
  ⟨{ runId := js "run", mode := .enforce, tree := orderTree, routeNodeIds := some {js "root", js "a", js "b"} },
    rfl, rfl⟩

theorem orderPlanX_routed : RoutedPlan orderTree orderPlanX :=
  ⟨{ runId := js "run", mode := .enforce, tree := orderTree, routeNodeIds := some {js "root", js "x"} }, rfl, rfl⟩

def finishStep : StepCall :=
  .complete { runId := js "run" }

def backToRoot : StepCall :=
  .reopen { runId := js "run", nodeId := js "root" }

/-- The first leg: the root and `a` are completed, `b` is not. -/
def firstLeg : EnterpriseActiveRun :=
  finishStep.act (finishStep.act (openRun { plan := orderPlanAB } none))

/-- The second leg continues it on the route through `x`, and only redoes the root. -/
def secondLeg : EnterpriseActiveRun :=
  finishStep.act (backToRoot.act (openRun { plan := orderPlanX }
    (some ⟨js "1", cumulativeCompletedNodeIds firstLeg.trace⟩)))

/-- A resume can open past a step a reopen invalidated: `a` is completed on one route, the next route leaves it out and
goes back to the root, and the third opens behind `a` although nothing redid it. -/
theorem resume_opens_past_reopened_step : ¬ ResumesSoundly orderTree fun _ _ => True := by
  intro hsound
  have hfirst : ResumeChain orderTree (fun _ _ => True) _ firstLeg :=
    ((ResumeChain.fresh orderPlanAB_routed).call finishStep trivial).call finishStep trivial
  have hsecond : ResumeChain orderTree (fun _ _ => True) _ secondLeg :=
    ((hfirst.resume (interruptedRow "1" firstLeg.plan) rfl (by decide) orderPlanX_routed).call backToRoot trivial).call
      finishStep trivial
  have hstands := hsound _ secondLeg hsecond (interruptedRow "2" secondLeg.plan) rfl (by decide) orderPlanAB [] none
    orderPlanAB_routed 2 (by decide) (js "a") (by decide)
  rw [standsInChain_iff] at hstands
  revert hstands
  decide

/-- The same work-map, when no reopen leaves a completed step behind. -/
theorem resumes_soundly_orderTree : ResumesSoundly orderTree (LeavesNothingBehind orderTree) :=
  resumes_soundly_of_leaves_nothing_behind ⟨by decide, by decide⟩

end OffRoute

end ClawWorks
