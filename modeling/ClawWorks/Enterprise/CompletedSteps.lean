import ClawWorks.Lib.EditLog
import ClawWorks.Enterprise.Types

/-!
# The steps a chain finished, from its event log
-/

namespace ClawWorks

open EditLog

variable (completed : List EnterpriseId)

/-- `completed.add` for each string of the carried prefix. -/
def carrySteps (payload : EventPayload) : List EnterpriseId :=
  (payload.strings "carriedSteps").foldl insertNew completed

/-- `completed.delete` for each string of the invalidated suffix. -/
def invalidateSteps (payload : EventPayload) : List EnterpriseId :=
  (payload.strings "invalidated").foldl dropItem completed

variable (event : EnterpriseRunEvent)

def replayCompletion : List EnterpriseId :=
  match event.kind with
  | .runResumed => carrySteps completed event.payload
  | .nodeReopened => invalidateSteps completed event.payload
  | .nodeCompleted =>
    match truthy? event.nodeId with
    | some nodeId => insertNew completed nodeId
    | none => completed
  | _ => completed

/-- Every step a run's whole chain finished, derived from its event log. -/
def cumulativeCompletedNodeIds (events : List EnterpriseRunEvent) : List EnterpriseId :=
  events.foldl replayCompletion []

def completionEdit : Edit EnterpriseId :=
  match event.kind with
  | .runResumed => .add (event.payload.strings "carriedSteps")
  | .nodeReopened => .drop (event.payload.strings "invalidated")
  | .nodeCompleted => .add (truthy? event.nodeId).toList
  | _ => .add []

def EnterpriseRunEvent.Finishes (nodeId : EnterpriseId) : Prop :=
  (completionEdit event).Adds nodeId

/-- The event takes back the step's completion. -/
def EnterpriseRunEvent.Invalidates (nodeId : EnterpriseId) : Prop :=
  (completionEdit event).Drops nodeId

theorem replayCompletion_eq_apply : replayCompletion completed event = (completionEdit event).apply completed := by
  unfold replayCompletion completionEdit
  cases event.kind <;> try rfl
  cases truthy? event.nodeId <;> rfl

theorem cumulativeCompletedNodeIds_eq_replay (events : List EnterpriseRunEvent) :
    cumulativeCompletedNodeIds events = replay (events.map completionEdit) := by
  unfold cumulativeCompletedNodeIds replay
  rw [List.foldl_map]
  congr
  funext completed event
  exact replayCompletion_eq_apply completed event

@[simp] theorem cumulativeCompletedNodeIds_nil : cumulativeCompletedNodeIds [] = [] := rfl

variable {events : List EnterpriseRunEvent} {nodeId : EnterpriseId}

theorem mem_cumulativeCompletedNodeIds_concat {event : EnterpriseRunEvent} :
    nodeId ∈ cumulativeCompletedNodeIds (events ++ [event]) ↔
      event.Finishes nodeId ∨ (nodeId ∈ cumulativeCompletedNodeIds events ∧ ¬ event.Invalidates nodeId) := by
  simp only [cumulativeCompletedNodeIds_eq_replay, List.map_append, List.map_cons, List.map_nil]
  exact mem_replay_concat

theorem mem_cumulativeCompletedNodeIds : nodeId ∈ cumulativeCompletedNodeIds events ↔
      ∃ before event after, events = before ++ event :: after ∧ event.Finishes nodeId ∧
        ∀ later ∈ after, ¬ later.Invalidates nodeId := by
  rw [cumulativeCompletedNodeIds_eq_replay, mem_replay]
  constructor
  · rintro ⟨before, edit, after, hlog, hadds, hafter⟩
    obtain ⟨before', rest, rfl, rfl, hrest⟩ := List.map_eq_append_iff.mp hlog
    obtain ⟨event, after', rfl, rfl, rfl⟩ := List.map_eq_cons_iff.mp hrest
    exact ⟨before', event, after', rfl, hadds, fun later hl => hafter _ (List.mem_map_of_mem hl)⟩
  · rintro ⟨before, event, after, rfl, hadds, hafter⟩
    refine ⟨before.map completionEdit, completionEdit event, after.map completionEdit, by simp, hadds, ?_⟩
    intro edit hedit
    obtain ⟨later, hl, rfl⟩ := List.mem_map.mp hedit
    exact hafter later hl

/-! ## One more event -/

section Events

variable {event : EnterpriseRunEvent} {id : EnterpriseId} {step : EnterpriseId}

theorem finishes_completed (hk : event.kind = .nodeCompleted) (hs : Truthy step)
    (hn : event.nodeId = some step) : event.Finishes id ↔ id = step := by
  unfold EnterpriseRunEvent.Finishes completionEdit
  simp [hk, hn, truthy?_some hs, Edit.Adds]

theorem not_invalidates_completed (hk : event.kind = .nodeCompleted) : ¬ event.Invalidates id := by
  unfold EnterpriseRunEvent.Invalidates completionEdit
  simp [hk, Edit.Drops]

theorem not_finishes_entered (hk : event.kind = .nodeEntered) : ¬ event.Finishes id := by
  unfold EnterpriseRunEvent.Finishes completionEdit
  simp [hk, Edit.Adds]

theorem not_invalidates_entered (hk : event.kind = .nodeEntered) : ¬ event.Invalidates id := by
  unfold EnterpriseRunEvent.Invalidates completionEdit
  simp [hk, Edit.Drops]

theorem not_finishes_reopened (hk : event.kind = .nodeReopened) : ¬ event.Finishes id := by
  unfold EnterpriseRunEvent.Finishes completionEdit
  simp [hk, Edit.Adds]

theorem invalidates_reopened (hk : event.kind = .nodeReopened) :
    event.Invalidates id ↔ id ∈ event.payload.strings "invalidated" := by
  unfold EnterpriseRunEvent.Invalidates completionEdit
  simp [hk, Edit.Drops]

variable {trace : List EnterpriseRunEvent}

theorem mem_cumulative_completed (hk : event.kind = .nodeCompleted) (hs : Truthy step) (hn : event.nodeId = some step) :
    id ∈ cumulativeCompletedNodeIds (trace ++ [event]) ↔ id = step ∨ id ∈ cumulativeCompletedNodeIds trace := by
  rw [mem_cumulativeCompletedNodeIds_concat, finishes_completed hk hs hn]
  simp only [not_invalidates_completed hk, not_false_eq_true, and_true]

theorem mem_cumulative_entered (hk : event.kind = .nodeEntered) :
    id ∈ cumulativeCompletedNodeIds (trace ++ [event]) ↔ id ∈ cumulativeCompletedNodeIds trace := by
  rw [mem_cumulativeCompletedNodeIds_concat]
  simp only [not_finishes_entered hk, not_invalidates_entered hk, not_false_eq_true, and_true, false_or]

theorem mem_cumulative_reopened (hk : event.kind = .nodeReopened) :
    id ∈ cumulativeCompletedNodeIds (trace ++ [event]) ↔
      id ∈ cumulativeCompletedNodeIds trace ∧ id ∉ event.payload.strings "invalidated" := by
  rw [mem_cumulativeCompletedNodeIds_concat, invalidates_reopened hk]
  simp only [not_finishes_reopened hk, false_or]

/-- No completion is recorded for a step whose earlier completion still stands. -/
def FreshCompletions (trace : List EnterpriseRunEvent) : Prop :=
  ∀ before event after, trace = before ++ event :: after → event.kind = .nodeCompleted →
    ∀ id, event.nodeId = some id → id ∉ cumulativeCompletedNodeIds before

theorem FreshCompletions.concat (h : FreshCompletions trace)
    (hnew : event.kind = .nodeCompleted → ∀ id, event.nodeId = some id → id ∉ cumulativeCompletedNodeIds trace) :
    FreshCompletions (trace ++ [event]) := by
  intro before e after hsplit hkind id hid
  rcases List.concat_eq_append_cons_iff.mp hsplit with ⟨rfl, rfl, -⟩ | ⟨rest, -, hinit⟩
  · exact hnew hkind id hid
  · exact h before e rest hinit hkind id hid

end Events

end ClawWorks
