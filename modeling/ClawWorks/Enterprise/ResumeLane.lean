import ClawWorks.Lib.LaneSlots
import ClawWorks.Enterprise.TraceStore

/-!
# Resume markers, one slot per agent lane

What the markers are for: a (session key, agent) lane holds at most one pending resume; arming supersedes it and a turn
takes it out. `LaneSlots` is that meaning, and the trace store refines it.
-/

namespace ClawWorks

open Option List LaneSlots KeyedTable

/-- A session key and an agent. No agent is a lane of its own. -/
abbrev ResumeLane := JsString × Option JsString

/-- A pending request to continue an execution. -/
structure ResumeMarker where
  executionId : JsString
  sessionKey : JsString
  sessionId : JsString
  agentId : Option JsString
  treeId : EnterpriseId
  armedAt : Nat

def ResumeMarker.lane (marker : ResumeMarker) : ResumeLane :=
  (marker.sessionKey, marker.agentId)

def EnterpriseRunRow.marker? (row : EnterpriseRunRow) : Option ResumeMarker :=
  match row.resumeRequested, row.sessionKey, row.sessionId with
  | some armedAt, some sessionKey, some sessionId =>
    some ⟨row.executionId, sessionKey, sessionId, row.agentId, row.treeId, armedAt⟩
  | _, _, _ => none

abbrev ResumeEvent := Event ResumeLane ResumeMarker ResumeTakeParams

/-- Follow a transcript rotation. Only a run registered as active is followed, and the end of a run unregisters it
before its row is finalized: the row is still running. -/
def adoptEnterpriseRunSessionId (store : TraceStore) (executionId sessionId : JsString) : TraceStore :=
  match store.runs.get? executionId with
  | some row =>
    if row.status = .running then updateEnterpriseRunSessionId store executionId sessionId else store
  | none => store

/-- What sessions, agents and operators do to one shared trace store. -/
inductive TraceOp
  | start (params : RunStartParams)
  | append (row : EnterpriseRunEventRow)
  | advance (executionId : JsString) (plan : EnterpriseRunPlan)
  | adopt (executionId sessionId : JsString)
  | finish (executionId : JsString) (status : EnterpriseRunEndStatus)
  | request (executionId : JsString) (params : ResumeRequestParams)
  | take (params : ResumeTakeParams)

open TraceOp

def TraceOp.apply (store : TraceStore) : TraceOp → TraceStore
  | .start params => persistEnterpriseRunStart store params
  | .append row => appendEnterpriseRunEvent store row
  | .advance executionId plan => updateEnterpriseRunPlan store executionId plan
  | .adopt executionId sessionId => adoptEnterpriseRunSessionId store executionId sessionId
  | .finish executionId status => finalizeEnterpriseRun store executionId status
  | .request executionId params => (requestEnterpriseRunResume store executionId params).2
  | .take params => (takeEnterpriseRunResume store params).2

/-- What an operation does to the markers: an accepted request arms the row's marker, a take consumes the marker of the
row it found. -/
def TraceOp.events (store : TraceStore) : TraceOp → List ResumeEvent
  | .request executionId params =>
    match requestEnterpriseRunResume store executionId params with
    | (.ok _ _, store) =>
      (((store.runs.get? executionId).bind (·.marker?)).map fun marker => Event.armed marker.lane marker).toList
    | (.refused _, _) => []
  | .take params =>
    (((pendingResumeFor store params).bind (·.marker?)).map fun marker =>
      Event.taken marker.lane marker params).toList
  | _ => []

/-- The store and the log of its markers after one more operation. -/
def stepTraceOp (state : TraceStore × List ResumeEvent) (op : TraceOp) : TraceStore × List ResumeEvent :=
  (op.apply state.1, state.2 ++ op.events state.1)

def runTraceOps (ops : List TraceOp) : TraceStore × List ResumeEvent :=
  ops.foldl stepTraceOp (.empty, [])

/-! ## The refinement -/

/-- A row that carries a marker belongs to a finished execution of a named session. -/
def EnterpriseRunRow.Settled (row : EnterpriseRunRow) : Prop :=
  row.resumeRequested.isSome → row.status ≠ .running ∧ row.marker?.isSome

structure LanesHeld (store : TraceStore) (log : List ResumeEvent) : Prop where
  settled : ∀ row ∈ store.runs, row.Settled
  held : ∀ lane marker, slots log lane = some marker ↔
    ∃ row ∈ store.runs, row.marker? = some marker ∧ marker.lane = lane
  honest : Honest log

section Rows

variable {row : EnterpriseRunRow} {marker : ResumeMarker}

theorem marker?_eq_some_iff : row.marker? = some marker ↔
    row.resumeRequested = some marker.armedAt ∧ row.sessionKey = some marker.sessionKey ∧
      row.sessionId = some marker.sessionId ∧ row.executionId = marker.executionId ∧ row.agentId = marker.agentId ∧
      row.treeId = marker.treeId := by
  obtain ⟨executionId, sessionKey, sessionId, agentId, treeId, armedAt⟩ := marker
  unfold EnterpriseRunRow.marker?
  cases row.resumeRequested <;> cases row.sessionKey <;> cases row.sessionId <;> simp
  tauto

theorem marker?_of_not_requested (h : row.resumeRequested = none) : row.marker? = none := by
  unfold EnterpriseRunRow.marker?
  rw [h]

theorem EnterpriseRunRow.Settled.not_requested (h : row.Settled) (hrun : row.status = .running) :
    row.resumeRequested = none := by
  cases hreq : row.resumeRequested with
  | none => rfl
  | some t => exact absurd hrun (h (by rw [hreq]; rfl)).1

end Rows

section Steps

variable {store : TraceStore} {log : List ResumeEvent}

section

variable (h : LanesHeld store log)

include h

theorem LanesHeld.eq_of_lane {a b : EnterpriseRunRow} {m n : ResumeMarker}
    (ha : a ∈ store.runs) (hb : b ∈ store.runs) (hm : a.marker? = some m) (hn : b.marker? = some n)
    (hlane : m.lane = n.lane) : a = b := by
  have hslot : slots log n.lane = some m := (h.held n.lane m).mpr ⟨a, ha, hm, hlane⟩
  rw [(h.held n.lane n).mpr ⟨b, hb, hn, rfl⟩, some.injEq] at hslot
  subst hslot
  refine eq_of_key ha hb ?_
  rw [(marker?_eq_some_iff.mp hm).2.2.2.1, (marker?_eq_some_iff.mp hn).2.2.2.1]

theorem LanesHeld.updateRun {executionId : JsString}
    {f : EnterpriseRunRow → EnterpriseRunRow} {hf : ∀ row, (f row).executionId = row.executionId}
    (hmarker : ∀ row ∈ store.runs, row.executionId = executionId → (f row).marker? = row.marker?)
    (hsettled : ∀ row ∈ store.runs, row.executionId = executionId → (f row).Settled) :
    LanesHeld (store.updateRun executionId f hf) log where
  settled row hrow := by
    obtain ⟨q, hq, rfl⟩ := mem_updateRun.mp hrow
    split
    · rename_i hid
      exact hsettled q hq hid
    · exact h.settled q hq
  held lane marker := by
    have hkeep : ∀ q ∈ store.runs, (if q.executionId = executionId then f q else q).marker? = q.marker? := by
      intro q hq
      split
      · rename_i hid
        exact hmarker q hq hid
      · rfl
    rw [h.held]
    constructor
    · rintro ⟨q, hq, hm, hlane⟩
      exact ⟨_, mem_updateRun.mpr ⟨q, hq, rfl⟩, (hkeep q hq).trans hm, hlane⟩
    · rintro ⟨row, hrow, hm, hlane⟩
      obtain ⟨q, hq, rfl⟩ := mem_updateRun.mp hrow
      exact ⟨q, hq, (hkeep q hq).symm.trans hm, hlane⟩
  honest := h.honest

theorem LanesHeld.start (params : RunStartParams) : LanesHeld (persistEnterpriseRunStart store params) log where
  settled row hrow := by
    rcases mem_insert.mp hrow with hold | ⟨rfl, -⟩
    · exact h.settled row hold
    · exact fun hreq => absurd hreq (by simp)
  held lane marker := by
    rw [h.held]
    constructor
    · rintro ⟨row, hrow, hm, hlane⟩
      exact ⟨row, mem_insert.mpr (.inl hrow), hm, hlane⟩
    · rintro ⟨row, hrow, hm, hlane⟩
      rcases mem_insert.mp hrow with hold | ⟨rfl, -⟩
      · exact ⟨row, hold, hm, hlane⟩
      · rw [marker?_of_not_requested rfl] at hm
        cases hm
  honest := h.honest

theorem LanesHeld.adopt (executionId sessionId : JsString) :
    LanesHeld (adoptEnterpriseRunSessionId store executionId sessionId) log := by
  unfold adoptEnterpriseRunSessionId
  cases hrow : store.runs.get? executionId with
  | none => exact h
  | some row =>
    simp only
    split
    · rename_i hrunning
      obtain ⟨hmem, hid⟩ := get?_eq_some_iff.mp hrow
      have hrequest : ∀ q ∈ store.runs, q.executionId = executionId → q.resumeRequested = none := by
        intro q hq hqid
        obtain rfl : q = row := eq_of_key hq hmem (hqid.trans hid.symm)
        exact (h.settled q hq).not_requested hrunning
      refine h.updateRun (fun q hq hqid => ?_) fun q hq hqid hreq => ?_
      · have hnone := hrequest q hq hqid
        have hadopted : { q with sessionId := some sessionId }.marker? = none := marker?_of_not_requested hnone
        exact hadopted.trans (marker?_of_not_requested hnone).symm
      · exact absurd hreq (by simp [hrequest q hq hqid])
    · exact h

end

theorem mem_armResume {row r : EnterpriseRunRow} {sessionKey : JsString} {armedAt : Nat} :
    r ∈ (armResume store row sessionKey armedAt).runs ↔ ∃ q ∈ store.runs,
      r = if q.executionId = row.executionId then { q with resumeRequested := some armedAt }
        else if q.resumeRequested.isSome ∧ q.sessionKey = some sessionKey ∧ q.agentId = row.agentId then
          { q with resumeRequested := none }
        else q := by
  unfold armResume
  simp only [mem_updateWhere, TraceStore.updateRun, decide_eq_true_eq]
  constructor
  · rintro ⟨_, ⟨q, hq, rfl⟩, rfl⟩
    refine ⟨q, hq, ?_⟩
    by_cases hid : q.executionId = row.executionId
    · simp [hid]
    · by_cases hlane : q.resumeRequested.isSome ∧ q.sessionKey = some sessionKey ∧ q.agentId = row.agentId
      · simp [hid, hlane]
      · rw [if_neg hid, if_neg hid, if_neg hlane, if_neg (by tauto)]
  · rintro ⟨q, hq, rfl⟩
    refine ⟨_, ⟨q, hq, rfl⟩, ?_⟩
    by_cases hid : q.executionId = row.executionId
    · simp [hid]
    · by_cases hlane : q.resumeRequested.isSome ∧ q.sessionKey = some sessionKey ∧ q.agentId = row.agentId
      · simp [hid, hlane]
      · rw [if_neg hid, if_neg hid, if_neg hlane, if_neg (by tauto)]

theorem LanesHeld.arm (h : LanesHeld store log) {row : EnterpriseRunRow} {sessionKey sessionId : JsString}
    (hrow : row ∈ store.runs) (hstatus : row.status ≠ .running) (hkey : row.sessionKey = some sessionKey)
    (hsession : row.sessionId = some sessionId) (armedAt : Nat) {marker : ResumeMarker}
    (hmarker : { row with resumeRequested := some armedAt }.marker? = some marker) :
    LanesHeld (armResume store row sessionKey armedAt) (log ++ [.armed marker.lane marker]) where
  settled r hr := by
    obtain ⟨q, hq, rfl⟩ := mem_armResume.mp hr
    split
    · rename_i hid
      obtain rfl : q = row := eq_of_key hq hrow hid
      exact fun _ => ⟨hstatus, by rw [hmarker]; rfl⟩
    · split
      · exact fun hreq => absurd hreq (by simp)
      · exact h.settled q hq
  held lane m := by
    obtain ⟨-, hmkey, -, -, hmagent, -⟩ := marker?_eq_some_iff.mp hmarker
    have hmlane : marker.lane = (sessionKey, row.agentId) := by
      rw [hkey, some.injEq] at hmkey
      simp only at hmagent
      rw [ResumeMarker.lane, ← hmkey, ← hmagent]
    rw [slots_armed]
    by_cases hl : lane = marker.lane
    · rw [if_pos hl, some.injEq]
      constructor
      · rintro rfl
        exact ⟨_, mem_armResume.mpr ⟨row, hrow, rfl⟩, by rw [if_pos rfl]; exact hmarker, hl.symm⟩
      · rintro ⟨r, hr, hm, hmlane'⟩
        obtain ⟨q, hq, rfl⟩ := mem_armResume.mp hr
        split at hm
        · rename_i hid
          obtain rfl : q = row := eq_of_key hq hrow hid
          rw [hmarker, some.injEq] at hm
          exact hm
        · split at hm
          · rw [marker?_of_not_requested rfl] at hm
            cases hm
          · -- a marker left in the lane would have been cleared
            rename_i hlane
            obtain ⟨hreq, hqkey, -, -, hqagent, -⟩ := marker?_eq_some_iff.mp hm
            rw [hl, hmlane, ResumeMarker.lane, Prod.mk.injEq] at hmlane'
            exact absurd ⟨by rw [hreq]; rfl, by rw [hqkey, hmlane'.1], by rw [hqagent, hmlane'.2]⟩ hlane
    · rw [if_neg hl, h.held]
      have hother : ∀ q ∈ store.runs, ∀ n, q.marker? = some n → n.lane = lane → ¬ q.executionId = row.executionId ∧
            ¬ (q.resumeRequested.isSome ∧ q.sessionKey = some sessionKey ∧ q.agentId = row.agentId) := by
        intro q hq n hn hnlane
        obtain ⟨-, hqkey, -, -, hqagent, -⟩ := marker?_eq_some_iff.mp hn
        have hnot : ¬ (q.sessionKey = some sessionKey ∧ q.agentId = row.agentId) := by
          rintro ⟨hk, ha⟩
          rw [hqkey, some.injEq] at hk
          rw [hqagent] at ha
          exact hl (by rw [← hnlane, hmlane, ResumeMarker.lane, hk, ha])
        refine ⟨fun hid => ?_, fun hc => hnot hc.2⟩
        obtain rfl : q = row := eq_of_key hq hrow hid
        exact hnot ⟨hkey, rfl⟩
      constructor
      · rintro ⟨q, hq, hm, hmlane'⟩
        obtain ⟨hid, hlane⟩ := hother q hq m hm hmlane'
        exact ⟨q, mem_armResume.mpr ⟨q, hq, by rw [if_neg hid, if_neg hlane]⟩, hm, hmlane'⟩
      · rintro ⟨r, hr, hm, hmlane'⟩
        obtain ⟨q, hq, rfl⟩ := mem_armResume.mp hr
        split at hm
        · rename_i hid
          obtain rfl : q = row := eq_of_key hq hrow hid
          rw [hmarker, some.injEq] at hm
          exact absurd (by rw [hm, hmlane']) hl
        · split at hm
          · rw [marker?_of_not_requested rfl] at hm
            cases hm
          · exact ⟨q, hq, hm, hmlane'⟩
  honest := h.honest.arm _ _

theorem refusal_eq_none {row : EnterpriseRunRow} {completed : List EnterpriseId}
    (h : enterpriseRunResumeRefusal row completed = none) :
    row.status ≠ .running ∧ (∃ sessionKey, row.sessionKey = some sessionKey) ∧
      ∃ sessionId, row.sessionId = some sessionId := by
  unfold enterpriseRunResumeRefusal at h
  split at h
  · cases h
  · rename_i hstatus
    split at h
    · cases h
    · rename_i hsession
      rw [not_or] at hsession
      obtain ⟨sessionKey, hkey⟩ := ne_none_iff_exists'.mp hsession.1
      obtain ⟨sessionId, hid⟩ := ne_none_iff_exists'.mp hsession.2
      exact ⟨hstatus, ⟨sessionKey, truthy?_eq_some hkey⟩, ⟨sessionId, truthy?_eq_some hid⟩⟩

theorem requestEnterpriseRunResume_cases (store : TraceStore) (executionId : JsString)
    (params : ResumeRequestParams) :
    (∃ reason, requestEnterpriseRunResume store executionId params = (.refused reason, store)) ∨
      ∃ row ∈ store.runs, ∃ sessionKey sessionId, row.executionId = executionId ∧ row.status ≠ .running ∧
        row.sessionKey = some sessionKey ∧ row.sessionId = some sessionId ∧
        requestEnterpriseRunResume store executionId params =
          (.ok sessionKey row.treeId, armResume store row sessionKey params.now) := by
  unfold requestEnterpriseRunResume
  cases hrow : store.runs.get? executionId with
  | none => exact .inl ⟨_, rfl⟩
  | some row =>
    obtain ⟨hmem, hid⟩ := get?_eq_some_iff.mp hrow
    simp only
    cases hrefusal : enterpriseRunResumeRefusal row (completedNodeIdsFor store executionId) with
    | some reason => exact .inl ⟨_, rfl⟩
    | none =>
      obtain ⟨hstatus, -, sessionId, hsession⟩ := refusal_eq_none hrefusal
      cases hkey : truthy? row.sessionKey with
      | none => exact .inl ⟨_, rfl⟩
      | some sessionKey =>
        simp only
        split
        · exact .inl ⟨_, rfl⟩
        · split
          · exact .inl ⟨_, rfl⟩
          · exact .inr ⟨row, hmem, sessionKey, sessionId, hid, hstatus, truthy?_eq_some hkey, hsession, rfl⟩

theorem LanesHeld.request (h : LanesHeld store log) (executionId : JsString) (params : ResumeRequestParams) :
    LanesHeld ((request executionId params).apply store)
      (log ++ (request executionId params).events store) := by
  rcases requestEnterpriseRunResume_cases store executionId params with
    ⟨reason, heq⟩ | ⟨row, hrow, sessionKey, sessionId, rfl, hstatus, hkey, hsession, heq⟩
  · simp only [apply, events, heq, append_nil]
    exact h
  · have harmed : { row with resumeRequested := some params.now }.marker? =
        some ⟨row.executionId, sessionKey, sessionId, row.agentId, row.treeId, params.now⟩ :=
      marker?_eq_some_iff.mpr ⟨rfl, hkey, hsession, rfl, rfl, rfl⟩
    have hget : (armResume store row sessionKey params.now).runs.get? row.executionId =
        some { row with resumeRequested := some params.now } :=
      get?_eq_some_iff.mpr ⟨mem_armResume.mpr ⟨row, hrow, by rw [if_pos rfl]⟩, rfl⟩
    simp only [apply, events, heq, hget, bind_some, harmed, map_some, toList_some]
    exact h.arm hrow hstatus hkey hsession params.now harmed

theorem pendingResumeFor_eq_some {params : ResumeTakeParams} {row : EnterpriseRunRow}
    (h : pendingResumeFor store params = some row) :
    row ∈ store.runs ∧ ∃ marker, row.marker? = some marker ∧ marker.sessionKey = params.sessionKey ∧
      marker.sessionId = params.sessionId ∧ marker.agentId = params.agentId ∧ marker.treeId = params.treeId ∧
      marker.armedAt < params.startedAt := by
  have hmem := (mem_insertionSort _).mp (mem_of_head? h)
  obtain ⟨hrow, hwhere⟩ := mem_filter.mp hmem
  simp only [decide_eq_true_eq] at hwhere
  obtain ⟨hpending, hkey, hsession, htree, hagent⟩ := hwhere
  cases hrequest : row.resumeRequested with
  | none => rw [hrequest] at hpending; simp at hpending
  | some armedAt =>
    rw [hrequest] at hpending
    exact ⟨hrow, ⟨row.executionId, params.sessionKey, params.sessionId, row.agentId, row.treeId, armedAt⟩,
      marker?_eq_some_iff.mpr ⟨hrequest, hkey, hsession, rfl, rfl, rfl⟩, rfl, rfl, hagent, htree,
      by simpa using hpending⟩

theorem LanesHeld.clear (h : LanesHeld store log) {row : EnterpriseRunRow} {marker : ResumeMarker}
    (hrow : row ∈ store.runs) (hmarker : row.marker? = some marker) (turn : ResumeTakeParams) :
    LanesHeld (clearResume store row.executionId) (log ++ [.taken marker.lane marker turn]) where
  settled r hr := by
    obtain ⟨q, hq, rfl⟩ := mem_updateRun.mp hr
    split
    · exact fun hreq => absurd hreq (by simp)
    · exact h.settled q hq
  held lane m := by
    rw [slots_taken]
    by_cases hl : lane = marker.lane
    · rw [if_pos hl]
      refine ⟨fun hm => absurd hm (by simp), ?_⟩
      rintro ⟨r, hr, hm, hlane⟩
      obtain ⟨q, hq, rfl⟩ := mem_updateRun.mp hr
      split at hm
      · rw [marker?_of_not_requested rfl] at hm
        cases hm
      · rename_i hid
        obtain rfl : q = row := h.eq_of_lane hq hrow hm hmarker (hlane.trans hl)
        exact absurd rfl hid
    · rw [if_neg hl, h.held]
      constructor
      · rintro ⟨q, hq, hm, hlane⟩
        have hid : ¬ q.executionId = row.executionId := by
          intro hid
          obtain rfl : q = row := eq_of_key hq hrow hid
          rw [hmarker, some.injEq] at hm
          exact hl (by rw [← hlane, hm])
        exact ⟨q, mem_updateRun.mpr ⟨q, hq, if_neg hid⟩, hm, hlane⟩
      · rintro ⟨r, hr, hm, hlane⟩
        obtain ⟨q, hq, rfl⟩ := mem_updateRun.mp hr
        split at hm
        · rw [marker?_of_not_requested rfl] at hm
          cases hm
        · exact ⟨q, hq, hm, hlane⟩
  honest := h.honest.take ((h.held _ _).mpr ⟨row, hrow, hmarker, rfl⟩) turn

theorem LanesHeld.take (h : LanesHeld store log) (params : ResumeTakeParams) :
    LanesHeld ((take params).apply store) (log ++ (take params).events store) := by
  cases hpending : pendingResumeFor store params with
  | none =>
    simp only [apply, events, takeEnterpriseRunResume, hpending, bind_none, map_none,
      toList_none, append_nil]
    exact h
  | some row =>
    obtain ⟨hrow, marker, hmarker, -⟩ := pendingResumeFor_eq_some hpending
    simp only [apply, events, takeEnterpriseRunResume, hpending, bind_some, hmarker,
      map_some, toList_some]
    exact h.clear hrow hmarker params

/-! ## Every interleaving -/

theorem LanesHeld.apply (h : LanesHeld store log) (op : TraceOp) :
    LanesHeld (op.apply store) (log ++ op.events store) := by
  cases op with
  | start params => exact (append_nil log).symm ▸ h.start params
  | append row => exact (append_nil log).symm ▸ ⟨h.settled, h.held, h.honest⟩
  | advance executionId plan =>
    exact (append_nil log).symm ▸ h.updateRun (fun _ _ _ => rfl) fun row hrow _ => h.settled row hrow
  | adopt executionId sessionId => exact (append_nil log).symm ▸ h.adopt executionId sessionId
  | finish executionId status =>
    refine (append_nil log).symm ▸ h.updateRun (fun _ _ _ => rfl) fun row hrow _ hreq => ?_
    exact ⟨by simp, (h.settled row hrow hreq).2⟩
  | request executionId params => exact h.request executionId params
  | take params => exact h.take params

theorem lanesHeld_empty : LanesHeld .empty [] where
  settled row hrow := absurd hrow (not_mem_empty row)
  held lane marker := by
    constructor
    · intro hm
      cases hm
    · rintro ⟨row, hrow, -⟩
      exact absurd hrow (not_mem_empty row)
  honest := honest_nil

theorem runTraceOps_lanesHeld (ops : List TraceOp) : LanesHeld (runTraceOps ops).1 (runTraceOps ops).2 :=
  foldlRecOn (motive := fun state => LanesHeld state.1 state.2) ops stepTraceOp lanesHeld_empty
    fun _ h op _ => h.apply op

def TakesMatch (log : List ResumeEvent) : Prop :=
  ∀ lane marker turn, .taken lane marker turn ∈ log → marker.lane = lane ∧ marker.sessionKey = turn.sessionKey ∧
    marker.sessionId = turn.sessionId ∧ marker.agentId = turn.agentId ∧ marker.treeId = turn.treeId ∧
    marker.armedAt < turn.startedAt

theorem takesMatch_events (store : TraceStore) (op : TraceOp) : TakesMatch (op.events store) := by
  intro lane marker turn hmem
  cases op with
  | take params =>
    cases hpending : pendingResumeFor store params with
    | none => simp [events, hpending] at hmem
    | some row =>
      obtain ⟨-, m, hm, hmatch⟩ := pendingResumeFor_eq_some hpending
      simp only [events, hpending, bind_some, hm, map_some, toList_some,
        mem_singleton, Event.taken.injEq] at hmem
      obtain ⟨rfl, rfl, rfl⟩ := hmem
      exact ⟨rfl, hmatch⟩
  | request executionId params =>
    rcases requestEnterpriseRunResume_cases store executionId params with ⟨_, heq⟩ | ⟨_, _, _, _, -, -, -, -, heq⟩
    · simp [events, heq] at hmem
    · simp only [events, heq, mem_toList, map_eq_some_iff] at hmem
      obtain ⟨_, -, harmed⟩ := hmem
      cases harmed
  | _ => simp [events] at hmem

theorem runTraceOps_takesMatch (ops : List TraceOp) : TakesMatch (runTraceOps ops).2 :=
  foldlRecOn (motive := fun state => TakesMatch state.2) ops stepTraceOp (fun _ _ _ hmem => by cases hmem)
    fun state h op _ lane marker turn hmem =>
      (mem_append.mp hmem).elim (h lane marker turn) (takesMatch_events state.1 op lane marker turn)

/-- **Resume markers are one-shot and bound to their lane.** Whatever starts, ends, requests and takes interleave on
one trace store: no two rows of one session key and agent are pending; every marker taken was the last one armed in
its lane, armed strictly before the taking turn began, for the same session key, session, agent and tree; and between
two takes of a lane its marker was armed again. -/
theorem resume_markers_one_shot (ops : List TraceOp) :
    (∀ a ∈ (runTraceOps ops).1.runs, ∀ b ∈ (runTraceOps ops).1.runs,
      a.resumeRequested.isSome → b.resumeRequested.isSome → a.sessionKey = b.sessionKey → a.agentId = b.agentId →
        a = b) ∧
    (∀ before lane marker turn after, (runTraceOps ops).2 = before ++ .taken lane marker turn :: after →
      (∃ earlier since, before = earlier ++ .armed lane marker :: since ∧ ∀ event ∈ since, event.lane ≠ lane) ∧
        lane = (turn.sessionKey, turn.agentId) ∧ marker.sessionKey = turn.sessionKey ∧
        marker.sessionId = turn.sessionId ∧ marker.agentId = turn.agentId ∧ marker.treeId = turn.treeId ∧
        marker.armedAt < turn.startedAt) ∧
    ∀ before lane marker turn mid marker' turn' after,
      (runTraceOps ops).2 = before ++ .taken lane marker turn :: mid ++ .taken lane marker' turn' :: after →
        .armed lane marker' ∈ mid := by
  have h := runTraceOps_lanesHeld ops
  refine ⟨?_, ?_, ?_⟩
  · intro a ha b hb hareq hbreq hkey hagent
    obtain ⟨m, hm⟩ := isSome_iff_exists.mp (h.settled a ha hareq).2
    obtain ⟨n, hn⟩ := isSome_iff_exists.mp (h.settled b hb hbreq).2
    obtain ⟨-, hmkey, -, -, hmagent, -⟩ := marker?_eq_some_iff.mp hm
    obtain ⟨-, hnkey, -, -, hnagent, -⟩ := marker?_eq_some_iff.mp hn
    rw [hmkey, hnkey, some.injEq] at hkey
    refine h.eq_of_lane ha hb hm hn ?_
    rw [ResumeMarker.lane, ResumeMarker.lane, hkey, ← hmagent, ← hnagent, hagent]
  · intro before lane marker turn after hlog
    have hmatch := runTraceOps_takesMatch ops lane marker turn (by rw [hlog]; simp)
    obtain ⟨rfl, hkey, hsession, hagent, htree, htime⟩ := hmatch
    refine ⟨(slots_eq_some_iff _).mp (h.honest before _ marker turn after hlog), ?_, hkey, hsession, hagent, htree,
      htime⟩
    rw [ResumeMarker.lane, hkey, hagent]
  · intro before lane marker turn mid marker' turn' after hlog
    obtain ⟨event, hmem, rfl⟩ := h.honest.taken_once hlog
    exact hmem

end Steps

end ClawWorks
