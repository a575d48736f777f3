import ClawWorks.Lib.KeyedTable
import ClawWorks.Js.Object
import ClawWorks.Enterprise.Types

/-!
# Runs whose process is gone

A mediated run lives in memory, so a row that is still `running` after its process has gone can be finished by nobody.
The sweep at startup closes such rows, whatever a crash left in the two tables.
-/

namespace ClawWorks

open List

/-! ## The tables as they are stored -/

/-- A row of `enterprise_runs`; `columns` are those the sweep neither reads nor writes. -/
structure StoredRun (γ : Type) where
  executionId : JsString
  status : JsString
  ownerToken : Option JsString
  updatedAt : ℤ
  endedAt : Option ℤ
  columns : γ

/-- A row of `enterprise_run_events`. A payload text that spells no object is `none`. -/
structure StoredEvent where
  executionId : JsString
  seq : ℤ
  nodeId : Option JsString
  kind : JsString
  payload : Option EventPayload
  createdAt : ℤ

def StoredEvent.key (event : StoredEvent) : JsString × ℤ :=
  (event.executionId, event.seq)

/-- The two tables, whatever is in them. -/
structure TraceTables (γ : Type) where
  runs : KeyedTable (StoredRun.executionId (γ := γ))
  events : KeyedTable StoredEvent.key

open TraceTables

def TERMINAL_STATUSES : List JsString :=
  [js "completed", js "failed", js "blocked", js "aborted", js "timed_out"]

def RUN_ENDED : JsString :=
  js "run.ended"

def RECOVERY_ABORT_REASON : JsString :=
  js "owning process is gone; closed during startup recovery"

/-! ## The sweep -/

/-- The status an already-written `run.ended` event recorded. -/
def readEndedStatus (payload : Option EventPayload) : JsString :=
  match payload.bind (·.lookup "status") with
  | some (.text status) => if status ≠ js "running" then status else js "aborted"
  | _ => js "aborted"

/-- What the sweep gathers from the event rows. -/
structure EventScan where
  nextSeq : JsMap JsString ℤ := []
  alreadyEnded : JsMap JsString JsString := []

def EventScan.read (scan : EventScan) (row : StoredEvent) : EventScan where
  nextSeq := scan.nextSeq.set row.executionId (max ((scan.nextSeq.get row.executionId).getD 0) (row.seq + 1))
  alreadyEnded :=
    if row.kind = RUN_ENDED then scan.alreadyEnded.set row.executionId (readEndedStatus row.payload)
    else scan.alreadyEnded

variable {γ : Type}

def StoredRun.close (row : StoredRun γ) (status : JsString) (now : ℤ) : StoredRun γ :=
  { row with
    status := status
    updatedAt := now
    endedAt := some now }

/-- `INSERT`: a row under the same key makes it fail. -/
def TraceTables.insertEvent (tables : TraceTables γ) (event : StoredEvent) : Option (TraceTables γ) :=
  if event.key ∈ tables.events.rows.map StoredEvent.key then none
  else some { tables with events := tables.events.insert event }

def recoveryEvent (now : ℤ) (scan : EventScan) (executionId : JsString) : StoredEvent where
  executionId := executionId
  seq := (scan.nextSeq.get executionId).getD 0
  nodeId := none
  kind := RUN_ENDED
  payload := some [("status", .text (js "aborted")), ("reason", .text RECOVERY_ABORT_REASON)]
  createdAt := now

def closeExecution (now : ℤ) (scan : EventScan) (tables : TraceTables γ) (executionId : JsString) :
    Option (TraceTables γ) :=
  let endedStatus := scan.alreadyEnded.get executionId
  let closed : TraceTables γ :=
    { tables with
      runs := tables.runs.updateWhere (·.executionId = executionId)
        (·.close (endedStatus.getD (js "aborted")) now) fun _ => rfl }
  if (truthy? endedStatus).isSome then some closed
  else closed.insertEvent (recoveryEvent now scan executionId)

def StoredRun.isOrphaned (isOwnerGone : JsString → Bool) (row : StoredRun γ) : Bool :=
  decide (row.status = js "running") && (truthy? row.ownerToken).any isOwnerGone

/-- Close out runs left `running` by a process that is no longer here: how many, and the tables afterwards. -/
def abortOrphanedEnterpriseRuns (now : ℤ) (isOwnerGone : JsString → Bool) (tables : TraceTables γ) :
    Option (ℕ × TraceTables γ) :=
  let orphaned := tables.runs.rows.filter (·.isOrphaned isOwnerGone)
  if orphaned.isEmpty then some (0, tables)
  else
    let executionIds := orphaned.map (·.executionId)
    let eventRows := tables.events.rows.filter (·.executionId ∈ executionIds)
    let scan := eventRows.foldl EventScan.read {}
    (executionIds.foldlM (closeExecution now scan) tables).map (orphaned.length, ·)

/-- The `run.ended` events of an execution. -/
def TraceTables.endedEvents (tables : TraceTables γ) (executionId : JsString) : List StoredEvent :=
  tables.events.rows.filter fun event => event.executionId = executionId && event.kind = RUN_ENDED

/-- The verdict on record for an execution: that of the last `run.ended` event. -/
def TraceTables.verdict? (tables : TraceTables γ) (executionId : JsString) : Option JsString :=
  (tables.endedEvents executionId).getLast?.map (readEndedStatus ·.payload)

theorem readEndedStatus_ne_running (payload : Option EventPayload) : readEndedStatus payload ≠ js "running" := by
  have haborted : js "aborted" ≠ js "running" := by decide
  unfold readEndedStatus
  split
  · split
    · assumption
    · exact haborted
  · exact haborted

theorem get_alreadyEnded (rows : List StoredEvent) (executionId : JsString) :
    (rows.foldl EventScan.read {}).alreadyEnded.get executionId =
      (rows.filter fun event => event.executionId = executionId && event.kind = RUN_ENDED).getLast?.map
        (readEndedStatus ·.payload) := by
  induction rows using reverseRecOn with
  | nil => rfl
  | append_singleton rows row ih =>
    rw [foldl_append, foldl_cons, foldl_nil, filter_append]
    by_cases hkind : row.kind = RUN_ENDED
    · by_cases hid : row.executionId = executionId
      · simp [EventScan.read, hkind, hid, JsMap.get_set]
      · simp [EventScan.read, hkind, hid, JsMap.get_set, ih]
    · simp [EventScan.read, hkind, ih]

theorem seq_lt_nextSeq {rows : List StoredEvent} {event : StoredEvent} (h : event ∈ rows) :
    event.seq < ((rows.foldl EventScan.read {}).nextSeq.get event.executionId).getD 0 := by
  induction rows using reverseRecOn with
  | nil => cases h
  | append_singleton rows row ih =>
    rw [foldl_append, foldl_cons, foldl_nil]
    simp only [EventScan.read, JsMap.get_set]
    rcases mem_append.mp h with hold | hnew
    · have hlt := ih hold
      by_cases hid : row.executionId = event.executionId
      · rw [if_pos hid, hid, Option.getD_some]
        exact Int.lt_of_lt_of_le hlt (Int.le_max_left _ _)
      · rw [if_neg hid]
        exact hlt
    · rw [mem_singleton.mp hnew, if_pos rfl, Option.getD_some]
      exact Int.lt_of_lt_of_le (Int.lt_succ _) (Int.le_max_right _ _)

def addedEvents (now : ℤ) (scan : EventScan) (executionId : JsString) : List StoredEvent :=
  if (truthy? (scan.alreadyEnded.get executionId)).isSome then [] else [recoveryEvent now scan executionId]

variable {executionId : JsString} {scan : EventScan}

theorem executionId_of_mem_addedEvents {now : ℤ} {event : StoredEvent}
    (h : event ∈ addedEvents now scan executionId) : event = recoveryEvent now scan executionId := by
  unfold addedEvents at h
  split at h
  · cases h
  · exact mem_singleton.mp h

/-- **Closing one execution** touches its row alone, and the insert finds its key free. -/
theorem closeExecution_eq (now : ℤ) {tables : TraceTables γ}
    (hfresh : ∀ event ∈ tables.events.rows, event.executionId = executionId →
      event.seq < (scan.nextSeq.get executionId).getD 0) :
    ∃ after, closeExecution now scan tables executionId = some after ∧
      after.runs.rows = tables.runs.rows.map (fun row => if row.executionId = executionId then
        row.close ((scan.alreadyEnded.get executionId).getD (js "aborted")) now else row) ∧
      after.events.rows = tables.events.rows ++ addedEvents now scan executionId := by
  unfold closeExecution addedEvents
  by_cases hended : (truthy? (scan.alreadyEnded.get executionId)).isSome
  · simp only [hended, if_true]
    exact ⟨_, rfl, by simp [KeyedTable.updateWhere], by simp⟩
  · have hkey : (recoveryEvent now scan executionId).key ∉ tables.events.rows.map StoredEvent.key := by
      intro hmem
      obtain ⟨event, hevent, hkey⟩ := mem_map.mp hmem
      obtain ⟨hid, hseq⟩ := Prod.mk.inj hkey
      have hlt := hfresh event hevent hid
      rw [hseq] at hlt
      exact absurd hlt (Int.lt_irrefl _)
    simp only [hended, Bool.false_eq_true, if_false, insertEvent, if_neg hkey]
    exact ⟨_, rfl, by simp [KeyedTable.updateWhere], by simp [KeyedTable.insert, hkey]⟩

theorem foldlM_closeExecution (now : ℤ) {executionIds : List JsString}
    (hnodup : executionIds.Nodup) {tables : TraceTables γ}
    (hfresh : ∀ id ∈ executionIds, ∀ event ∈ tables.events.rows, event.executionId = id →
      event.seq < (scan.nextSeq.get id).getD 0) :
    ∃ after, executionIds.foldlM (closeExecution now scan) tables = some after ∧
      after.runs.rows = tables.runs.rows.map (fun row => if row.executionId ∈ executionIds then
        row.close ((scan.alreadyEnded.get row.executionId).getD (js "aborted")) now else row) ∧
      after.events.rows = tables.events.rows ++ executionIds.flatMap (addedEvents now scan) := by
  induction executionIds generalizing tables with
  | nil => exact ⟨tables, rfl, by simp, by simp⟩
  | cons id rest ih =>
    obtain ⟨hid, hrest⟩ := nodup_cons.mp hnodup
    obtain ⟨next, hnext, hruns, hevents⟩ := closeExecution_eq now (hfresh id mem_cons_self)
    have hstill : ∀ other ∈ rest, ∀ event ∈ next.events.rows, event.executionId = other →
        event.seq < (scan.nextSeq.get other).getD 0 := by
      intro other hother event hevent hevent_id
      rw [hevents] at hevent
      rcases mem_append.mp hevent with hold | hadded
      · exact hfresh other (mem_cons_of_mem id hother) event hold hevent_id
      · rw [executionId_of_mem_addedEvents hadded] at hevent_id
        have hsame : id = other := hevent_id
        exact absurd (hsame ▸ hother) hid
    obtain ⟨after, hafter, hruns', hevents'⟩ := ih hrest hstill
    refine ⟨after, by rw [foldlM_cons, hnext]; exact hafter, ?_, ?_⟩
    · rw [hruns', hruns, map_map]
      refine map_congr_left fun row _ => ?_
      simp only [Function.comp_apply, mem_cons]
      by_cases hrow : row.executionId = id
      · have hout : (row.close ((scan.alreadyEnded.get id).getD (js "aborted")) now).executionId ∉ rest := hrow ▸ hid
        rw [if_pos hrow, if_neg hout, if_pos (Or.inl hrow), hrow]
      · simp only [hrow, if_false, false_or]
    · rw [hevents', hevents, flatMap_cons, append_assoc]

theorem filter_addedEvents {now : ℤ} {executionIds : List JsString} (hnodup : executionIds.Nodup)
    {p : StoredEvent → Bool} (hp : ∀ event, p event → event.executionId = executionId) :
    (executionIds.flatMap (addedEvents now scan)).filter p =
      if executionId ∈ executionIds then (addedEvents now scan executionId).filter p else [] := by
  induction executionIds with
  | nil => rfl
  | cons id rest ih =>
    obtain ⟨hid, hrest⟩ := nodup_cons.mp hnodup
    rw [flatMap_cons, filter_append, ih hrest]
    by_cases hsame : executionId = id
    · subst hsame
      simp [hid]
    · have hother : (addedEvents now scan id).filter p = [] := by
        refine filter_eq_nil_iff.mpr fun event hevent hpevent => hsame ?_
        rw [← hp event hpevent, executionId_of_mem_addedEvents hevent]
        rfl
      simp [hother, hsame]

section Sweep

variable {isOwnerGone : JsString → Bool} {tables : TraceTables γ} {now : ℤ}

/-- The executions the sweep closes. -/
def orphanedIds (isOwnerGone : JsString → Bool) (tables : TraceTables γ) : List JsString :=
  (tables.runs.rows.filter (·.isOrphaned isOwnerGone)).map (·.executionId)

/-- What the sweep has read of their events. -/
def orphanScan (isOwnerGone : JsString → Bool) (tables : TraceTables γ) : EventScan :=
  (tables.events.rows.filter (·.executionId ∈ orphanedIds isOwnerGone tables)).foldl EventScan.read {}

theorem orphanedIds_nodup : (orphanedIds isOwnerGone tables).Nodup := tables.runs.nodup.sublist (filter_sublist.map _)

variable {row : StoredRun γ}

theorem mem_orphanedIds_iff (hrow : row ∈ tables.runs) :
    row.executionId ∈ orphanedIds isOwnerGone tables ↔ row.isOrphaned isOwnerGone := by
  constructor
  · intro h
    obtain ⟨other, hother, hid⟩ := mem_map.mp h
    obtain ⟨hmem, horphaned⟩ := mem_filter.mp hother
    rwa [← KeyedTable.eq_of_key (show other ∈ tables.runs from hmem) hrow hid]
  · exact fun h => mem_map_of_mem (mem_filter.mpr ⟨hrow, h⟩)

theorem verdict_scan {executionId : JsString} (h : executionId ∈ orphanedIds isOwnerGone tables) :
    (orphanScan isOwnerGone tables).alreadyEnded.get executionId = tables.verdict? executionId := by
  rw [orphanScan, get_alreadyEnded, filter_filter, verdict?, endedEvents]
  congr 2
  refine filter_congr fun event _ => ?_
  by_cases hid : event.executionId = executionId
  · simp [hid, h]
  · simp [hid]

/-- **The sweep** succeeds: every orphaned row is closed with its verdict, and the events are appended to. -/
theorem abortOrphanedEnterpriseRuns_eq (now : ℤ) (isOwnerGone : JsString → Bool) (tables : TraceTables γ) :
    ∃ after, abortOrphanedEnterpriseRuns now isOwnerGone tables =
        some ((orphanedIds isOwnerGone tables).length, after) ∧
      after.runs.rows = tables.runs.rows.map (fun row => if row.isOrphaned isOwnerGone then
        row.close ((tables.verdict? row.executionId).getD (js "aborted")) now else row) ∧
      after.events.rows = tables.events.rows ++
        (orphanedIds isOwnerGone tables).flatMap (addedEvents now (orphanScan isOwnerGone tables)) := by
  have hfresh : ∀ id ∈ orphanedIds isOwnerGone tables, ∀ event ∈ tables.events.rows, event.executionId = id →
      event.seq < ((orphanScan isOwnerGone tables).nextSeq.get id).getD 0 := by
    rintro id hid event hevent rfl
    exact seq_lt_nextSeq (mem_filter.mpr ⟨hevent, decide_eq_true hid⟩)
  obtain ⟨after, hafter, hruns, hevents⟩ := foldlM_closeExecution now orphanedIds_nodup hfresh
  have hclosed : after.runs.rows = tables.runs.rows.map (fun row => if row.isOrphaned isOwnerGone then
      row.close ((tables.verdict? row.executionId).getD (js "aborted")) now else row) := by
    rw [hruns]
    refine map_congr_left fun row hrow => ?_
    by_cases horphaned : row.isOrphaned isOwnerGone
    · have hid := (mem_orphanedIds_iff (show row ∈ tables.runs from hrow)).mpr horphaned
      rw [if_pos hid, if_pos horphaned, verdict_scan hid]
    · have hid := (mem_orphanedIds_iff (show row ∈ tables.runs from hrow)).not.mpr horphaned
      rw [if_neg hid, if_neg horphaned]
  refine ⟨after, ?_, hclosed, hevents⟩
  unfold abortOrphanedEnterpriseRuns
  by_cases hnone : (tables.runs.rows.filter (·.isOrphaned isOwnerGone)).isEmpty
  · have hids : orphanedIds isOwnerGone tables = [] := by
      rw [orphanedIds, isEmpty_iff.mp hnone]
      rfl
    rw [hids] at hafter ⊢
    simp only [hnone, if_true]
    rw [Option.some.inj hafter]
    rfl
  · simp only [hnone, Bool.false_eq_true, if_false]
    have hlength : (orphanedIds isOwnerGone tables).length =
        (tables.runs.rows.filter (·.isOrphaned isOwnerGone)).length := length_map _
    rw [hlength]
    change ((orphanedIds isOwnerGone tables).foldlM
      (closeExecution now (orphanScan isOwnerGone tables)) tables).map _ = _
    rw [hafter]
    rfl

/-! ## Settled runs -/

/-- What a sweep owes the tables it found. -/
structure Settled (isOwnerGone : JsString → Bool) (before after : TraceTables γ) : Prop where
  terminal : ∀ row ∈ before.runs, row.isOrphaned isOwnerGone = true →
    ∃ closed ∈ after.runs, closed.executionId = row.executionId ∧ closed.status ∈ TERMINAL_STATUSES
  /-- Its trace has one end, unless it had several before. -/
  endedOnce : ∀ row ∈ before.runs, row.isOrphaned isOwnerGone = true →
    (before.endedEvents row.executionId).length ≤ 1 → (after.endedEvents row.executionId).length = 1
  /-- A verdict on record stands. -/
  verdictKept : ∀ row ∈ before.runs, row.isOrphaned isOwnerGone = true → ∀ verdict ∈ before.verdict? row.executionId,
      ∃ closed ∈ after.runs, closed.executionId = row.executionId ∧ closed.status = verdict
  /-- No event is lost, and a new one is past every earlier event of its execution. -/
  appended : ∃ added, after.events.rows = before.events.rows ++ added ∧
    ∀ event ∈ added, ∀ earlier ∈ before.events, earlier.executionId = event.executionId → earlier.seq < event.seq
  sequenced : (after.events.rows.map StoredEvent.key).Nodup
  /-- The rows that are not orphaned are untouched, and so are the events of their executions. -/
  untouched : ∀ row ∈ before.runs, row.isOrphaned isOwnerGone = false → row ∈ after.runs ∧
    ∀ event ∈ after.events, event.executionId = row.executionId → event ∈ before.events

variable {after : TraceTables γ}

section

variable (hruns : after.runs.rows = tables.runs.rows.map (fun row => if row.isOrphaned isOwnerGone then row.close ((tables.verdict? row.executionId).getD (js "aborted")) now else row))

include hruns

theorem mem_swept (hrow : row ∈ tables.runs) (horphaned : row.isOrphaned isOwnerGone) :
    row.close ((tables.verdict? row.executionId).getD (js "aborted")) now ∈ after.runs := by
  refine show _ ∈ after.runs.rows from ?_
  rw [hruns]
  exact mem_map.mpr ⟨row, hrow, if_pos horphaned⟩

theorem orphanedIds_swept : after.runs.rows.filter (·.isOrphaned isOwnerGone) = [] := by
  refine filter_eq_nil_iff.mpr fun row hrow => ?_
  rw [hruns] at hrow
  obtain ⟨old, -, rfl⟩ := mem_map.mp hrow
  by_cases horphaned : old.isOrphaned isOwnerGone
  · rw [if_pos horphaned]
    have hended : (tables.verdict? old.executionId).getD (js "aborted") ≠ js "running" := by
      cases hverdict : tables.verdict? old.executionId with
      | none => decide
      | some verdict =>
        obtain ⟨event, -, rfl⟩ := Option.map_eq_some_iff.mp hverdict
        exact readEndedStatus_ne_running event.payload
    simp [StoredRun.isOrphaned, StoredRun.close, hended]
  · rwa [if_neg horphaned]

end

theorem endedOnce_swept (hevents : after.events.rows = tables.events.rows ++
      (orphanedIds isOwnerGone tables).flatMap (addedEvents now (orphanScan isOwnerGone tables)))
    (hrow : row ∈ tables.runs) (horphaned : row.isOrphaned isOwnerGone)
    (hterminal : ∀ verdict ∈ tables.verdict? row.executionId, verdict ∈ TERMINAL_STATUSES)
    (hone : (tables.endedEvents row.executionId).length ≤ 1) : (after.endedEvents row.executionId).length = 1 := by
  have hid : row.executionId ∈ orphanedIds isOwnerGone tables := (mem_orphanedIds_iff hrow).mpr horphaned
  have hended : after.endedEvents row.executionId = tables.endedEvents row.executionId ++
      (addedEvents now (orphanScan isOwnerGone tables) row.executionId).filter fun event =>
        event.executionId = row.executionId && event.kind = RUN_ENDED := by
    have hown : ∀ event : StoredEvent, (event.executionId = row.executionId && event.kind = RUN_ENDED) →
        event.executionId = row.executionId := by
      simp +contextual
    rw [endedEvents, hevents, filter_append, endedEvents,
      filter_addedEvents orphanedIds_nodup hown, if_pos hid]
  rw [hended, addedEvents, verdict_scan hid]
  cases hverdict : tables.verdict? row.executionId with
  | none =>
    have hnone : tables.endedEvents row.executionId = [] := by
      rw [verdict?, Option.map_eq_none_iff, getLast?_eq_none_iff] at hverdict
      exact hverdict
    simp [hnone, truthy?, recoveryEvent]
  | some verdict =>
    have hsome : tables.endedEvents row.executionId ≠ [] := by
      intro hempty
      rw [verdict?, hempty] at hverdict
      cases hverdict
    have htruthy : Truthy verdict := by
      have hnames : ∀ status ∈ TERMINAL_STATUSES, Truthy status := by decide
      exact hnames verdict (hterminal verdict hverdict)
    have hpos := length_pos_iff.mpr hsome
    simp only [truthy?_some htruthy, Option.isSome_some, if_true, filter_nil, append_nil]
    omega

/-- **When the sweep settles.** Whatever is in the tables: the sweep succeeds, settles every orphaned run and leaves
nothing to a second sweep, exactly when no `run.ended` event of an orphaned run has a verdict on record that is no
terminal state. -/
theorem sweep_settles_iff (now : ℤ) (isOwnerGone : JsString → Bool) (tables : TraceTables γ) :
    (∃ closed after, abortOrphanedEnterpriseRuns now isOwnerGone tables = some (closed, after) ∧
        Settled isOwnerGone tables after ∧
        ∀ later, abortOrphanedEnterpriseRuns later isOwnerGone after = some (0, after)) ↔
      ∀ row ∈ tables.runs, row.isOrphaned isOwnerGone = true → ∀ verdict ∈ tables.verdict? row.executionId,
        verdict ∈ TERMINAL_STATUSES := by
  obtain ⟨after, hafter, hruns, hevents⟩ := abortOrphanedEnterpriseRuns_eq now isOwnerGone tables
  constructor
  · rintro ⟨closed, after', hafter', hsettled, -⟩ row hrow horphaned verdict hverdict
    have hsame : after' = after := by
      rw [hafter] at hafter'
      exact (Prod.mk.inj (Option.some.inj hafter')).2.symm
    subst hsame
    obtain ⟨final, hfinal, hid, hterminal⟩ := hsettled.terminal row hrow horphaned
    have hclosed := mem_swept hruns hrow horphaned
    rw [KeyedTable.eq_of_key hfinal hclosed hid, StoredRun.close, Option.mem_def.mp hverdict] at hterminal
    exact hterminal
  · intro hterminal
    have hstatus : ∀ row ∈ tables.runs, row.isOrphaned isOwnerGone = true →
        (tables.verdict? row.executionId).getD (js "aborted") ∈ TERMINAL_STATUSES := by
      intro row hrow horphaned
      cases hverdict : tables.verdict? row.executionId with
      | none => decide
      | some verdict => exact hterminal row hrow horphaned verdict hverdict
    refine ⟨_, after, hafter, ⟨?_, ?_, ?_, ?_, after.events.nodup, ?_⟩, ?_⟩
    · exact fun row hrow horphaned => ⟨_, mem_swept hruns hrow horphaned, rfl, hstatus row hrow horphaned⟩
    · exact fun row hrow horphaned hone => endedOnce_swept hevents hrow horphaned (hterminal row hrow horphaned) hone
    · intro row hrow horphaned verdict hverdict
      refine ⟨_, mem_swept hruns hrow horphaned, rfl, ?_⟩
      rw [StoredRun.close, Option.mem_def.mp hverdict]
      rfl
    · refine ⟨_, hevents, fun event hevent earlier hearlier hid => ?_⟩
      obtain ⟨id, hmem, hadded⟩ := mem_flatMap.mp hevent
      rw [executionId_of_mem_addedEvents hadded] at hid ⊢
      have hread : earlier ∈ tables.events.rows.filter (·.executionId ∈ orphanedIds isOwnerGone tables) :=
        mem_filter.mpr ⟨hearlier, decide_eq_true (hid.symm ▸ hmem)⟩
      have hlt := seq_lt_nextSeq hread
      rw [hid] at hlt
      exact hlt
    · intro row hrow hkept
      have hid := (mem_orphanedIds_iff hrow).not.mpr (by rw [hkept]; exact Bool.false_ne_true)
      constructor
      · refine show row ∈ after.runs.rows from ?_
        rw [hruns]
        exact mem_map.mpr ⟨row, hrow, if_neg (by rw [hkept]; exact Bool.false_ne_true)⟩
      · intro event hevent hevent_id
        rw [show event ∈ after.events ↔ event ∈ after.events.rows from Iff.rfl, hevents] at hevent
        rcases mem_append.mp hevent with hold | hnew
        · exact hold
        · obtain ⟨id, hmem, hadded⟩ := mem_flatMap.mp hnew
          rw [executionId_of_mem_addedEvents hadded] at hevent_id
          have hsame : id = row.executionId := hevent_id
          exact absurd (hsame ▸ hmem) hid
    · intro later
      unfold abortOrphanedEnterpriseRuns
      rw [orphanedIds_swept hruns]
      rfl

end Sweep

/-- One execution a crash left running above a `run.ended` event with this status. -/
def halfFinalized (status : JsString) : TraceTables Unit where
  runs :=
    { rows :=
        [{ executionId := js "exec"
           status := js "running"
           ownerToken := some (js "4711:1")
           updatedAt := 1
           endedAt := none
           columns := () }]
      nodup := by decide }
  events :=
    { rows :=
        [{ executionId := js "exec"
           seq := 0
           nodeId := none
           kind := RUN_ENDED
           payload := some [("status", .text status)]
           createdAt := 1 }]
      nodup := nodup_singleton _ }

/-- A verdict that is the empty text counts as a verdict where the row is written, and as none where the trace is
closed: the row gets no terminal state, and the trace a second end. -/
theorem sweep_not_settled :
    (abortOrphanedEnterpriseRuns 9 (fun _ => true) (halfFinalized [])).map
        (fun swept => (swept.2.runs.rows.map (·.status), (swept.2.endedEvents (js "exec")).length)) =
      some ([[]], 2) ∧
    ((halfFinalized []).endedEvents (js "exec")).length = 1 ∧
    ¬ ∃ closed after, abortOrphanedEnterpriseRuns 9 (fun _ => true) (halfFinalized []) = some (closed, after) ∧
      Settled (fun _ => true) (halfFinalized []) after := by
  have hswept : (abortOrphanedEnterpriseRuns 9 (fun _ => true) (halfFinalized [])).map
      (fun swept => (swept.2.runs.rows.map (·.status), (swept.2.endedEvents (js "exec")).length)) =
        some ([[]], 2) := by
    decide
  refine ⟨hswept, by decide, ?_⟩
  rintro ⟨closed, after, hafter, hsettled⟩
  have hone := hsettled.endedOnce _ (mem_singleton_self _) (by decide) (by decide)
  rw [hafter] at hswept
  have htwo : (after.endedEvents (js "exec")).length = 2 := (Prod.mk.inj (Option.some.inj hswept)).2
  exact absurd (htwo.symm.trans hone) (by decide)

end ClawWorks
