import ClawWorks.Cron.Schedule

/-!
# Maintenance of the next runs

The walks over the stored jobs that set what is missing of their next runs. A slot that has come stays until its run,
but an enabled job whose stuck marker is cleared is passed over also where it has no next run (`keepsSlots_iff`).
-/

namespace ClawWorks.Cron

open List

/-- Two hours. -/
def STUCK_RUN_MS : ℚ := 2 * 60 * 60 * 1000

def DEFAULT_ERROR_BACKOFF_SCHEDULE_MS : List ℚ := [30000, 60000, 5 * 60000, 15 * 60000, 60 * 60000]

def MAX_SCHEDULE_ERRORS : ℕ := 3

def errorBackoffMs (consecutiveErrors : ℤ) (scheduleMs : List ℚ) : ℚ :=
  scheduleMs[(min (consecutiveErrors - 1) (scheduleMs.length - 1)).toNat]?.getD 30000

/-! ## Steps -/

section

variable (backoffMs : Option (List ℚ))

/-- The retry delays of the configuration are the default ones unless it has its own. -/
def resolveJobErrorBackoffUntilMs (job : CronJob) : Option ℚ :=
  if resolveJobLastRunStatus job = some .error then
    job.state.lastRunAtMs.map fun lastRunAtMs =>
      let consecutiveErrors := (job.state.consecutiveErrors.map fun raw => max 1 ⌊raw⌋).getD 1
      let lastDurationMs : ℤ := (job.state.lastDurationMs.map fun raw => max 0 ⌊raw⌋).getD 0
      lastRunAtMs + lastDurationMs + errorBackoffMs consecutiveErrors (backoffMs.getD DEFAULT_ERROR_BACKOFF_SCHEDULE_MS)
  else none

def isPendingErrorBackoffSlot (job : CronJob) (nextRunAtMs nowMs : ℚ) : Bool :=
  (resolveJobErrorBackoffUntilMs backoffMs job).any fun backoffUntilMs =>
    nowMs < backoffUntilMs && nextRunAtMs ≤ backoffUntilMs

variable [Croner]

def shouldRepairFutureCronNextRunAtMs (job : CronJob) (nowMs : ℚ) : Bool :=
  match job.state.nextRunAtMs.filter (0 < ·) with
  | none => false
  | some nextRun =>
    if !job.schedule.isCron || nextRun ≤ nowMs || job.state.runningAtMs.isSome ||
        isPendingErrorBackoffSlot backoffMs job nextRun nowMs then false
    else
      match computeStaggeredCronNextRunAtMs job nowMs, isStaggeredCronRunAtMs job nextRun with
      | .ok (some naturalNext), .ok false =>
        if nextRun < naturalNext then job.payload ≠ .agentTurn
        else if nextRun = naturalNext then false
        else
          match computeStaggeredCronNextRunAtMs job naturalNext with
          | .ok (some followingNaturalNext) =>
            let naturalIntervalMs := followingNaturalNext - naturalNext
            0 < naturalIntervalMs && followingNaturalNext + naturalIntervalMs ≤ nextRun
          | _ => false
      | _, _ => false

def recordScheduleComputeError (job : CronJob) (err : JsString) : CronJob :=
  let errorCount := job.state.scheduleErrorCount.getD 0 + 1
  { job with
    enabled := if MAX_SCHEDULE_ERRORS ≤ errorCount then some false else job.enabled
    state := { job.state with
      scheduleErrorCount := some errorCount
      nextRunAtMs := none
      lastError := some (js "schedule error: " ++ err) } }

/-- The flag is whether the job has changed. -/
def recomputeJobNextRunAtMs (job : CronJob) (nowMs : ℚ) : CronJob × Bool :=
  match computeJobNextRunAtMs job nowMs with
  | .error err => (recordScheduleComputeError job err, true)
  | .ok newNext =>
    let backoffFloor := if job.schedule matches .once _ then none else resolveJobErrorBackoffUntilMs backoffMs job
    let next := { job with state := { job.state with
      nextRunAtMs := newNext.map fun next => (backoffFloor.map (max next)).getD next
      scheduleErrorCount := job.state.scheduleErrorCount.filter (· = 0) } }
    (next, next ≠ job)

end

def anchoredSchedule (job : CronJob) (nowMs : ℚ) : CronSchedule :=
  match job.schedule with
  | .every everyMs anchorMs => .every everyMs (some (resolveEveryAnchorMs anchorMs (job.createdAtMs.getD nowMs)))
  | schedule => schedule

def isStuck (job : CronJob) (nowMs : ℚ) : Bool :=
  job.state.runningAtMs.any fun runningAt => STUCK_RUN_MS < nowMs - runningAt

def alreadyExecutedSlot (job : CronJob) : Bool :=
  (job.state.nextRunAtMs.filter (0 < ·)).any fun nextRun => job.state.lastRunAtMs.any (nextRun ≤ ·)

/-- The job, and whether the walk skips it. -/
def normalizeJobTickState (job : CronJob) (nowMs : ℚ) : CronJob × Bool :=
  let schedule := anchoredSchedule job nowMs
  if !isJobEnabled job then
    ({ job with schedule, state := { job.state with nextRunAtMs := none, runningAtMs := none } }, true)
  else
    let nextRunAtMs := job.state.nextRunAtMs.filter (0 < ·)
    if isStuck job nowMs then
      ({ job with schedule, state := { job.state with nextRunAtMs, runningAtMs := none } }, !alreadyExecutedSlot job)
    else ({ job with schedule, state := { job.state with nextRunAtMs } }, false)

def walkJob (fn : CronJob → CronJob × Bool) (nowMs : ℚ) (job : CronJob) : CronJob × Bool :=
  let tick := normalizeJobTickState job nowMs
  if tick.2 then (tick.1, tick.1 ≠ job) else ((fn tick.1).1, tick.1 ≠ job || (fn tick.1).2)

def walkSchedulableJobs (fn : CronJob → CronJob × Bool) (jobs : List CronJob) (nowMs : ℚ) : List CronJob × Bool :=
  (jobs.map fun job => (walkJob fn nowMs job).1, jobs.any fun job => (walkJob fn nowMs job).2)

variable [Croner] (backoffMs : Option (List ℚ))

def recomputeDue (nowMs : ℚ) (job : CronJob) : CronJob × Bool :=
  let isDueOrMissing := !hasScheduledNextRunAtMs job.state.nextRunAtMs || job.state.nextRunAtMs.any (· ≤ nowMs)
  if isDueOrMissing || shouldRepairFutureCronNextRunAtMs backoffMs job nowMs then
    recomputeJobNextRunAtMs backoffMs job nowMs
  else (job, false)

def recomputeNextRuns (jobs : List CronJob) (nowMs : ℚ) : List CronJob × Bool :=
  walkSchedulableJobs (recomputeDue backoffMs nowMs) jobs nowMs

structure MaintenanceOptions where
  recomputeExpired : Bool := false
  repairFutureCronNextRunAtMs : Bool := true
  skipFutureRepairJobIds : List JsString := []

def maintainJob (options : MaintenanceOptions) (nowMs : ℚ) (job : CronJob) : CronJob × Bool :=
  match job.state.nextRunAtMs.filter (0 < ·) with
  | none => recomputeJobNextRunAtMs backoffMs job nowMs
  | some nextRun =>
    if options.repairFutureCronNextRunAtMs && !options.skipFutureRepairJobIds.contains job.id &&
        shouldRepairFutureCronNextRunAtMs backoffMs job nowMs then recomputeJobNextRunAtMs backoffMs job nowMs
    else if options.recomputeExpired && nextRun ≤ nowMs && job.state.runningAtMs.isNone then
      -- An expired slot that was not executed stays, so that the job can still run.
      let isStaleBackoffSlot := (resolveJobErrorBackoffUntilMs backoffMs job).any fun backoffUntilMs =>
        nowMs < backoffUntilMs && nextRun < backoffUntilMs
      if alreadyExecutedSlot job || isStaleBackoffSlot then recomputeJobNextRunAtMs backoffMs job nowMs
      else (job, false)
    else (job, false)

def recomputeNextRunsForMaintenance (options : MaintenanceOptions) (jobs : List CronJob) (nowMs : ℚ) :
    List CronJob × Bool :=
  walkSchedulableJobs (maintainJob backoffMs options nowMs) jobs nowMs

/-! ## The tick keeps the schedule -/

variable {backoffMs} {job : CronJob} {nowMs : ℚ}

omit [Croner] in
theorem hasScheduledNextRunAtMs_eq_false {value : Option ℚ} :
    hasScheduledNextRunAtMs value = false ↔ value.filter (0 < ·) = none := by
  rw [hasScheduledNextRunAtMs, ← Option.isSome_filter, Option.isSome_eq_false_iff, Option.isNone_iff_eq_none]

omit [Croner] in
theorem max_floor (n z : ℤ) : max (n : ℚ) ⌊max (n : ℚ) z⌋ = max (n : ℚ) z := by
  have hcast : max (n : ℚ) z = (max n z : ℤ) := Int.cast_max.symm
  rw [hcast, Int.floor_intCast, ← Int.cast_max, max_eq_right (le_max_left n z)]

omit [Croner] in
@[simp] theorem resolveEveryAnchorMs_resolved (anchorMs : Option ℚ) (fallback other : ℚ) :
    resolveEveryAnchorMs (some (resolveEveryAnchorMs anchorMs fallback)) other =
      resolveEveryAnchorMs anchorMs fallback := by
  have h := max_floor 0 ⌊anchorMs.getD fallback⌋
  rw [Int.cast_zero] at h
  exact h

/-- The job with its anchor written down and another plan. -/
def rescheduled (job : CronJob) (nowMs : ℚ) (nextRunAtMs runningAtMs : Option ℚ) (scheduleErrorCount : Option ℕ) :
    CronJob :=
  { job with
    schedule := anchoredSchedule job nowMs
    state := { job.state with nextRunAtMs, runningAtMs, scheduleErrorCount } }

omit [Croner] in
theorem tick_enabled (h : isJobEnabled job) : normalizeJobTickState job nowMs =
    (rescheduled job nowMs (job.state.nextRunAtMs.filter (0 < ·))
      (if isStuck job nowMs then none else job.state.runningAtMs) job.state.scheduleErrorCount,
      isStuck job nowMs && !alreadyExecutedSlot job) := by
  cases hstuck : isStuck job nowMs <;> simp [normalizeJobTickState, rescheduled, h, hstuck]

/-- What a job computes depends on its schedule and its last run, and its anchor is the one that the walk writes. -/
@[simp] theorem computeJobNextRunAtMs_rescheduled (nextRunAtMs runningAtMs : Option ℚ)
    (scheduleErrorCount : Option ℕ) :
    computeJobNextRunAtMs (rescheduled job nowMs nextRunAtMs runningAtMs scheduleErrorCount) nowMs =
      computeJobNextRunAtMs job nowMs := by
  obtain ⟨id, enabled, createdAtMs, schedule, payload, state⟩ := job
  rcases schedule with _ | ⟨_ | everyMs, anchorMs⟩ | _
  case every.some => simp [rescheduled, anchoredSchedule, computeJobNextRunAtMs, isJobEnabled]
  all_goals rfl

theorem recompute_next {next : ℚ} (h : computeJobNextRunAtMs job nowMs = .ok (some next)) :
    (recomputeJobNextRunAtMs backoffMs job nowMs).1.state.nextRunAtMs ≠ none := by
  simp [recomputeJobNextRunAtMs, h]

variable {options : MaintenanceOptions}

theorem maintain_next {next : ℚ} (h : computeJobNextRunAtMs job nowMs = .ok (some next)) :
    (maintainJob backoffMs options nowMs job).1.state.nextRunAtMs ≠ none := by
  unfold maintainJob
  split
  · exact recompute_next h
  rename_i nextRun hslot
  have hkept : job.state.nextRunAtMs ≠ none := by
    intro hnone
    simp [hnone] at hslot
  split
  · exact recompute_next h
  split
  · dsimp only
    split
    · exact recompute_next h
    · exact hkept
  · exact hkept

/-! ## What maintenance owes a job -/

structure PastDue (backoffMs : Option (List ℚ)) (job : CronJob) (nowMs slot : ℚ) : Prop where
  enabled : isJobEnabled job = true
  planned : job.state.nextRunAtMs = some slot
  scheduled : 0 < slot
  due : slot ≤ nowMs
  unexecuted : ∀ lastRun ∈ job.state.lastRunAtMs, lastRun < slot
  settled : ∀ backoffUntilMs ∈ resolveJobErrorBackoffUntilMs backoffMs job, backoffUntilMs ≤ nowMs

/-- An enabled job whose schedule gives a next run. -/
def Computes (job : CronJob) (nowMs : ℚ) : Prop :=
  isJobEnabled job = true ∧ ∃ next, computeJobNextRunAtMs job nowMs = .ok (some next)

structure Kept (backoffMs : Option (List ℚ)) (nowMs : ℚ) (job kept : CronJob) : Prop where
  slot : ∀ slot, PastDue backoffMs job nowMs slot → kept.state.nextRunAtMs = some slot
  next : Computes job nowMs → kept.state.nextRunAtMs ≠ none

/-- It has no next run, and its marker is stuck. -/
def Overlooked (job : CronJob) (nowMs : ℚ) : Prop :=
  Computes job nowMs ∧ hasScheduledNextRunAtMs job.state.nextRunAtMs = false ∧ isStuck job nowMs = true

def KeepsSlots (backoffMs : Option (List ℚ)) (options : MaintenanceOptions) (jobs : List CronJob) (nowMs : ℚ) : Prop :=
  Forall₂ (Kept backoffMs nowMs) jobs (recomputeNextRunsForMaintenance backoffMs options jobs nowMs).1

section

variable {slot : ℚ} (h : PastDue backoffMs job nowMs slot)

include h

omit [Croner] in
theorem PastDue.filtered : job.state.nextRunAtMs.filter (0 < ·) = some slot := by
  rw [h.planned, Option.filter_some, if_pos (decide_eq_true h.scheduled)]

omit [Croner] in
theorem PastDue.not_executed : alreadyExecutedSlot job = false := by
  have hunexecuted := h.unexecuted
  rw [alreadyExecutedSlot, h.filtered, Option.any_some]
  cases hlast : job.state.lastRunAtMs with
  | none => rfl
  | some lastRun => simpa using hunexecuted lastRun hlast

theorem PastDue.not_repaired : shouldRepairFutureCronNextRunAtMs backoffMs job nowMs = false := by
  simp [shouldRepairFutureCronNextRunAtMs, h.filtered, h.due]

theorem PastDue.maintained : maintainJob backoffMs options nowMs job = (job, false) := by
  have hsettled : (resolveJobErrorBackoffUntilMs backoffMs job).any (fun backoffUntilMs =>
      nowMs < backoffUntilMs && slot < backoffUntilMs) = false := by
    have hcalm := h.settled
    cases hbackoff : resolveJobErrorBackoffUntilMs backoffMs job with
    | none => rfl
    | some backoffUntilMs => simp [hcalm backoffUntilMs hbackoff]
  simp [maintainJob, h.filtered, h.not_repaired, h.not_executed, hsettled]

omit [Croner] in
theorem PastDue.tick : PastDue backoffMs (normalizeJobTickState job nowMs).1 nowMs slot := by
  rw [tick_enabled h.enabled]
  exact ⟨h.enabled, h.filtered, h.scheduled, h.due, h.unexecuted, h.settled⟩

theorem PastDue.walked : (walkJob (maintainJob backoffMs options nowMs) nowMs job).1.state.nextRunAtMs = some slot := by
  unfold walkJob
  dsimp only
  split
  · exact h.tick.planned
  · rw [h.tick.maintained]
    exact h.tick.planned

end

theorem walk_next (h : Computes job nowMs) (hnot : ¬Overlooked job nowMs) :
    (walkJob (maintainJob backoffMs options nowMs) nowMs job).1.state.nextRunAtMs ≠ none := by
  obtain ⟨henabled, next, hnext⟩ := h
  unfold walkJob
  dsimp only
  split
  · rename_i hskip
    rw [tick_enabled henabled] at hskip ⊢
    intro hnone
    have hstuck := (Bool.and_eq_true_iff.mp hskip).1
    exact hnot ⟨⟨henabled, next, hnext⟩, hasScheduledNextRunAtMs_eq_false.mpr hnone, hstuck⟩
  · rw [tick_enabled henabled]
    exact maintain_next ((computeJobNextRunAtMs_rescheduled _ _ _).trans hnext)

theorem Overlooked.walked (h : Overlooked job nowMs) :
    (walkJob (maintainJob backoffMs options nowMs) nowMs job).1.state.nextRunAtMs = none := by
  obtain ⟨⟨henabled, -⟩, hmissing, hstuck⟩ := h
  simp [walkJob, tick_enabled henabled, rescheduled, hstuck, alreadyExecutedSlot,
    hasScheduledNextRunAtMs_eq_false.mp hmissing]

/-- **Maintenance keeps every unexecuted slot that has come, and leaves an enabled job whose schedule gives a next run
without one just where it clears the job's stuck marker and the job has none.** -/
theorem keepsSlots_iff (backoffMs : Option (List ℚ)) (options : MaintenanceOptions) (jobs : List CronJob) (nowMs : ℚ) :
    KeepsSlots backoffMs options jobs nowMs ↔ ∀ job ∈ jobs, ¬Overlooked job nowMs := by
  simp only [KeepsSlots, recomputeNextRunsForMaintenance, walkSchedulableJobs, forall₂_map_right_iff, forall₂_same]
  refine forall₂_congr fun job _ => ⟨fun h hover => h.next hover.1 hover.walked, fun hnot => ?_⟩
  exact { slot := fun slot h => h.walked, next := fun h => walk_next h hnot }

abbrev plainHost : Croner where
  nextRun _ _ _ := .ok none
  previousRun _ _ _ := .ok none
  parseAbsoluteTimeMs _ := none
  digestWord _ := 0
  timeZone := js "UTC"

def interruptedJob : CronJob where
  id := js "report"
  schedule := .every (some 60000) none
  state := { runningAtMs := some 1 }

omit [Croner] in
theorem interrupted_job_unscheduled : ¬∀ [Croner] (backoffMs : Option (List ℚ)) (options : MaintenanceOptions)
    (jobs : List CronJob) (nowMs : ℚ), KeepsSlots backoffMs options jobs nowMs := by
  intro hall
  let := plainHost
  have hover : Overlooked interruptedJob 10000000 := ⟨⟨rfl, _, rfl⟩, rfl, by decide +kernel⟩
  have hkept := hall none {} [interruptedJob] 10000000
  cases hkept with
  | cons hjob _ => exact hjob.next hover.1 hover.walked

end ClawWorks.Cron
