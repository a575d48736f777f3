import ClawWorks.Js.Text
import Mathlib.Data.Rat.Floor

/-!
# Cron schedules

When a job runs next: at one time, on a grid of intervals, or at the slots of a cron expression, moved by the offset
that spreads the jobs of one slot over its stagger window.
-/

namespace ClawWorks.Cron

open List

/-- What the service is given: Croner, the reader of absolute times, the digest of an id, the zone of the host. -/
class Croner where
  nextRun (expr timezone : JsString) (date : ℚ) : Except JsString (Option ℚ)
  previousRun (expr timezone : JsString) (date : ℚ) : Except JsString (Option ℚ)
  parseAbsoluteTimeMs : JsString → Option ℚ
  /-- The first four bytes of the digest. -/
  digestWord : JsString → ℕ
  timeZone : JsString

/-- A number that is not finite counts as none. -/
inductive CronSchedule
  | once (time : JsString)
  | every (everyMs anchorMs : Option ℚ)
  | cron (expr tz : Option JsString) (staggerMs : Option ℚ)
  deriving DecidableEq

inductive CronRunStatus
  | ok | error | skipped
  deriving DecidableEq

inductive PayloadKind
  | systemEvent | agentTurn | command
  deriving DecidableEq

structure CronJobState where
  nextRunAtMs : Option ℚ := none
  runningAtMs : Option ℚ := none
  lastRunAtMs : Option ℚ := none
  lastRunStatus : Option CronRunStatus := none
  lastStatus : Option CronRunStatus := none
  lastError : Option JsString := none
  lastDurationMs : Option ℚ := none
  consecutiveErrors : Option ℚ := none
  scheduleErrorCount : Option ℕ := none
  deriving DecidableEq

structure CronJob where
  id : JsString
  enabled : Option Bool := none
  createdAtMs : Option ℚ := none
  schedule : CronSchedule
  payload : PayloadKind := .systemEvent
  state : CronJobState := {}
  deriving DecidableEq

def isDigits (s : JsString) : Bool :=
  !s.isEmpty && s.all isDigit

/-- `HOUR_LIST_PART`. -/
def isHourListPart (part : JsString) : Bool :=
  let isHours (hours : JsString) : Bool :=
    hours = js "*" || hours = js "?" || (hours.splitOn DASH).length ≤ 2 && (hours.splitOn DASH).all isDigits
  match part.splitOn 47 with
  | [hours] => isHours hours
  | [hours, step] => isHours hours && isDigits step
  | _ => false

def hasRecurringWildcardHour (field : JsString) : Bool :=
  (field.splitOn 44).all isHourListPart &&
    (field.splitOn 44).any fun part => (js "*").isPrefixOf part || (js "?").isPrefixOf part

def isRecurringTopOfHourCronExpr (expr : JsString) : Bool :=
  match (expr.splitOnP isWhiteSpace).filter (!·.isEmpty) with
  | [minute, hour, _, _, _] => minute = js "0" && hasRecurringWildcardHour hour
  | [second, minute, hour, _, _, _] => second = js "0" && minute = js "0" && hasRecurringWildcardHour hour
  | _ => false

def resolveCronStaggerMs (expr : Option JsString) (staggerMs : Option ℚ) : ℤ :=
  match staggerMs with
  | some raw => max 0 ⌊raw⌋
  | none => if isRecurringTopOfHourCronExpr (expr.getD []) then 5 * 60 * 1000 else 0

variable [Croner]

/-- The cached offsets are these. -/
def resolveStableCronOffsetMs (jobId : JsString) (staggerMs : ℤ) : ℤ :=
  if staggerMs ≤ 1 then 0 else Croner.digestWord jobId % staggerMs

/-! ## Next and previous runs -/

def resolveCronFromSchedule (expr tz : Option JsString) : Except JsString (Option (JsString × JsString)) :=
  match expr with
  | none => .error (js "invalid cron schedule: expr is required")
  | some expr =>
    if trim expr = [] then .ok none
    else .ok (some (trim expr, ((tz.map trim).filter (· ≠ [])).getD Croner.timeZone))

def nextSecond (nowMs : ℚ) : ℚ :=
  ⌊nowMs / 1000⌋ * 1000 + 1000

/-- `setUTCHours(24, 0, 0, 0)`. -/
def tomorrow (nowMs : ℚ) : ℚ :=
  (⌊nowMs / 86400000⌋ + 1) * 86400000

def computeNextRunAtMs (schedule : CronSchedule) (nowMs : ℚ) : Except JsString (Option ℚ) :=
  match schedule with
  | .once time => .ok ((Croner.parseAbsoluteTimeMs time).filter (nowMs < ·))
  | .every everyMs anchorMs => .ok <| everyMs.map fun raw =>
    let everyMs : ℚ := max 1 ⌊raw⌋
    let anchor : ℚ := max 0 ⌊anchorMs.getD nowMs⌋
    if nowMs < anchor then anchor else anchor + (⌊(nowMs - anchor) / everyMs⌋ + 1) * everyMs
  | .cron expr tz _ => do
    let some (expr, tz) ← resolveCronFromSchedule expr tz | return none
    let some nextMs ← Croner.nextRun expr tz nowMs | return none
    -- Croner can roll back to a past year: then it is asked again from later on.
    if nextMs ≤ nowMs then
      match (← Croner.nextRun expr tz (nextSecond nowMs)).filter (nowMs < ·) with
      | some retryMs => return some retryMs
      | none => return (← Croner.nextRun expr tz (tomorrow nowMs)).filter (nowMs < ·)
    return some nextMs

def computePreviousRunAtMs (schedule : CronSchedule) (nowMs : ℚ) : Except JsString (Option ℚ) :=
  match schedule with
  | .cron expr tz _ => do
    let some (expr, tz) ← resolveCronFromSchedule expr tz | return none
    return (← Croner.previousRun expr tz nowMs).filter (· < nowMs)
  | _ => .ok none

def staggeredNextFrom (schedule : CronSchedule) (offsetMs nowMs : ℚ) : ℕ → ℚ → Except JsString (Option ℚ)
  | 0, _ => .ok none
  | attempts + 1, cursorMs => do
    let some baseNext ← computeNextRunAtMs schedule cursorMs | return none
    if nowMs < baseNext + offsetMs then return some (baseNext + offsetMs)
    staggeredNextFrom schedule offsetMs nowMs attempts (max (cursorMs + 1) (baseNext + 1000))

def staggeredPreviousFrom (schedule : CronSchedule) (offsetMs nowMs : ℚ) : ℕ → ℚ → Except JsString (Option ℚ)
  | 0, _ => .ok none
  | attempts + 1, cursorMs => do
    let some basePrevious ← computePreviousRunAtMs schedule cursorMs | return none
    if basePrevious + offsetMs ≤ nowMs then return some (basePrevious + offsetMs)
    staggeredPreviousFrom schedule offsetMs nowMs attempts (max 0 (basePrevious - 1000))

/-- The offset of a cron job; another job has none. -/
def CronJob.offsetMs (job : CronJob) : ℤ :=
  match job.schedule with
  | .cron expr _ staggerMs => resolveStableCronOffsetMs job.id (resolveCronStaggerMs expr staggerMs)
  | _ => 0

def computeStaggeredCronNextRunAtMs (job : CronJob) (nowMs : ℚ) : Except JsString (Option ℚ) :=
  if job.offsetMs ≤ 0 then computeNextRunAtMs job.schedule nowMs
  else staggeredNextFrom job.schedule job.offsetMs nowMs 4 (max 0 (nowMs - job.offsetMs))

def computeStaggeredCronPreviousRunAtMs (job : CronJob) (nowMs : ℚ) : Except JsString (Option ℚ) :=
  if job.offsetMs ≤ 0 then computePreviousRunAtMs job.schedule nowMs
  else staggeredPreviousFrom job.schedule job.offsetMs nowMs 4 (max 0 (nowMs - job.offsetMs))

def CronSchedule.isCron : CronSchedule → Bool
  | .cron .. => true
  | _ => false

/-- The probe is a second past the candidate. -/
def isStaggeredCronRunAtMs (job : CronJob) (runAtMs : ℚ) : Except JsString Bool := do
  if job.schedule.isCron then
    return (← computeStaggeredCronPreviousRunAtMs job (runAtMs + 1000)) = some runAtMs
  return false

def hasScheduledNextRunAtMs (value : Option ℚ) : Bool :=
  value.any (0 < ·)

def resolveJobLastRunStatus (job : CronJob) : Option CronRunStatus :=
  job.state.lastRunStatus <|> job.state.lastStatus

def isJobEnabled (job : CronJob) : Bool :=
  job.enabled.getD true

def resolveEveryAnchorMs (anchorMs : Option ℚ) (fallbackAnchorMs : ℚ) : ℚ :=
  max 0 ⌊anchorMs.getD fallbackAnchorMs⌋

def computeJobNextRunAtMs (job : CronJob) (nowMs : ℚ) : Except JsString (Option ℚ) :=
  if !isJobEnabled job then .ok none
  else
    match job.schedule with
    | .every none _ => .ok none
    | .every (some raw) anchorMs =>
      let everyMs : ℚ := max 1 ⌊raw⌋
      match (job.state.lastRunAtMs.map fun lastRunAtMs => ⌊lastRunAtMs⌋ + everyMs).filter (nowMs < ·) with
      | some nextFromLastRun => .ok (some nextFromLastRun)
      | none =>
        let anchorMs := resolveEveryAnchorMs anchorMs (job.createdAtMs.getD nowMs)
        computeNextRunAtMs (.every (some everyMs) (some anchorMs)) nowMs
    | .once time =>
      let atMs := Croner.parseAbsoluteTimeMs time
      -- A one-shot job is due until it has finished; one moved past its last run is armed again.
      match job.state.lastRunAtMs.filter (· ≠ 0), resolveJobLastRunStatus job with
      | some lastRunAtMs, some .ok => .ok (atMs.filter (lastRunAtMs < ·))
      | _, _ => .ok atMs
    | .cron .. => do
      match ← computeStaggeredCronNextRunAtMs job nowMs with
      | some next => return some next
      | none => computeStaggeredCronNextRunAtMs job (nextSecond nowMs)

end ClawWorks.Cron
