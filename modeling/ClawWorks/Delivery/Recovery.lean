import ClawWorks.Delivery.Deliver
import ClawWorks.Js.Patterns

/-!
# Recovery

How entries that are still pending are taken up again: at startup (`recoverPendingDeliveries`) and by a drain
(`drainPendingDeliveries`), one claimed entry at a time (`drainQueuedEntry`).
-/

namespace ClawWorks.Delivery

open Prog Matcher

def MAX_RETRIES : Nat := 5

def RECOVERY_BACKOFF_MS : List Nat := [5000, 25000, 120000, 600000]

def computeBackoffMs (retryCount : Nat) : Nat :=
  if retryCount = 0 then 0
  else RECOVERY_BACKOFF_MS.getD (min (retryCount - 1) (RECOVERY_BACKOFF_MS.length - 1)) 0

def isEntryEligibleForRecoveryRetry (entry : QueuedDelivery) (now : Nat) : Bool :=
  let backoff := computeBackoffMs (entry.retryCount + 1)
  if backoff = 0 then true
  else if entry.retryCount = 0 ∧ entry.lastAttemptAt = none then true
  else
    let baseAttemptAt := match entry.lastAttemptAt with
      | some at_ => if 0 < at_ then at_ else entry.enqueuedAt
      | none => entry.enqueuedAt
    decide (baseAttemptAt + backoff ≤ now)

/-- `.*`. -/
def anything : Matcher UInt16 :=
  star (unit fun u => !(u == 10 || u == 13 || u == 8232 || u == 8233))

def PERMANENT_ERROR_PATTERNS : List (Matcher UInt16) :=
  [keyword "no conversation reference found", keyword "chat not found", keyword "user not found",
    seq (keyword "bot") (seq anything (seq (keyword "not") (seq anything (keyword "member")))),
    keyword "bot was blocked by the user",
    keyword "forbidden: bot was kicked",
    keyword "chat_id is empty",
    keyword "recipient is not a valid",
    keyword "outbound not configured for channel",
    seq (keyword "ambiguous ") (seq anything (keyword " recipient")),
    seq (keyword "User ") (seq anything (keyword " not in room"))]

def isPermanentDeliveryError (error : JsString) : Bool :=
  PERMANENT_ERROR_PATTERNS.any fun re => testAnywhere re error

/-! ## One entry -/

inductive DrainResult
  | recovered
  | failed
  | moved_to_failed
  | already_gone

def failEntry (id : EntryId) (errMsg : JsString) : Run DrainResult := do
  let updated ← failDelivery id errMsg
  pure (if updated then .failed else .already_gone)

def moveEntry (id : EntryId) : Run DrainResult := do
  let moved : Bool ← perform (Action.moveToFailed id)
  pure (if moved then .moved_to_failed else .already_gone)

/-- `buildRecoveryDeliverParams`, the delivery with them, and what becomes of the entry. -/
def replayEntry (attempt : Attempt) (entry : QueuedDelivery) : Run DrainResult := do
  let result ← deliverOutboundPayloadsInternal
    { entry.toQueuedDeliveryPayload with queuePolicy := .best_effort, hasAbortSignal := false } (some attempt)
  match result with
  | .ok () => do
    perform (Action.ackDelivery entry.id)
    pure .recovered
  | .error e => if isPermanentDeliveryError e.message then moveEntry entry.id else failEntry entry.id e.message

def RecoveryState.text : RecoveryState → JsString
  | send_attempt_started => js "send_attempt_started"
  | unknown_after_send => js "unknown_after_send"

def unresolvedMessage (state : RecoveryState) (error : Option JsString) : JsString :=
  match error with
  | some (u :: error) => js "delivery state is " ++ state.text ++ js " and reconciliation is unresolved: " ++ u :: error
  | _ =>
    js "delivery state is " ++ state.text ++ js "; refusing blind replay without adapter reconciliation"

/-- A marked entry is replayed only if its adapter says that nothing was sent, and nothing came back before. -/
def drainQueuedEntry (attempt : Attempt) (entry : QueuedDelivery) : Run DrainResult :=
  match entry.recoveryState with
  | none => replayEntry attempt entry
  | some state => do
    let reconciliation : Option Reconciliation ← perform (Action.reconcile attempt entry)
    match reconciliation, state with
    | some .sent, _ => do
      perform (Action.ackDelivery entry.id)
      pure .recovered
    | some .not_sent, .send_attempt_started => replayEntry attempt entry
    | some (.unresolved error true), _ => failEntry entry.id (unresolvedMessage state error)
    | _, _ => moveEntry entry.id

/-! ## All entries -/

structure Decision where
  isMatch : Bool
  bypassBackoff : Bool

def withClaimedEntry (id : EntryId) (use : Attempt → QueuedDelivery → Run Unit) : Run Unit := do
  let claimed : Option Nat ← perform (Action.claim id)
  match claimed with
  | none => pure ()
  | some number => do
    let current : Option QueuedDelivery ← perform (Action.loadPendingDelivery id)
    match current with
    | none => pure ()
    | some currentEntry => use ⟨id, number⟩ currentEntry
    perform (Action.release id)

def retryIfEligible (attempt : Attempt) (entry : QueuedDelivery) : Run Unit := do
  let now : Nat ← perform Action.now
  if isEntryEligibleForRecoveryRetry entry now then do
    let _ ← drainQueuedEntry attempt entry
    pure ()
  else pure ()

def giveUp (id : EntryId) : Run Unit := do
  let _ ← moveEntry id
  pure ()

def drainSelected (selectEntry : QueuedDelivery → Nat → Decision) (attempt : Attempt) (entry : QueuedDelivery) :
    Run Unit := do
  let now : Nat ← perform Action.now
  if !(selectEntry entry now).isMatch then pure ()
  else if MAX_RETRIES ≤ entry.retryCount then giveUp entry.id
  else if (selectEntry entry now).bypassBackoff then do
    let _ ← drainQueuedEntry attempt entry
    pure ()
  else retryIfEligible attempt entry

def drainEntries (selectEntry : QueuedDelivery → Nat → Decision) : List QueuedDelivery → Run Unit
  | [] => pure ()
  | entry :: rest => do
    withClaimedEntry entry.id (drainSelected selectEntry)
    drainEntries selectEntry rest

def byEnqueuedAt (entries : List QueuedDelivery) : List QueuedDelivery :=
  entries.mergeSort fun a b => decide (a.enqueuedAt ≤ b.enqueuedAt)

def drainPendingDeliveries (drainKey : JsString) (selectEntry : QueuedDelivery → Nat → Decision) : Run Unit := do
  let entered : Bool ← perform (Action.enterDrain drainKey)
  if !entered then pure ()
  else do
    let now : Nat ← perform Action.now
    let pending : List QueuedDelivery ← perform Action.loadPendingDeliveries
    drainEntries selectEntry (byEnqueuedAt (pending.filter fun entry => (selectEntry entry now).isMatch))
    perform (Action.leaveDrain drainKey)

def recoverEntry (attempt : Attempt) (entry : QueuedDelivery) : Run Unit :=
  if MAX_RETRIES ≤ entry.retryCount then giveUp entry.id else retryIfEligible attempt entry

/-- The rest is left to the next startup once the time is up. -/
def recoverEntries (deadline : Nat) : List QueuedDelivery → Run Unit
  | [] => pure ()
  | entry :: rest => do
    let now : Nat ← perform Action.now
    if deadline ≤ now then pure ()
    else do
      withClaimedEntry entry.id recoverEntry
      recoverEntries deadline rest

def recoverPendingDeliveries (maxRecoveryMs : Option Nat) : Run Unit := do
  let pending : List QueuedDelivery ← perform Action.loadPendingDeliveries
  let now : Nat ← perform Action.now
  recoverEntries (now + maxRecoveryMs.getD 60000) (byEnqueuedAt pending)

/-- Live deliveries through the queue, startup recoveries and drains. -/
inductive Starts : Run Unit → Prop
  | live (params : DeliverParams) : Starts (do
        let _ ← deliverOutboundPayloadsInternal params none
        pure ())
  | recovery (maxRecoveryMs : Option Nat) : Starts (recoverPendingDeliveries maxRecoveryMs)
  | drain (drainKey : JsString) (selectEntry : QueuedDelivery → Nat → Decision) :
      Starts (drainPendingDeliveries drainKey selectEntry)

end ClawWorks.Delivery
