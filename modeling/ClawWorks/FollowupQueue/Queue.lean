import Mathlib.Data.Rat.Floor
import ClawWorks.Js.Text

/-!
# The queue of follow-up messages

`Ledger` records what became of each message. Nothing reads it.
-/

namespace ClawWorks.FollowupQueue

/-! ## Messages and settings -/

inductive QueueMode where
  | steer
  | followup
  | collect
  | interrupt
  deriving DecidableEq

inductive QueueDropPolicy where
  | old
  | new
  | summarize
  deriving DecidableEq

/-- What `resolveCrossChannelKey` gives for a message. -/
structure CrossChannelKey where
  cross : Bool := false
  key : Option JsString := none
  deriving DecidableEq

/-- A message with the keys that the queue takes from its fields. -/
structure FollowupRun where
  /-- The object: no two messages have one. -/
  object : Nat
  /-- How often `createOverflowSummaryRetrySource` has copied the object. -/
  copies : Nat := 0
  prompt : JsString
  summaryLine : Option JsString := none
  /-- `resolveFollowupDeliveryContextKey(run)`. -/
  deliveryContextKey : JsString
  /-- `resolveCrossChannelKey(run)`. -/
  crossChannelKey : CrossChannelKey := {}
  /-- `hasRuntimeOnlyFollowupMetadata(run)`. -/
  runtimeOnlyMetadata : Bool := false
  deriving DecidableEq

/-- The cap may be any number. -/
structure QueueSettings where
  mode : QueueMode
  cap : Option ℚ := none
  dropPolicy : Option QueueDropPolicy := none

def DEFAULT_QUEUE_CAP : Nat := 20
def DEFAULT_QUEUE_DROP : QueueDropPolicy := .summarize

/-- Summaries dropped for want of room, of one delivery context. -/
structure SummaryElision where
  /-- The object: no two entries have one. -/
  object : Nat
  contextKey : JsString
  count : Nat
  source : FollowupRun
  sourceRefs : List FollowupRun
  /-- For the ledger: the messages that `count` stands for. -/
  counted : List FollowupRun

/-- What became of the messages. -/
structure Ledger where
  accepted : List FollowupRun := []
  delivered : List (List FollowupRun) := []
  /-- Counted in an overflow summary that was delivered. -/
  summarized : List FollowupRun := []
  dropped : List FollowupRun := []
  aborted : List FollowupRun := []

structure FollowupQueueState where
  items : List FollowupRun := []
  mode : QueueMode
  cap : Nat
  dropPolicy : QueueDropPolicy
  droppedCount : Nat := 0
  summaryLines : List JsString := []
  summarySources : List FollowupRun := []
  summaryElisions : List SummaryElision := []
  evictedSummaryCount : Nat := 0
  /-- How many entries of elided summaries there have been. -/
  elisionObjects : Nat := 0
  ledger : Ledger := {}

def removeQueuedItemsByRef (items processed : List FollowupRun) : List FollowupRun :=
  processed.foldl (fun items item => items.erase item) items

/-- A positive cap, rounded down. -/
def resolveCap (settings : QueueSettings) : Option Nat :=
  match settings.cap with
  | some cap => if 0 < cap then some cap.floor.toNat else none
  | none => none

def applyQueueRuntimeSettings (target : FollowupQueueState) (settings : QueueSettings) : FollowupQueueState :=
  { target with
    mode := settings.mode
    cap := (resolveCap settings).getD target.cap
    dropPolicy := settings.dropPolicy.getD target.dropPolicy }

variable (queue : FollowupQueueState)

/-- The first `evictions` entries of elided summaries are given up. -/
def FollowupQueueState.evictSummaryElisions (evictions : Nat) : FollowupQueueState :=
  { queue with
    summaryElisions := queue.summaryElisions.drop evictions
    evictedSummaryCount :=
      queue.evictedSummaryCount + ((queue.summaryElisions.take evictions).map (·.count)).sum
    ledger := { queue.ledger with
      dropped := queue.ledger.dropped ++ (queue.summaryElisions.take evictions).flatMap (·.counted) } }

def trimSummaryElisionsToCap : FollowupQueueState :=
  queue.evictSummaryElisions (queue.summaryElisions.length - queue.cap)

def createFollowupQueue (ledger : Ledger) (settings : QueueSettings) : FollowupQueueState :=
  { mode := settings.mode
    cap := (resolveCap settings).getD DEFAULT_QUEUE_CAP
    dropPolicy := settings.dropPolicy.getD DEFAULT_QUEUE_DROP
    ledger := ledger }

def getFollowupQueue (registered : Bool) (queue : FollowupQueueState) (settings : QueueSettings) :
    FollowupQueueState :=
  if registered = true then trimSummaryElisionsToCap (applyQueueRuntimeSettings queue settings)
  else applyQueueRuntimeSettings (createFollowupQueue queue.ledger settings) settings

/-! ## Overflow -/

def elideQueueText (text : JsString) (limit : Nat) : JsString :=
  if text.length ≤ limit then text
  else (text.take (limit - 1)).rdropWhile isWhiteSpace ++ js "…"

def buildQueueSummaryLine (text : JsString) : JsString :=
  elideQueueText (trim (collapseWhiteSpace text)) 160

/-- `normalizeOptionalString(item.summaryLine) || item.prompt.trim()`. -/
def FollowupRun.summary (item : FollowupRun) : JsString :=
  (truthy? (item.summaryLine.map trim)).getD (trim item.prompt)

/-- How many messages make room for another one. -/
def dropCount : Nat :=
  if queue.cap = 0 ∨ queue.items.length < queue.cap then 0 else queue.items.length - queue.cap + 1

/-- Makes room for a message; false where it is refused. -/
def applyQueueDropPolicy : FollowupQueueState × Bool :=
  if queue.cap = 0 ∨ queue.items.length < queue.cap then (queue, true)
  else
    let dropped := queue.items.take (dropCount queue)
    match queue.dropPolicy with
    | .new => (queue, false)
    | .old =>
      ({ queue with
          items := queue.items.drop (dropCount queue)
          ledger := { queue.ledger with dropped := queue.ledger.dropped ++ dropped } }, true)
    | .summarize =>
      let summaryLines := queue.summaryLines ++ dropped.map fun item => buildQueueSummaryLine item.summary
      ({ queue with
          items := queue.items.drop (dropCount queue)
          summarySources := queue.summarySources ++ dropped
          droppedCount := queue.droppedCount + dropped.length
          summaryLines := summaryLines.drop (summaryLines.length - queue.cap) }, true)

/-- A copy that belongs to no message. -/
def createOverflowSummaryRetrySource (source : FollowupRun) : FollowupRun :=
  { source with copies := source.copies + 1, runtimeOnlyMetadata := false }

/-- The summary of a dropped message is counted only, with its predecessor's where they have one context. -/
def elideSummarySource (item : FollowupRun) : FollowupQueueState :=
  let created : SummaryElision := {
    object := queue.elisionObjects
    contextKey := item.deliveryContextKey
    count := 1
    source := createOverflowSummaryRetrySource item
    sourceRefs := [item]
    counted := [item] }
  let push := fun (queue : FollowupQueueState) =>
    { queue with
      summaryElisions := queue.summaryElisions ++ [created]
      elisionObjects := queue.elisionObjects + 1 }
  match queue.summaryElisions.getLast? with
  | some lastElision =>
    if lastElision.contextKey = item.deliveryContextKey then
      { queue with
        summaryElisions := queue.summaryElisions.dropLast ++ [{ lastElision with
          count := lastElision.count + 1
          source := createOverflowSummaryRetrySource item
          sourceRefs := lastElision.sourceRefs ++ [item]
          counted := lastElision.counted ++ [item] }] }
    else if queue.cap ≤ queue.summaryElisions.length then push (queue.evictSummaryElisions 1)
    else push queue
  | none => push queue

/-- The sources without a summary line. -/
def elideOverflow : FollowupQueueState :=
  if queue.dropPolicy = .summarize then
    let overflow := queue.summarySources.length - queue.summaryLines.length
    (queue.summarySources.take overflow).foldl elideSummarySource
      { queue with summarySources := queue.summarySources.drop overflow }
  else queue

/-- A call of `enqueueFollowupRun`. -/
structure EnqueueCall where
  run : FollowupRun
  settings : QueueSettings
  /-- `isFollowupRunAborted(run)`. -/
  aborted : Bool := false
  /-- Whether the message is recognized as one that was queued before. -/
  duplicate : Bool := false

def enqueueFollowupRun (registered : Bool) (queue : FollowupQueueState) (call : EnqueueCall) : FollowupQueueState :=
  let queue := getFollowupQueue registered queue call.settings
  if call.duplicate = true then queue
  else
    let admitted := applyQueueDropPolicy queue
    let queue := elideOverflow admitted.1
    if admitted.2 = false then queue
    else
      { queue with
        items := queue.items ++ [call.run]
        ledger := { queue.ledger with accepted := queue.ledger.accepted ++ [call.run] } }

/-- The messages whose summary is not yet delivered, oldest first. -/
def FollowupQueueState.pending : List FollowupRun :=
  queue.summaryElisions.flatMap (·.counted) ++ queue.summarySources

end ClawWorks.FollowupQueue
