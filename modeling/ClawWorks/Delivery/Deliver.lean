import ClawWorks.Delivery.Queue

/-!
# Deliveries

The delivery of payloads, live and replayed, as programs over the queue's actions.
-/

namespace ClawWorks.Delivery

open Prog

inductive QueuePolicy
  | required
  | best_effort
  deriving DecidableEq

/-- The parameters of a delivery that decide what it does to the queue; `queueId` is `null` where the queue is skipped. -/
structure CoreParams extends QueuedDeliveryPayload where
  attempt : Attempt
  queueId : Option EntryId
  queuePolicy : QueuePolicy
  hasAbortSignal : Bool

/-- What a delivery keeps count of: results so far, whether the entry is marked, whether an error was swallowed. -/
structure Sending where
  results : Nat
  platformSendStarted : Bool
  hadPartialFailure : Bool

/-- What a part of a delivery ends with; it may have thrown. -/
abbrev Sent (α : Type) := Sending × Except DeliveryError α

def abortError : DeliveryError where
  message := js "Operation aborted"
  aborted := true
  sentBeforeError := none

def enoent (id : EntryId) : DeliveryError where
  message := js "No pending outbound delivery queue entry " ++ js (toString id)
  aborted := false
  sentBeforeError := none

/-- An error of the delivery is kept; another one is wrapped, with whether something was sent before. -/
def toOutboundDeliveryError (e : DeliveryError) (results : Nat) : DeliveryError :=
  { e with sentBeforeError := some (e.sentBeforeError.getD (decide (0 < results))) }

variable (c : CoreParams)

def throwIfAborted : Run (Except DeliveryError Unit) :=
  if c.hasAbortSignal then do
    let aborted : Bool ← perform (Action.abortSignal c.attempt)
    pure (if aborted then .error abortError else .ok ())
  else pure (.ok ())

def onPlatformSendStart (s : Sending) : Run (Sent Unit) :=
  match c.queueId with
  | none => pure (s, .ok ())
  | some id =>
    if s.platformSendStarted then pure (s, .ok ())
    else do
      let now : Nat ← perform Action.now
      let marked : Bool ← perform (Action.update id (.markSendAttemptStarted now))
      if marked then pure ({ s with platformSendStarted := true }, .ok ())
      else if c.queuePolicy = .required then pure (s, .error (enoent id))
      else pure (s, .ok ())

/-- One call of the adapter, inside its lifecycle; the value is the number of identified results. -/
def sendUnit (index unit : Nat) (s : Sending) : Run (Sent Nat) := do
  let ready : Except DeliveryError Unit ← perform (Action.beforeSend c.attempt index)
  match ready with
  | .error e => pure (s, .error e)
  | .ok () =>
    let started ← onPlatformSendStart c s
    match started with
    | (s, .error e) => pure (s, .error e)
    | (s, .ok ()) =>
      let handed : Handed ← perform (Action.send c.attempt index unit)
      match handed.result with
      | .error e => pure (s, .error e)
      | .ok identified => pure ({ s with results := s.results + identified }, .ok identified)

/-- Units from one on, an abort checked before each. -/
def sendUnits (c : CoreParams) (index : Nat) : (count unit : Nat) → Sending → Run (Sent Unit)
  | 0, _, s => pure (s, .ok ())
  | count + 1, unit, s => do
    let go ← throwIfAborted c
    match go with
    | .error e => pure (s, .error e)
    | .ok () =>
      let sent ← sendUnit c index unit s
      match sent with
      | (s, .error e) => pure (s, .error e)
      | (s, .ok _) => sendUnits c index count (unit + 1) s

/-! ## Payloads -/

def deliveredOutcome (delivered : Nat) : PayloadOutcome :=
  if 0 < delivered then .sent else .suppressed .adapter_returned_no_identity

variable (index : Nat) (s : Sending)

/-- Pinning, if it was required, may fail. -/
def afterDelivered : Run (Sent Unit) := do
  let result : Except DeliveryError Unit ← perform (Action.afterSend c.attempt index)
  pure (s, result)

/-- The outcome is recorded before the message is pinned, but for media. -/
def sendPlanned : SendPlan → Run (Sent Unit)
  | .payload => do
    let sent ← sendUnit c index 0 s
    match sent with
    | (s, .error e) => pure (s, .error e)
    | (s, .ok delivered) => do
      perform (Action.record c.attempt index (deliveredOutcome delivered))
      if 0 < delivered then afterDelivered c index s else pure (s, .ok ())
  | .formattedText => do
    let sent ← sendUnit c index 0 s
    match sent with
    | (s, .error e) => pure (s, .error e)
    | (s, .ok delivered) => do
      perform (Action.record c.attempt index (deliveredOutcome delivered))
      afterDelivered c index s
  | .textChunks units => do
    let sent ← sendUnits c index units 0 s
    match sent with
    | (s', .error e) => pure (s', .error e)
    | (s', .ok ()) => do
      perform (Action.record c.attempt index (deliveredOutcome (s'.results - s.results)))
      afterDelivered c index s'
  | .media units => do
    let sent ← sendUnits c index units 0 s
    match sent with
    | (s', .error e) => pure (s', .error e)
    | (s', .ok ()) => do
      let after ← afterDelivered c index s'
      match after with
      | (s', .error e) => pure (s', .error e)
      | (s', .ok ()) => do
        perform (Action.record c.attempt index (deliveredOutcome (s'.results - s.results)))
        pure (s', .ok ())

def suppress (reason : SuppressionReason) : Run (Sent Unit) := do
  perform (Action.record c.attempt index (.suppressed reason))
  pure (s, .ok ())

def deliverPayload : Run (Sent Unit) := do
  let go ← throwIfAborted c
  match go with
  | .error e => pure (s, .error e)
  | .ok () =>
    let prepared : Except DeliveryError Prepared ← perform (Action.prepare c.attempt index)
    match prepared with
    | .error e => pure (s, .error e)
    | .ok .cancelledByReplyHook => suppress c index s .cancelled_by_reply_payload_sending_hook
    | .ok .cancelledByMessageHook => suppress c index s .cancelled_by_message_sending_hook
    | .ok (.empty contentRewritten changed) =>
      suppress c index s <| if contentRewritten then .empty_after_message_sending_hook
        else if changed then .empty_after_reply_payload_sending_hook
        else .no_visible_payload
    | .ok (.ready plan) => sendPlanned c index s plan

/-- In best-effort mode the error of a payload goes to `onError`. -/
def deliverPayloads (c : CoreParams) : List Nat → Sending → Run (Sent Unit)
  | [], s => pure (s, .ok ())
  | index :: rest, s => do
    let delivered ← deliverPayload c index s
    match delivered with
    | (s, .ok ()) => deliverPayloads c rest s
    | (s, .error e) => do
      perform (Action.record c.attempt index .failed)
      if c.bestEffort then deliverPayloads c rest { s with hadPartialFailure := true }
      else pure (s, .error (toOutboundDeliveryError e s.results))

def recordNoVisiblePayload (c : CoreParams) : List Nat → Run Unit
  | [] => pure ()
  | index :: rest => do
    perform (Action.record c.attempt index (.suppressed .no_visible_payload))
    recordNoVisiblePayload c rest

/-- Mirroring into the session transcript is left out: its errors are swallowed. -/
def deliverOutboundPayloadsCore : Run (Sent Unit) := do
  let normalized : Except DeliveryError (Nat → Bool) ← perform (Action.normalize c.attempt c.payloads)
  match normalized with
  | .error e => pure (s, .error e)
  | .ok visible =>
    let indices := (List.range c.payloads.length).filter visible
    if indices = [] then do
      recordNoVisiblePayload c (List.range c.payloads.length)
      pure (s, .ok ())
    else deliverPayloads c indices s

/-! ## The queue entry -/

/-- A queue action with the clock; the reply is whether the entry was pending. -/
def updateNow (id : EntryId) (u : Nat → Update) : Run Bool := do
  let now : Nat ← perform Action.now
  perform (Action.update id (u now))

def failDelivery (id : EntryId) (error : JsString) : Run Bool :=
  updateNow id (.failDelivery error)

def settleReturned (id : EntryId) (s : Sending) : Run (Except DeliveryError Unit) :=
  if s.hadPartialFailure then do
    let _ ← failDelivery id (js "partial delivery failure (bestEffort)")
    pure (.ok ())
  else do
    let marked ← if s.platformSendStarted then updateNow id .markOutcomeUnknown else pure true
    if !marked && c.queuePolicy = .required then pure (.error (enoent id))
    else do
      perform (Action.ackDelivery id)
      pure (.ok ())

def settleThrown (id : EntryId) (s : Sending) (e : DeliveryError) : Run (Except DeliveryError Unit) :=
  if e.aborted then do
    perform (Action.ackDelivery id)
    pure (.error e)
  else if s.platformSendStarted && e.sentBeforeError.getD false then do
    let marked ← updateNow id .markOutcomeUnknown
    if !marked && c.queuePolicy = .required then do
      let _ ← failDelivery id e.message
      pure (.error e)
    else pure (.error e)
  else do
    let _ ← failDelivery id e.message
    pure (.error e)

def deliverOutboundPayloadsWithQueueCleanup : Run (Except DeliveryError Unit) := do
  let delivered ← deliverOutboundPayloadsCore c { results := 0, platformSendStarted := false, hadPartialFailure := false }
  match c.queueId, delivered with
  | none, (_, outcome) => pure outcome
  | some id, (s, .ok ()) => settleReturned c id s
  | some id, (s, .error e) => settleThrown c id s e

structure DeliverParams extends QueuedDeliveryPayload where
  queuePolicy : QueuePolicy
  hasAbortSignal : Bool

def deliverOutboundPayloadsInternal (params : DeliverParams) (skipQueue : Option Attempt) :
    Run (Except DeliveryError Unit) :=
  match skipQueue with
  | some attempt =>
    deliverOutboundPayloadsWithQueueCleanup { params with attempt := attempt, queueId := none }
  | none => do
    let now : Nat ← perform Action.now
    let enqueued : EntryId × Option Nat ← perform (Action.enqueueDelivery params.toQueuedDeliveryPayload now)
    match enqueued with
    | (_, none) => pure (.ok ())
    | (id, some number) => do
      let result ← deliverOutboundPayloadsWithQueueCleanup { params with attempt := ⟨id, number⟩, queueId := some id }
      perform (Action.release id)
      pure result

end ClawWorks.Delivery
