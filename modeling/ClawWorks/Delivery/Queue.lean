import ClawWorks.Js.Text
import ClawWorks.Lib.Threads

/-!
# The delivery queue

The durable queue of outbound messages, what else deliveries share, and the actions they take on it.
-/

namespace ClawWorks.Delivery

open Function

abbrev EntryId := Nat

inductive RecoveryState
  | send_attempt_started
  | unknown_after_send

/-- What is delivered; the payloads are what plugins and adapters make of them. -/
structure QueuedDeliveryPayload where
  payloads : List JsString
  bestEffort : Bool

structure QueuedDelivery extends QueuedDeliveryPayload where
  id : EntryId
  enqueuedAt : Nat
  retryCount : Nat
  lastAttemptAt : Option Nat
  lastError : Option JsString
  platformSendStartedAt : Option Nat
  recoveryState : Option RecoveryState

/-- The entry `enqueueDelivery` persists. -/
def QueuedDeliveryPayload.toEntry (params : QueuedDeliveryPayload) (id : EntryId) (now : Nat) : QueuedDelivery :=
  { params with
    id := id, enqueuedAt := now, retryCount := 0, lastAttemptAt := none, lastError := none,
    platformSendStartedAt := none, recoveryState := none }

/-- `failDelivery`, `markDeliveryPlatformSendAttemptStarted`, `markDeliveryPlatformOutcomeUnknown`. -/
inductive Update
  | failDelivery (error : JsString) (now : Nat)
  | markSendAttemptStarted (now : Nat)
  | markOutcomeUnknown (now : Nat)

def Update.apply : Update → QueuedDelivery → QueuedDelivery
  | failDelivery error now, entry =>
    { entry with retryCount := entry.retryCount + 1, lastAttemptAt := some now, lastError := some error }
  | markSendAttemptStarted now, entry =>
    { entry with
      platformSendStartedAt := some (entry.platformSendStartedAt.getD now)
      recoveryState := some .send_attempt_started }
  | markOutcomeUnknown now, entry =>
    { entry with
      platformSendStartedAt := some (entry.platformSendStartedAt.getD now)
      recoveryState := some .unknown_after_send }

/-! ## What deliveries do -/

/-- Who delivers: the holder of a claim on an entry. -/
structure Attempt where
  id : EntryId
  number : Nat
  deriving DecidableEq

inductive SuppressionReason
  | cancelled_by_reply_payload_sending_hook
  | cancelled_by_message_sending_hook
  | empty_after_message_sending_hook
  | empty_after_reply_payload_sending_hook
  | no_visible_payload
  | adapter_returned_no_identity
  deriving DecidableEq

inductive PayloadOutcome
  | sent
  | suppressed (reason : SuppressionReason)
  | failed
  deriving DecidableEq

/-- An exception: its message, whether it or its cause is an `AbortError`, and what an `OutboundDeliveryError` says. -/
structure DeliveryError where
  message : JsString
  aborted : Bool
  sentBeforeError : Option Bool

/-- How a prepared payload is handed to its adapter. -/
inductive SendPlan
  | payload
  | formattedText
  | textChunks (units : Nat)
  | media (units : Nat)

/-- What hooks, rendering and normalization make of a payload. -/
inductive Prepared
  | cancelledByReplyHook
  | cancelledByMessageHook
  | empty (contentRewritten changed : Bool)
  | ready (plan : SendPlan)

/-- What becomes of a unit at the platform, and what its adapter answers: how many results with an identity. -/
structure Handed where
  accepted : Bool
  result : Except DeliveryError Nat

inductive Reconciliation
  | sent
  | not_sent
  | unresolved (error : Option JsString) (retryable : Bool)
  deriving DecidableEq

inductive Action
  | enqueueDelivery (params : QueuedDeliveryPayload) (now : Nat)
  | claim (id : EntryId)
  | release (id : EntryId)
  | loadPendingDelivery (id : EntryId)
  | loadPendingDeliveries
  | update (id : EntryId) (u : Update)
  | ackDelivery (id : EntryId)
  | moveToFailed (id : EntryId)
  | now
  | enterDrain (drainKey : JsString)
  | leaveDrain (drainKey : JsString)
  | normalize (attempt : Attempt) (payloads : List JsString)
  | abortSignal (attempt : Attempt)
  | prepare (attempt : Attempt) (index : Nat)
  | beforeSend (attempt : Attempt) (index : Nat)
  | send (attempt : Attempt) (index unit : Nat)
  | afterSend (attempt : Attempt) (index : Nat)
  | record (attempt : Attempt) (index : Nat) (outcome : PayloadOutcome)
  | reconcile (attempt : Attempt) (entry : QueuedDelivery)

/-- Updates and moves of an entry that is not pending throw `ENOENT`: their reply is whether there was one. A write of a
new entry comes with the claim on it, unless another owner was faster; normalization tells which payloads are visible. -/
@[reducible] def Reply : Action → Type
  | .enqueueDelivery _ _ => EntryId × Option Nat
  | .claim _ => Option Nat
  | .loadPendingDelivery _ => Option QueuedDelivery
  | .loadPendingDeliveries => List QueuedDelivery
  | .update _ _ | .moveToFailed _ => Bool
  | .now => Nat
  | .enterDrain _ => Bool
  | .normalize _ _ => Except DeliveryError (Nat → Bool)
  | .abortSignal _ => Bool
  | .prepare _ _ => Except DeliveryError Prepared
  | .beforeSend _ _ | .afterSend _ _ => Except DeliveryError Unit
  | .send _ _ _ => Handed
  | .reconcile _ _ => Option Reconciliation
  | .release _ | .ackDelivery _ | .leaveDrain _ | .record _ _ _ => Unit

abbrev Run := Prog Action Reply

/-! ## The queue -/

/-- Something that was done, and the reply to it. -/
structure Event where
  action : Action
  reply : Reply action

/-- Who holds a claim, and whether to recover the entry. -/
structure Claim where
  number : Nat
  recovery : Bool

/-- The numbers of claims and the trace are for the reader of runs; the code has no use for them. -/
structure World where
  pending : EntryId → Option QueuedDelivery
  failed : EntryId → Option QueuedDelivery
  entriesInProgress : EntryId → Option Claim
  drainInProgress : JsString → Bool
  nextNumber : Nat
  trace : List Event

def World.empty : World where
  pending _ := none
  failed _ := none
  entriesInProgress _ := none
  drainInProgress _ := false
  nextNumber := 0
  trace := []

/-- The delivery that an action is part of. -/
def Action.attempt? : Action → Option Attempt
  | .normalize attempt _ | .abortSignal attempt | .prepare attempt _ | .beforeSend attempt _ | .send attempt _ _
  | .afterSend attempt _ | .record attempt _ _ | .reconcile attempt _ => some attempt
  | _ => none

/-- Ids are drawn fresh. -/
def World.Unused (w : World) (id : EntryId) : Prop :=
  w.pending id = none ∧ w.failed id = none ∧ w.entriesInProgress id = none ∧
    ∀ event ∈ w.trace, ∀ attempt, event.action.attempt? = some attempt → attempt.id ≠ id

/-- What is not decided by the world is up to hooks, adapters, platforms and clocks. -/
def Answers (w : World) : (action : Action) → Reply action → Prop
  | .enqueueDelivery _ _, reply => w.Unused reply.1 ∧ (reply.2 = none ∨ reply.2 = some w.nextNumber)
  | .claim id, reply => reply = if (w.entriesInProgress id).isSome then none else some w.nextNumber
  | .loadPendingDelivery id, reply => reply = w.pending id
  | .loadPendingDeliveries, reply => ∀ entry, entry ∈ reply ↔ w.pending entry.id = some entry
  | .update id _, reply | .moveToFailed id, reply => reply = (w.pending id).isSome
  | .enterDrain drainKey, reply => reply = !w.drainInProgress drainKey
  | _, _ => True

def World.change (w : World) : (action : Action) → Reply action → World
  | .enqueueDelivery params now, reply =>
    { w with
      pending := update w.pending reply.1 (some (params.toEntry reply.1 now))
      entriesInProgress := update w.entriesInProgress reply.1 (reply.2.map fun number => ⟨number, false⟩)
      nextNumber := w.nextNumber + 1 }
  | .claim id, reply =>
    match reply with
    | none => w
    | some number =>
      { w with
        entriesInProgress := update w.entriesInProgress id (some ⟨number, true⟩)
        nextNumber := w.nextNumber + 1 }
  | .release id, _ => { w with entriesInProgress := update w.entriesInProgress id none }
  | .update id u, _ => { w with pending := update w.pending id ((w.pending id).map u.apply) }
  | .ackDelivery id, _ => { w with pending := update w.pending id none }
  | .moveToFailed id, _ =>
    { w with
      pending := update w.pending id none
      failed := update w.failed id ((w.pending id).or (w.failed id)) }
  | .enterDrain drainKey, _ => { w with drainInProgress := update w.drainInProgress drainKey true }
  | .leaveDrain drainKey, _ => { w with drainInProgress := update w.drainInProgress drainKey false }
  | _, _ => w

/-- The queue is durable; claims and drains end with the process. -/
def queue : Machine Action Reply World where
  Answers := Answers
  after w action reply := { w.change action reply with trace := w.trace ++ [⟨action, reply⟩] }
  crash w := { w with entriesInProgress := fun _ => none, drainInProgress := fun _ => false }

end ClawWorks.Delivery
