import ClawWorks.Workboard.Operations

/-!
# Notifications of the workboard

A subscription reads the notifications of its cards and a mark for each card that is stale, in the order of time, and
moves a cursor past what it returned.
-/

namespace ClawWorks.Workboard

open Mutation

/-- A notification as it is returned; the mark of a stale card is one that no card holds. -/
structure NotificationEvent where
  id : JsString
  kind : WorkboardNotificationKind
  createdAt : ℕ
  sequence : Option ℕ
  message : Bounded 240
  sessionKey : Option NonBlank
  runId : Option NonBlank

def WorkboardNotification.event (n : WorkboardNotification) : NotificationEvent :=
  ⟨n.id.text, n.kind, n.createdAt, n.sequence.map (·.val), n.message, n.sessionKey, n.runId⟩

def staleEvent (card : WorkboardCard) (stale : WorkboardStaleState) : NotificationEvent where
  id := js "stale:" ++ card.id.val.text ++ js ":" ++ decimal stale.detectedAt
  kind := .stale
  createdAt := stale.detectedAt
  sequence := some (stale.detectedAt * 1000)
  message := stale.reason
  sessionKey := cardSessionKey card
  runId := cardRunId card

def cardEvents (card : WorkboardCard) : List NotificationEvent :=
  card.metadata.notifications.map (·.event) ++ card.metadata.stale.toList.map (staleEvent card)

structure WorkboardNotificationSubscribeInput where
  boardId : Unknown
  cardId : Unknown
  sessionKey : Unknown
  runId : Unknown
  target : Unknown
  /-- An entry that names no kind is there as none. -/
  eventKinds : List (Option WorkboardNotificationKind)

def normalizeNotificationKinds (kinds : List WorkboardNotificationKind) :
    List (Option WorkboardNotificationKind) → Except JsString (List WorkboardNotificationKind)
  | [] => .ok kinds
  | none :: _ => .error (js "notification kind must be one of: completed, failed, stale.")
  | some kind :: entries => normalizeNotificationKinds (if kind ∈ kinds then kinds else kinds ++ [kind]) entries

def normalizeNotificationSubscription [LowerCase] (input : WorkboardNotificationSubscribeInput) (id : NonBlank)
    (now : ℕ) : Except JsString WorkboardNotificationSubscription := do
  let boardId ← normalizeBoardId input.boardId none
  let cardId ← normalizeBoundedString input.cardId none (js "card id")
  let sessionKey ← normalizeBoundedString input.sessionKey none (js "session key")
  let runId ← normalizeBoundedString input.runId none (js "run id")
  let target ← normalizeBoundedString input.target none (js "notification target")
  if cardId.isNone && sessionKey.isNone && runId.isNone && target.isNone then
    throw (js "notification subscription needs cardId, sessionKey, runId, or target.")
  let eventKinds ← normalizeNotificationKinds [] input.eventKinds
  return { id, boardId := boardId.getD .default, cardId, sessionKey, runId, target, eventKinds
           lastEventAt := none, lastEventId := none, lastEventSequence := none, createdAt := now, updatedAt := now }

/-- Where a list of texts ends first, or has the lesser unit. -/
def textLe : JsString → JsString → Bool
  | [], _ => true
  | _ :: _, [] => false
  | u :: s, v :: t => u < v || (u = v && textLe s t)

def passed (subscription : WorkboardNotificationSubscription) (event : NotificationEvent) : Bool :=
  let sameId := textLe event.id (subscription.lastEventId.getD [])
  match subscription.lastEventSequence.filter (· ≠ 0), event.sequence with
  | some lastEventSequence, some sequence =>
    sequence < lastEventSequence || (sequence = lastEventSequence && sameId)
  | _, _ =>
    (subscription.lastEventAt.filter (· ≠ 0)).any fun lastEventAt =>
      event.createdAt < lastEventAt || (event.createdAt = lastEventAt && sameId)

/-- The event is of a session, a run and a kind that the subscription is about. -/
def wanted (subscription : WorkboardNotificationSubscription) (card : WorkboardCard) (event : NotificationEvent) :
    Bool :=
  subscription.sessionKey.all (fun key => (event.sessionKey.or (cardSessionKey card)) = some key.val) &&
    subscription.runId.all (fun runId => (event.runId.or (cardRunId card)) = some runId.val) &&
    (subscription.eventKinds.isEmpty || event.kind ∈ subscription.eventKinds)

variable [Platform]

/-- By time, then by sequence, those without one last, then by id. -/
def compareNotifications (a b : NotificationEvent) : Ordering :=
  (Ord.compare a.createdAt b.createdAt).then
    (match a.sequence, b.sequence with
      | some m, some n => (Ord.compare m n).then (localeCompare a.id b.id)
      | some _, none => .lt
      | none, some _ => .gt
      | none, none => localeCompare a.id b.id)

def eventLimit (limit : Unknown) : ℕ :=
  match limit with
  | .number q => max 1 (min 200 (truncated q))
  | _ => 50

def subscriptionNotFound (id : JsString) : JsString :=
  js "notification subscription not found: " ++ id

def subscribedCards (w : World) (subscription : WorkboardNotificationSubscription) (cardId : Option (Bounded 120)) :
    List WorkboardCard :=
  match subscription.cardId.or cardId with
  | some cardId => (w.list none).filter (·.id.val.text = cardId.val.text)
  | none => w.list (some subscription.boardId)

def collectNotificationEvents (w : World) (subscription : WorkboardNotificationSubscription)
    (cardId : Option (Bounded 120)) (limit : ℕ) : List NotificationEvent :=
  let events := (subscribedCards w subscription cardId).flatMap fun card =>
    (cardEvents card).filter fun event => wanted subscription card event && !passed subscription event
  (events.insertionSort fun a b => compareNotifications a b ≠ .gt).take limit

def World.subscription (w : World) (id : JsString) : Option WorkboardNotificationSubscription :=
  w.subscriptions.rows.find? (·.id.text = id)

def subscribeNotifications (input : WorkboardNotificationSubscribeInput) :
    Step WorkboardNotificationSubscription := do
  let now ← dateNow
  let id ← randomUUID
  let subscription ← normalizeNotificationSubscription input id.val now.val
  change fun w => { w with subscriptions := w.subscriptions.put subscription }
  return subscription

def deleteNotificationSubscription (id : JsString) : Step Bool := do
  let subscription ← view fun w => w.subscription (trim id)
  change fun w => { w with subscriptions := w.subscriptions.deleteWhere (·.id.text = trim id) }
  return subscription.isSome

structure WorkboardNotificationEventsInput where
  subscriptionId : Unknown
  cardId : Unknown
  limit : Unknown

def advanced (subscription : WorkboardNotificationSubscription) (last : NotificationEvent) (now : ℕ) :
    WorkboardNotificationSubscription :=
  { subscription with
    lastEventAt := some last.createdAt
    lastEventId := some last.id
    lastEventSequence := last.sequence
    updatedAt := now }

def advanceNotificationEvents (input : WorkboardNotificationEventsInput) : Step (List NotificationEvent) := do
  let subscriptionId : Option (Bounded 120) ← normalizeBoundedString input.subscriptionId none (js "subscription id")
  match subscriptionId with
  | none => fail (js "subscriptionId is required to advance notification events.")
  | some subscriptionId => do
    let cardId ← lift (normalizeBoundedString input.cardId none (js "card id"))
    let subscription ← view fun w => w.subscription subscriptionId.val.text
    match subscription with
    | none => fail (subscriptionNotFound subscriptionId.val.text)
    | some subscription => do
      let events ← view fun w => collectNotificationEvents w subscription cardId (eventLimit input.limit)
      match events.getLast? with
      | none => return []
      | some last => do
        let now ← dateNow
        change fun w => { w with subscriptions := w.subscriptions.put (advanced subscription last now.val) }
        return events

end ClawWorks.Workboard
