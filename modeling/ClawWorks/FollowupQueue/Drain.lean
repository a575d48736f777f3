import ClawWorks.FollowupQueue.Queue

/-!
# Draining the queue

The drain is cut at its awaits: a `DrainPoint` is what it waits for, with the local variables it goes on with, and
`resume` runs it to its next await. Messages are enqueued between.
-/

namespace ClawWorks.FollowupQueue

inductive DrainPoint where
  | idle
  /-- Before the condition of the loop. -/
  | top
  /-- `dropAbortedFollowups` runs an aborted message. -/
  | abortedRun (afterDebounce : Bool) (index : Nat) (item : FollowupRun) (dropped : Nat)
  /-- `dropAbortedFollowups` has returned. -/
  | scanned (afterDebounce : Bool) (dropped : Nat)
  | debounce
  | elidedSummary (entry : Nat) (elidedCount : Nat) (counted : List FollowupRun) (retainedSources : List FollowupRun)
  /-- `drainElidedOverflowSummary` has returned false. -/
  | elisionsSkipped
  | groupSummary (sources : List FollowupRun)
  /-- `drainOverflowSummaryGroup` has returned. -/
  | overflowed (drained : Bool)
  | itemRun (item : FollowupRun)
  /-- `drainCollectQueueStep` has returned "skipped". -/
  | collectSkipped
  | batchRun (groupItems : List FollowupRun) (contextGroups : List (List FollowupRun))
  /-- There was no message to run. -/
  | empty

structure System where
  queue : FollowupQueueState
  /-- Whether the queue is one of `FOLLOWUP_QUEUES`. -/
  registered : Bool
  point : DrainPoint := .idle
  forceIndividualCollect : Bool := false

/-! ## Summaries -/

variable (queue : FollowupQueueState)

def clearFollowupQueueSummaryState : FollowupQueueState :=
  { queue with
    summaryElisions := []
    evictedSummaryCount := 0
    droppedCount := 0
    summaryLines := []
    summarySources := []
    ledger := { queue.ledger with dropped := queue.ledger.dropped ++ queue.pending } }

/-- Evicted summaries are counted no longer. -/
def writeOffEvicted : FollowupQueueState :=
  { queue with
    evictedSummaryCount := 0
    droppedCount := queue.droppedCount - queue.evictedSummaryCount }

/-- Whether a summary of so many messages has a text. -/
def hasSummaryPrompt (droppedCount : Nat) : Bool :=
  decide (queue.dropPolicy = .summarize ∧ 0 < droppedCount)

/-- The sources in front that have one delivery context. -/
def resolveOverflowSummarySourceGroup : List FollowupRun :=
  match queue.summarySources with
  | [] => []
  | source :: sources =>
    source :: sources.takeWhile fun candidate => decide (candidate.deliveryContextKey = source.deliveryContextKey)

/-- Those of them in the context of the only entry of elided summaries. -/
def retainedSources : List FollowupRun :=
  match queue.summaryElisions with
  | [entry] =>
    (resolveOverflowSummarySourceGroup queue).filter fun source =>
      decide (source.deliveryContextKey = entry.contextKey)
  | _ => []

/-- The first entry of a kind counts so many messages less; it goes where it counts none. -/
def uncount (kind : SummaryElision → Bool) (fewer : Nat) (messages : List FollowupRun) :
    List SummaryElision → List SummaryElision
  | [] => []
  | entry :: entries =>
    if kind entry = true then
      if entry.count - fewer = 0 then entries
      else { entry with count := entry.count - fewer, counted := messages.foldl List.erase entry.counted } :: entries
    else entry :: uncount kind fewer messages entries

/-- `entry.sourceRefs.has(source)`. -/
def SummaryElision.refersTo (source : FollowupRun) (entry : SummaryElision) : Bool :=
  decide (source ∈ entry.sourceRefs)

def consumeSource (state : FollowupQueueState × Nat) (source : FollowupRun) : FollowupQueueState × Nat :=
  let queue := state.1
  if source ∈ queue.summarySources then
    ({ queue with
        summarySources := queue.summarySources.erase source
        summaryLines := queue.summaryLines.eraseIdx (queue.summarySources.idxOf source) }, state.2 + 1)
  else
    match queue.summaryElisions.find? (·.refersTo source) with
    | some _ =>
      ({ queue with summaryElisions := uncount (·.refersTo source) 1 [source] queue.summaryElisions }, state.2 + 1)
    | none => state

def consumeQueueSummaryDelivery (droppedCount : Nat) (sources : List FollowupRun) : FollowupQueueState :=
  let consumed := sources.foldl consumeSource (queue, if sources = [] then droppedCount else 0)
  { consumed.1 with droppedCount := consumed.1.droppedCount - consumed.2 }

/-- The count of an elided summary that was delivered is taken off its entry, if that is still there. -/
def consumeElision (object elidedCount : Nat) (counted : List FollowupRun) : FollowupQueueState :=
  match queue.summaryElisions.find? (·.object == object) with
  | none => queue
  | some entry =>
    { queue with
      droppedCount := queue.droppedCount - min elidedCount entry.count
      summaryElisions := uncount (·.object == object) elidedCount counted queue.summaryElisions }

def releaseQueueSummaryDeliveryForRetry (sources : List FollowupRun) : FollowupQueueState :=
  { queue with
    summarySources := sources.foldl (fun (summarySources : List FollowupRun) source =>
      if source ∈ summarySources then
        summarySources.set (summarySources.idxOf source) (createOverflowSummaryRetrySource source)
      else summarySources) queue.summarySources }

def hasCrossChannelItems (items : List FollowupRun) : Bool :=
  (items.any fun item => item.crossChannelKey.cross) ||
    decide (1 < ((items.filterMap fun item => truthy? item.crossChannelKey.key).dedup).length)

def splitCollectItemsByDeliveryContext (items : List FollowupRun) : List (List FollowupRun) :=
  items.splitBy fun item next => decide (item.deliveryContextKey = next.deliveryContextKey)

/-! ## The loop -/

namespace System

/-- The end of a drain: it starts again where there is work, else the queue is given up. -/
def finish (s : System) : System :=
  if s.queue.items = [] ∧ s.queue.droppedCount = 0 then { s with registered := false, point := .idle }
  else { s with point := .top, forceIndividualCollect := false }

/-- `dropAbortedFollowups` from the message before `index` on. Reading past the end throws. -/
def scanAborted (aborted : FollowupRun → Bool) (s : System) (afterDebounce : Bool) (dropped : Nat) : Nat → System
  | 0 => { s with point := .scanned afterDebounce dropped }
  | index + 1 =>
    match s.queue.items[index]? with
    | none => s.finish
    | some item =>
      if aborted item = true then { s with point := .abortedRun afterDebounce index item dropped }
      else scanAborted aborted s afterDebounce dropped index

variable (aborted : FollowupRun → Bool) (s : System)

def loopTop : System :=
  if s.queue.items = [] ∧ s.queue.droppedCount = 0 then s.finish
  else s.scanAborted aborted false 0 s.queue.items.length

/-- `drainNextQueueItem`. -/
def drainNext : System :=
  match s.queue.items with
  | [] => { s with point := .empty }
  | next :: _ => { s with point := .itemRun next }

/-- Whether messages are run one by one although in collect mode. -/
def isCrossChannel : Bool :=
  hasCrossChannelItems s.queue.items || s.queue.items.any (·.runtimeOnlyMetadata)

/-- Messages are collected again once those left are of one channel. -/
def stillIndividual : Bool :=
  s.forceIndividualCollect && !(s.forceIndividualCollect && !s.isCrossChannel && decide (1 < s.queue.items.length))

/-- The part of the loop after the overflow summary. -/
def collect (s : System) : System :=
  if s.queue.mode = .collect then
    if s.stillIndividual = false ∧ s.isCrossChannel = false then
      { s with forceIndividualCollect := s.stillIndividual, point := .collectSkipped }
    else drainNext { s with forceIndividualCollect := s.stillIndividual || s.isCrossChannel }
  else s.drainNext

def runBatches : List (List FollowupRun) → System
  | [] => s.loopTop aborted
  | groupItems :: contextGroups => { s with point := .batchRun groupItems contextGroups }

/-- `drainOverflowSummaryGroup` to its first await. -/
def drainOverflow : System :=
  if 0 < s.queue.evictedSummaryCount then
    { s with queue := writeOffEvicted s.queue, point := .overflowed true }
  else
    match s.queue.summaryElisions with
    | [] => { s with point := .elisionsSkipped }
    | entry :: _ =>
      if hasSummaryPrompt s.queue (entry.count + (retainedSources s.queue).length) = true then
        { s with point := .elidedSummary entry.object entry.count entry.counted (retainedSources s.queue) }
      else { s with point := .elisionsSkipped }

/-- The rest of `drainOverflowSummaryGroup` to its next await. -/
def drainSourceGroup : System :=
  if hasSummaryPrompt s.queue (resolveOverflowSummarySourceGroup s.queue).length = true then
    { s with point := .groupSummary (resolveOverflowSummarySourceGroup s.queue) }
  else { s with point := .overflowed false }

def afterScan (afterDebounce : Bool) (dropped : Nat) : System :=
  let s :=
    if 0 < dropped ∧ s.queue.items = [] then { s with queue := clearFollowupQueueSummaryState s.queue } else s
  if s.queue.items = [] ∧ s.queue.droppedCount = 0 then s.finish
  else if afterDebounce = false then { s with point := .debounce }
  else if 0 < s.queue.droppedCount then s.drainOverflow
  else s.collect

/-- The queue once what the drain awaits has succeeded. -/
def completed (queue : FollowupQueueState) : DrainPoint → FollowupQueueState
  | .abortedRun _ index item _ =>
    { queue with
      items := queue.items.eraseIdx index
      ledger := { queue.ledger with aborted := queue.ledger.aborted ++ [item] } }
  | .elidedSummary entry elidedCount counted retainedSources =>
    let queue :=
      consumeElision (consumeQueueSummaryDelivery queue retainedSources.length retainedSources) entry elidedCount
        counted
    { queue with
      ledger := { queue.ledger with summarized := queue.ledger.summarized ++ (counted ++ retainedSources) } }
  | .groupSummary sources =>
    let queue := consumeQueueSummaryDelivery queue sources.length sources
    { queue with ledger := { queue.ledger with summarized := queue.ledger.summarized ++ sources } }
  | .itemRun item =>
    { queue with
      items := removeQueuedItemsByRef queue.items [item]
      ledger := { queue.ledger with delivered := queue.ledger.delivered ++ [[item]] } }
  | .batchRun groupItems _ =>
    { queue with
      items := removeQueuedItemsByRef queue.items groupItems
      ledger := { queue.ledger with delivered := queue.ledger.delivered ++ [groupItems] } }
  | _ => queue

/-- Where the drain goes on, the queue being completed. -/
def proceed : System :=
  match s.point with
  | .idle => s
  | .top => s.loopTop aborted
  | .abortedRun afterDebounce index _ dropped => s.scanAborted aborted afterDebounce (dropped + 1) index
  | .scanned afterDebounce dropped => s.afterScan afterDebounce dropped
  | .debounce => s.scanAborted aborted true 0 s.queue.items.length
  | .elidedSummary _ _ _ _ => { s with point := .overflowed true }
  | .elisionsSkipped => s.drainSourceGroup
  | .groupSummary _ => { s with point := .overflowed true }
  | .overflowed true => s.loopTop aborted
  | .overflowed false => s.collect
  | .itemRun _ => { s with point := .top }
  | .collectSkipped =>
    match splitCollectItemsByDeliveryContext s.queue.items with
    | [] => s.finish
    | groups => s.runBatches aborted groups
  | .batchRun _ contextGroups => s.runBatches aborted contextGroups
  | .empty => s.finish

/-- What is awaited resolves; the abort signals are as given until the next await. -/
def resume : System :=
  proceed aborted { s with queue := completed s.queue s.point }

/-- What is awaited throws, perhaps a `FollowupRunDeferredError`. -/
def fail (deferred : Bool) (s : System) : System :=
  match s.point with
  | .abortedRun _ _ _ _ | .itemRun _ | .batchRun _ _ => s.finish
  | .elidedSummary _ _ _ sources | .groupSummary sources =>
    if deferred = true then s.finish
    else finish { s with queue := releaseQueueSummaryDeliveryForRetry s.queue sources }
  | _ => s

end System

inductive Event where
  | enqueue (call : EnqueueCall)
  /-- `scheduleFollowupDrain`. -/
  | schedule
  | resume (aborted : FollowupRun → Bool)
  | fail (deferred : Bool)

namespace System

def step (s : System) : Event → System
  | .enqueue call =>
    if call.aborted = true then s
    else { s with queue := enqueueFollowupRun s.registered s.queue call, registered := true }
  | .schedule =>
    match s.point with
    | .idle => if s.registered = true then { s with point := .top, forceIndividualCollect := false } else s
    | _ => s
  | .resume aborted => s.resume aborted
  | .fail deferred => s.fail deferred

def run (s : System) (events : List Event) : System :=
  events.foldl step s

/-- Before the first message. -/
def initial : System where
  queue := { mode := .steer, cap := DEFAULT_QUEUE_CAP, dropPolicy := DEFAULT_QUEUE_DROP }
  registered := false

end System

end ClawWorks.FollowupQueue
