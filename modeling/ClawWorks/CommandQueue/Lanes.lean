import Mathlib.Data.Rat.Defs
import Mathlib.Algebra.Order.Ring.Unbundled.Rat
import Mathlib.Data.Rat.Floor
import ClawWorks.Js.Object

/-!
# Command lanes

Each lane has a queue and a number of tasks that may run at a time. A pump starts tasks while there is room; a call
that finds the lane without a pump starts one, and so does a task that settles.

A pump tells an entry that waited long through its `onWait` callback, and a callback may call back into the queue. What
the process is in the middle of is therefore a stack of `Frame`s: API calls come in where the stack is empty or its top
is a callback, tasks settle where it is empty.
-/

namespace ClawWorks.CommandQueue

/-- A number of tasks, as `setCommandLaneConcurrency` takes it. -/
inductive JsCount
  | finite (q : ℚ)
  | infinite
  | negativeInfinite
  | notANumber
  deriving DecidableEq

/-- `maxConcurrent`. -/
inductive Concurrency
  | tasks (n : ℕ)
  | unbounded
  | notANumber
  deriving DecidableEq

/-- `size < maxConcurrent`. -/
def Concurrency.Above : Concurrency → ℕ → Prop
  | .tasks n, size => size < n
  | .unbounded, _ => True
  | .notANumber, _ => False

instance (size : ℕ) : ∀ c : Concurrency, Decidable (c.Above size)
  | .tasks n => inferInstanceAs (Decidable (size < n))
  | .unbounded => .isTrue trivial
  | .notANumber => .isFalse id

/-- `size >= maxConcurrent`. -/
def Concurrency.Reached : Concurrency → ℕ → Prop
  | .tasks n, size => n ≤ size
  | .unbounded, _ => False
  | .notANumber, _ => False

/-- `Math.max(minConcurrent, Math.floor(maxConcurrent))`. -/
def JsCount.atLeast (least : ℕ) : JsCount → Concurrency
  | .finite q => .tasks (max least ⌊q⌋.toNat)
  | .infinite => .unbounded
  | .negativeInfinite => .tasks least
  | .notANumber => .notANumber

/-- What a caller passes to `enqueueCommandInLane` beside the task. -/
inductive QueuePriority
  | foreground
  | normal
  | background

def resolveQueuePriority : QueuePriority → ℤ
  | .foreground => 1
  | .normal => 0
  | .background => -1

structure QueueEntry where
  enqueuedAt : ℤ
  sequence : ℕ
  priority : ℤ
  warnAfterMs : ℚ
  queuedAheadAtEnqueue : ℕ
  activeAheadAtEnqueue : ℕ
  /-- Whether there is an `onWait` callback. -/
  onWait : Bool
  deriving DecidableEq

structure LaneState where
  queue : List QueueEntry
  activeTaskIds : List ℕ
  maxConcurrent : Concurrency
  draining : Bool
  generation : ℕ

/-- What `getLaneState` creates. -/
def LaneState.created : LaneState :=
  ⟨[], [], .tasks 1, false, 0⟩

/-- What the process is in the middle of. -/
inductive Frame
  /-- The head of a pump's loop. -/
  | pump (lane : JsString)
  /-- The callback of an entry that a pump took. -/
  | waiting (lane : JsString) (entry : QueueEntry)
  /-- A lane that `resetAllLanes` has yet to drain. -/
  | drain (lane : JsString)

/-- A task that runs: its id, its lane and the generation it was started in. -/
structure RunningTask where
  taskId : ℕ
  lane : JsString
  taskGeneration : ℕ
  deriving DecidableEq

/-- How a task settles; a time limit that passes is an error as well. -/
inductive Outcome
  | result
  | error
  | timeout
  deriving DecidableEq

/-- What happens to entries, with what the lane held at that moment. -/
inductive Event
  | accepted (lane : JsString) (entry : QueueEntry)
  | taken (lane : JsString) (entry : QueueEntry) (left : List QueueEntry)
  /-- The task of the entry became active beside so many others. -/
  | started (lane : JsString) (entry : QueueEntry) (active : ℕ) (maxConcurrent : Concurrency)
  /-- `clearCommandLane` rejected the entry. -/
  | cleared (lane : JsString) (entry : QueueEntry)
  | settled (task : RunningTask) (outcome : Outcome)
  deriving DecidableEq

structure Process where
  lanes : JsMap JsString LaneState
  gatewayDraining : Bool
  nextTaskId : ℕ
  nextQueueSequence : ℕ
  stack : List Frame
  running : List RunningTask
  log : List Event

def Process.start : Process :=
  ⟨[], false, 1, 1, [], [], []⟩

/-- `lane.trim() || CommandLane.Main`. -/
def normalizeLane (lane : JsString) : JsString :=
  if Truthy (trim lane) then trim lane else js "main"

def isProbeLane (lane : JsString) : Bool :=
  (js "auth-probe:").isPrefixOf lane || (js "session:probe-").isPrefixOf lane

namespace Process

variable (p : Process)

def getLaneState (lane : JsString) : LaneState :=
  (p.lanes.get lane).getD .created

def setLane (lane : JsString) (state : LaneState) : Process :=
  { p with lanes := p.lanes.set lane state }

def push (frame : Frame) : Process :=
  { p with stack := frame :: p.stack }

def record (event : Event) : Process :=
  { p with log := p.log ++ [event] }

end Process

/-- Where an entry goes: behind all that precede it. -/
def insertAt (queue : List QueueEntry) (priority : ℤ) (sequence : ℕ) : ℕ :=
  queue.findIdx fun queued => queued.priority < priority || (queued.priority = priority && queued.sequence > sequence)

def enqueueLaneEntry (state : LaneState) (entry : QueueEntry) : LaneState × QueueEntry :=
  let index := insertAt state.queue entry.priority entry.sequence
  let entry := { entry with queuedAheadAtEnqueue := index, activeAheadAtEnqueue := state.activeTaskIds.length }
  ({ state with queue := state.queue.take index ++ entry :: state.queue.drop index }, entry)

variable (p : Process) (lane : JsString)

/-- `drainLane` up to its first look at the queue. -/
def drainLane : Process :=
  let state := p.getLaneState lane
  if state.draining then p else (p.setLane lane { state with draining := true }).push (.pump lane)

/-- The task of an entry becomes active, in the generation of the moment. -/
def startTask (entry : QueueEntry) : Process :=
  let state := p.getLaneState lane
  let started := p.record (.started lane entry state.activeTaskIds.length state.maxConcurrent)
  { started.setLane lane { state with activeTaskIds := state.activeTaskIds ++ [p.nextTaskId] } with
    nextTaskId := p.nextTaskId + 1
    running := p.running ++ [⟨p.nextTaskId, lane, state.generation⟩] }

/-- One turn of a pump's loop; `p` has the pump taken off the stack. -/
def pump (p : Process) (lane : JsString) (now : ℤ) : Process :=
  let state := p.getLaneState lane
  match state.queue with
  | [] => p.setLane lane { state with draining := false }
  | entry :: queue =>
    if state.maxConcurrent.Above state.activeTaskIds.length then
      let taken := (p.setLane lane { state with queue := queue }).record (.taken lane entry queue)
      if entry.warnAfterMs ≤ (now - entry.enqueuedAt : ℤ) ∧ entry.onWait then taken.push (.waiting lane entry)
      else (startTask taken lane entry).push (.pump lane)
    else p.setLane lane { state with draining := false }

/-! ## Calls -/

structure EnqueueOptions where
  warnAfterMs : Option ℚ
  priority : QueuePriority
  onWait : Bool

def enqueueCommandInLane (opts : EnqueueOptions) (now : ℤ) : Process :=
  if p.gatewayDraining then p
  else
    let cleaned := normalizeLane lane
    let inserted := enqueueLaneEntry (p.getLaneState cleaned)
      { enqueuedAt := now, sequence := p.nextQueueSequence, priority := resolveQueuePriority opts.priority,
        warnAfterMs := opts.warnAfterMs.getD 2000, queuedAheadAtEnqueue := 0, activeAheadAtEnqueue := 0,
        onWait := opts.onWait }
    let accepted := (p.setLane cleaned inserted.1).record (.accepted cleaned inserted.2)
    drainLane { accepted with nextQueueSequence := p.nextQueueSequence + 1 } cleaned

/-- `setCommandLaneConcurrency` up to the call of `drainLane`. -/
def withConcurrency (maxConcurrent : JsCount) : Process :=
  let cleaned := normalizeLane lane
  p.setLane cleaned { p.getLaneState cleaned with
    maxConcurrent := maxConcurrent.atLeast (if isProbeLane cleaned then 1 else 0) }

def setCommandLaneConcurrency (maxConcurrent : JsCount) : Process :=
  let changed := withConcurrency p lane maxConcurrent
  if (changed.getLaneState (normalizeLane lane)).maxConcurrent.Above 0 then drainLane changed (normalizeLane lane)
  else changed

def clearCommandLane : Process :=
  let cleaned := normalizeLane lane
  match p.lanes.get cleaned with
  | none => p
  | some state =>
    { p.setLane cleaned { state with queue := [] } with log := p.log ++ state.queue.map (Event.cleared cleaned) }

/-- A lane back at idle; what was queued stays. -/
def LaneState.reset (state : LaneState) : LaneState :=
  { state with generation := state.generation + 1, activeTaskIds := [], draining := false }

def resetCommandLane : Process :=
  let cleaned := normalizeLane lane
  match p.lanes.get cleaned with
  | none => p
  | some state =>
    let reset := p.setLane cleaned state.reset
    if state.queue.length > 0 then drainLane reset cleaned else reset

def resetAllLanes : Process :=
  { p with
    gatewayDraining := false
    lanes := p.lanes.map fun entry => (entry.1, entry.2.reset)
    stack := ((p.lanes.filter fun entry => entry.2.queue.length > 0).map fun entry => Frame.drain entry.1) ++ p.stack }

/-! ## Steps -/

inductive Call
  | enqueue (lane : JsString) (opts : EnqueueOptions) (now : ℤ)
  | setConcurrency (lane : JsString) (maxConcurrent : JsCount)
  | clear (lane : JsString)
  | reset (lane : JsString)
  | resetAll
  | markGatewayDraining

def Process.call : Call → Process
  | .enqueue lane opts now => enqueueCommandInLane p lane opts now
  | .setConcurrency lane maxConcurrent => setCommandLaneConcurrency p lane maxConcurrent
  | .clear lane => clearCommandLane p lane
  | .reset lane => resetCommandLane p lane
  | .resetAll => resetAllLanes p
  | .markGatewayDraining => { p with gatewayDraining := true }

def settle (task : RunningTask) (outcome : Outcome) : Process :=
  let settled := { p.record (.settled task outcome) with running := p.running.erase task }
  let state := p.getLaneState task.lane
  if task.taskGeneration = state.generation then
    (settled.setLane task.lane { state with activeTaskIds := state.activeTaskIds.erase task.taskId }).push
      (.pump task.lane)
  else settled

/-- What the top of the stack does next. A callback that returns or throws lets its pump go on. -/
def proceed (now : ℤ) : Process :=
  match p.stack with
  | [] => p
  | .pump lane :: rest => pump { p with stack := rest } lane now
  | .waiting lane entry :: rest => (startTask { p with stack := rest } lane entry).push (.pump lane)
  | .drain lane :: rest => drainLane { p with stack := rest } lane

inductive Input
  | call (c : Call)
  | settle (task : RunningTask) (outcome : Outcome)
  | proceed (now : ℤ)

/-- Whether code of a caller runs: nothing is on the stack, or a callback is on its top. -/
def Process.Callable : Prop :=
  match p.stack with
  | [] => True
  | .waiting _ _ :: _ => True
  | _ => False

instance (p : Process) : Decidable p.Callable := by
  unfold Process.Callable
  split <;> infer_instance

def step : Input → Process
  | .call c => if p.Callable then p.call c else p
  | .settle task outcome => if p.stack = [] ∧ task ∈ p.running then settle p task outcome else p
  | .proceed now => proceed p now

end ClawWorks.CommandQueue
