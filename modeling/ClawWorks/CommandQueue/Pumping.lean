import ClawWorks.CommandQueue.Lanes
import ClawWorks.Lib.Runs

/-!
# One lane of the process

A lane is seen by itself: its state, the frames of the stack that are about it and what happened to its entries. Every
step of the process is a step of each lane, or nothing that the lane sees (`step_lane`), so that what is proved about
the steps of a lane (`Lane.Inv.step`) holds of every lane of every run.
-/

namespace ClawWorks.CommandQueue

open List

/-- `size <= maxConcurrent`. -/
def Concurrency.Fits : Concurrency → ℕ → Prop
  | .tasks n, size => size ≤ n
  | .unbounded, _ => True
  | .notANumber, _ => False

open Concurrency

instance (size : ℕ) : ∀ c : Concurrency, Decidable (c.Fits size)
  | .tasks n => inferInstanceAs (Decidable (size ≤ n))
  | .unbounded => .isTrue trivial
  | .notANumber => .isFalse id

variable {c : Concurrency}

theorem Concurrency.above_iff_fits {size : ℕ} : c.Above size ↔ c.Fits (size + 1) := by
  cases c with
  | tasks n => exact Nat.lt_iff_add_one_le
  | unbounded | notANumber => exact Iff.rfl

theorem Concurrency.Fits.mono {m n : ℕ} (h : c.Fits n) (hle : m ≤ n) : c.Fits m := by
  cases c with
  | tasks k => exact le_trans hle h
  | unbounded => trivial
  | notANumber => exact h

theorem Concurrency.reached_of_not_above {size : ℕ} (hnumber : c ≠ .notANumber)
    (h : ¬ c.Above size) : c.Reached size := by
  cases c with
  | tasks n => exact not_lt.mp h
  | unbounded => exact absurd trivial h
  | notANumber => exact absurd rfl hnumber

theorem Concurrency.Reached.mono {m n : ℕ} (h : c.Reached m) (hle : m ≤ n) : c.Reached n := by
  cases c with
  | tasks k => exact le_trans h hle
  | unbounded => exact h
  | notANumber => exact h

/-- Higher priority, or the same and earlier. -/
def QueueEntry.Precedes (a b : QueueEntry) : Prop :=
  b.priority < a.priority ∨ (a.priority = b.priority ∧ a.sequence < b.sequence)

theorem pairwise_insert {queue : List QueueEntry} {entry : QueueEntry} (h : queue.Pairwise QueueEntry.Precedes)
    (hlater : ∀ q ∈ queue, q.sequence < entry.sequence) :
    (queue.take (insertAt queue entry.priority entry.sequence) ++
      entry :: queue.drop (insertAt queue entry.priority entry.sequence)).Pairwise QueueEntry.Precedes := by
  induction queue with
  | nil => simp [insertAt]
  | cons q queue ih =>
    obtain ⟨hq, hqueue⟩ := pairwise_cons.mp h
    have hearlier : q.sequence < entry.sequence := hlater q mem_cons_self
    unfold insertAt at ih ⊢
    rw [findIdx_cons]
    by_cases hprio : q.priority < entry.priority
    · -- everything in the queue is of a lower priority
      have hall : ∀ r ∈ q :: queue, entry.Precedes r := by
        intro r hr
        rcases mem_cons.mp hr with rfl | hr
        · exact .inl hprio
        · rcases hq r hr with hlt | ⟨heq, -⟩
          · exact .inl (lt_trans hlt hprio)
          · exact .inl (heq ▸ hprio)
      simp only [hprio, decide_true, Bool.true_or, cond_true, take_zero, nil_append, drop_zero]
      exact pairwise_cons.mpr ⟨hall, h⟩
    · have hstop : (decide (q.priority < entry.priority) ||
          decide (q.priority = entry.priority) && decide (q.sequence > entry.sequence)) = false := by
        have : ¬ q.sequence > entry.sequence := by omega
        simp [hprio, this]
      have hbefore : q.Precedes entry := by
        rcases lt_or_eq_of_le (not_lt.mp hprio) with hlt | heq
        · exact .inl hlt
        · exact .inr ⟨heq.symm, hearlier⟩
      rw [hstop, cond_false, take_succ_cons, drop_succ_cons, cons_append, pairwise_cons]
      refine ⟨fun r hr => ?_, ih hqueue fun r hr => hlater r (mem_cons_of_mem _ hr)⟩
      rcases mem_append.mp hr with hr | hr
      · exact hq r (mem_of_mem_take hr)
      · rcases mem_cons.mp hr with rfl | hr
        · exact hbefore
        · exact hq r (mem_of_mem_drop hr)

theorem count_insert (queue : List QueueEntry) (entry : QueueEntry) (index n : ℕ) :
    ((queue.take index ++ entry :: queue.drop index).map (·.sequence)).count n =
      (queue.map (·.sequence)).count n + [entry.sequence].count n := by
  have hsplit : (queue.map (·.sequence)).count n =
      ((queue.take index).map (·.sequence)).count n + ((queue.drop index).map (·.sequence)).count n := by
    rw [← count_append, ← map_append, take_append_drop]
  rw [hsplit, map_append, map_cons, count_append, count_cons, count_singleton]
  omega

/-! ## A lane by itself -/

inductive LaneFrame
  | pump
  | waiting (entry : QueueEntry)
  | drain

open LaneFrame

def Frame.lane : Frame → JsString
  | .pump lane => lane
  | .waiting lane _ => lane
  | .drain lane => lane

def Frame.ofLane : Frame → LaneFrame
  | .pump _ => .pump
  | .waiting _ entry => .waiting entry
  | .drain _ => .drain

def Event.lane? : Event → Option JsString
  | .accepted lane _ => some lane
  | .taken lane _ _ => some lane
  | .started lane _ _ _ => some lane
  | .cleared lane _ => some lane
  | .settled _ _ => none

open Event

structure Lane where
  state : LaneState
  frames : List LaneFrame
  log : List Event
  nextSequence : ℕ

open Lane

def framesOf (stack : List Frame) (lane : JsString) : List LaneFrame :=
  (stack.filter (·.lane = lane)).map Frame.ofLane

variable (log : List Event)

/-- What happened to the entries of a lane. -/
def logOf (lane : JsString) : List Event :=
  log.filter (·.lane? = some lane)

def Process.lane (p : Process) (lane : JsString) : Lane :=
  ⟨p.getLaneState lane, framesOf p.stack lane, logOf p.log lane, p.nextQueueSequence⟩

def LaneFrame.entry? : LaneFrame → Option QueueEntry
  | .waiting entry => some entry
  | _ => none

/-- The entries that a pump took and that are in their callbacks. -/
def Lane.waiting (v : Lane) : List QueueEntry :=
  v.frames.filterMap LaneFrame.entry?

def acceptedIn : List ℕ :=
  log.filterMap fun | .accepted _ entry => some entry.sequence | _ => none

def startedIn : List ℕ :=
  log.filterMap fun | .started _ entry _ _ => some entry.sequence | _ => none

def clearedIn : List ℕ :=
  log.filterMap fun | .cleared _ entry => some entry.sequence | _ => none

namespace Lane

variable (v : Lane)

def drain : Lane :=
  if v.state.draining then v else { v with state := { v.state with draining := true }, frames := .pump :: v.frames }

variable (lane : JsString) (entry : QueueEntry)

def enqueue : Lane :=
  { v with
    state := (enqueueLaneEntry v.state entry).1
    log := v.log ++ [.accepted lane (enqueueLaneEntry v.state entry).2]
    nextSequence := v.nextSequence + 1 }

def withConcurrency (c : Concurrency) : Lane :=
  { v with state := { v.state with maxConcurrent := c } }

def clear : Lane :=
  { v with state := { v.state with queue := [] }, log := v.log ++ v.state.queue.map (Event.cleared lane) }

def take (queue : List QueueEntry) : Lane :=
  { v with state := { v.state with queue := queue }, log := v.log ++ [.taken lane entry queue] }

def start (taskId : ℕ) : Lane :=
  { v with
    state := { v.state with activeTaskIds := v.state.activeTaskIds ++ [taskId] }
    log := v.log ++ [.started lane entry v.state.activeTaskIds.length v.state.maxConcurrent] }

/-- What a step of the process does to a lane, as long as no pump takes an entry for which active tasks and waiting
entries leave no room, and no call takes the room of a waiting entry away. -/
inductive Step (v : Lane) : Lane → Prop
  | rest (n : ℕ) (h : v.nextSequence ≤ n) : Step v { v with nextSequence := n }
  | enqueue (lane : JsString) (entry : QueueEntry) (h : entry.sequence = v.nextSequence) :
      Step v (v.enqueue lane entry).drain
  | concurrency (c : Concurrency) (hnumber : c ≠ .notANumber)
      (hroom : v.waiting ≠ [] → c.Fits (v.state.activeTaskIds.length + v.waiting.length)) :
      Step v (if c.Above 0 then (v.withConcurrency c).drain else v.withConcurrency c)
  | clear (lane : JsString) : Step v (v.clear lane)
  | reset : Step v (if v.state.queue.length > 0 then { v with state := v.state.reset }.drain
      else { v with state := v.state.reset })
  | resetAll (drains : List LaneFrame) (hdrains : ∀ d ∈ drains, d = .drain) (h : v.state.queue ≠ [] → drains ≠ []) :
      Step v { v with state := v.state.reset, frames := drains ++ v.frames }
  | settle (taskId : ℕ) (h : v.frames = []) : Step v
  { v with
        state := { v.state with activeTaskIds := v.state.activeTaskIds.erase taskId }, frames := [.pump] }
  | wait (lane : JsString) (entry : QueueEntry) (queue : List QueueEntry) (frames : List LaneFrame)
      (hframes : v.frames = .pump :: frames) (hqueue : v.state.queue = entry :: queue)
      (hroom : v.state.maxConcurrent.Fits (v.state.activeTaskIds.length + v.waiting.length + 1)) :
      Step v { v.take lane entry queue with frames := .waiting entry :: frames }
  | takeStart (lane : JsString) (entry : QueueEntry) (queue : List QueueEntry) (taskId : ℕ) (frames : List LaneFrame)
      (hframes : v.frames = .pump :: frames) (hqueue : v.state.queue = entry :: queue)
      (hroom : v.state.maxConcurrent.Fits (v.state.activeTaskIds.length + v.waiting.length + 1)) :
      Step v ((v.take lane entry queue).start lane entry taskId)
  | start (lane : JsString) (entry : QueueEntry) (taskId : ℕ) (frames : List LaneFrame)
      (hframes : v.frames = .waiting entry :: frames) :
      Step v { v.start lane entry taskId with frames := .pump :: frames }
  | finish (frames : List LaneFrame) (hframes : v.frames = .pump :: frames)
      (h : v.state.queue = [] ∨ ¬ v.state.maxConcurrent.Above v.state.activeTaskIds.length) :
      Step v { v with state := { v.state with draining := false }, frames := frames }
  | resume (frames : List LaneFrame) (hframes : v.frames = .drain :: frames) :
      Step v { v with frames := frames }.drain

/-! ## What every step of a lane keeps -/

/-- Each entry accepted is in one place, and in each place once. -/
structure Accounted (queue : List QueueEntry) (waiting : List QueueEntry) (log : List Event) (next : ℕ) : Prop where
  counted : ∀ n, (acceptedIn log).count n = (queue.map (·.sequence)).count n + (waiting.map (·.sequence)).count n +
    (startedIn log).count n + (clearedIn log).count n
  once : (acceptedIn log).Nodup
  known : ∀ n ∈ acceptedIn log, n < next

structure Inv (v : Lane) : Prop where
  number : v.state.maxConcurrent ≠ .notANumber
  room : v.waiting ≠ [] → v.state.maxConcurrent.Fits (v.state.activeTaskIds.length + v.waiting.length)
  drained : v.state.queue ≠ [] → v.state.maxConcurrent.Reached v.state.activeTaskIds.length ∨ v.frames ≠ []
  flagged : v.state.draining = true → ∃ f ∈ v.frames, f ≠ .drain
  sorted : v.state.queue.Pairwise QueueEntry.Precedes
  accounted : Accounted v.state.queue v.waiting v.log v.nextSequence
  roomy : ∀ lane entry active c, Event.started lane entry active c ∈ v.log → c.Above active
  first : ∀ lane entry left, Event.taken lane entry left ∈ v.log → ∀ q ∈ left, entry.Precedes q

variable {v : Lane}

@[simp] theorem waiting_drain (v : Lane) : v.drain.waiting = v.waiting := by
  unfold drain
  split <;> rfl

theorem drain_state (v : Lane) : v.drain.state = { v.state with draining := true } := by
  unfold drain
  split
  · rename_i h
    rw [← h]
  · rfl

theorem drain_frames (h : v.state.draining → ∃ f ∈ v.frames, f ≠ .drain) : ∃ f ∈ v.drain.frames, f ≠ .drain := by
  unfold drain
  split
  · rename_i hd
    exact h hd
  · exact ⟨.pump, mem_cons_self, by simp⟩

theorem drain_log (v : Lane) : v.drain.log = v.log ∧ v.drain.nextSequence = v.nextSequence := by
  unfold drain
  split <;> exact ⟨rfl, rfl⟩

theorem Inv.of_drain (number : v.state.maxConcurrent ≠ .notANumber)
    (room : v.waiting ≠ [] → v.state.maxConcurrent.Fits (v.state.activeTaskIds.length + v.waiting.length))
    (flagged : v.state.draining → ∃ f ∈ v.frames, f ≠ .drain) (sorted : v.state.queue.Pairwise QueueEntry.Precedes)
    (accounted : Accounted v.state.queue v.waiting v.log v.nextSequence)
    (roomy : ∀ lane entry active c, started lane entry active c ∈ v.log → c.Above active)
    (first : ∀ lane entry left, taken lane entry left ∈ v.log → ∀ q ∈ left, entry.Precedes q) :
    v.drain.Inv := by
  obtain ⟨hlog, hnext⟩ := drain_log v
  obtain ⟨f, hf, hne⟩ := drain_frames flagged
  refine ⟨?_, ?_, fun _ => .inr (ne_nil_of_mem hf), fun _ => ⟨f, hf, hne⟩, ?_, ?_, ?_, ?_⟩
  · rw [drain_state]; exact number
  · rw [drain_state, waiting_drain]; exact room
  · rw [drain_state]; exact sorted
  · rw [drain_state, waiting_drain, hlog, hnext]; exact accounted
  · rw [hlog]; exact roomy
  · rw [hlog]; exact first

theorem Accounted.lt_of_queued {queue waiting : List QueueEntry} {log : List Event} {next : ℕ}
    (h : Accounted queue waiting log next) {q : QueueEntry} (hq : q ∈ queue) : q.sequence < next := by
  refine h.known _ (count_pos_iff.mp ?_)
  have hpos : 0 < (queue.map (·.sequence)).count q.sequence := count_pos_iff.mpr (mem_map_of_mem hq)
  have := h.counted q.sequence
  omega

theorem Accounted.not_accepted {queue waiting : List QueueEntry} {log : List Event} {next : ℕ}
    (h : Accounted queue waiting log next) : next ∉ acceptedIn log :=
  fun hmem => lt_irrefl _ (h.known next hmem)

variable {entry : QueueEntry}

theorem Inv.enqueue (h : v.Inv) (lane : JsString) (hseq : entry.sequence = v.nextSequence) :
    (v.enqueue lane entry).drain.Inv := by
  have hlater : ∀ q ∈ v.state.queue, q.sequence < entry.sequence := fun q hq => hseq ▸ h.accounted.lt_of_queued hq
  have hacc : acceptedIn (v.enqueue lane entry).log = acceptedIn v.log ++ [entry.sequence] := by
    simp [Lane.enqueue, acceptedIn, enqueueLaneEntry, filterMap_append]
  have hstart : startedIn (v.enqueue lane entry).log = startedIn v.log := by
    simp [Lane.enqueue, startedIn, filterMap_append]
  have hclear : clearedIn (v.enqueue lane entry).log = clearedIn v.log := by
    simp [Lane.enqueue, clearedIn, filterMap_append]
  refine Inv.of_drain h.number h.room h.flagged ?_ ⟨fun n => ?_, ?_, ?_⟩ ?_ ?_
  · exact @pairwise_insert _ (enqueueLaneEntry v.state entry).2 h.sorted hlater
  · have hold := h.accounted.counted n
    rw [hacc, hstart, hclear, count_append]
    simp only [Lane.enqueue, enqueueLaneEntry, Lane.waiting] at hold ⊢
    rw [count_insert]
    dsimp only
    omega
  · rw [hacc, nodup_append]
    refine ⟨h.accounted.once, nodup_singleton _, fun a ha b hb => ?_⟩
    rw [mem_singleton] at hb
    intro hab
    exact h.accounted.not_accepted (by rwa [← hseq, ← hb, ← hab])
  · rw [hacc]
    intro n hn
    show n < v.nextSequence + 1
    rcases mem_append.mp hn with hn | hn
    · exact Nat.lt_succ_of_lt (h.accounted.known n hn)
    · rw [mem_singleton.mp hn, hseq]
      exact Nat.lt_succ_self _
  · intro l e active c hmem
    exact h.roomy l e active c (by simpa [Lane.enqueue] using hmem)
  · intro l e left hmem
    exact h.first l e left (by simpa [Lane.enqueue] using hmem)

theorem Inv.clear (h : v.Inv) (lane : JsString) : (v.clear lane).Inv := by
  have hclear : clearedIn (v.state.queue.map (cleared lane)) = v.state.queue.map (·.sequence) := by
    simp [clearedIn]
  have hother : acceptedIn (v.state.queue.map (cleared lane)) = [] ∧
      startedIn (v.state.queue.map (cleared lane)) = [] := by
    simp [acceptedIn, startedIn]
  have hacc : acceptedIn (v.clear lane).log = acceptedIn v.log := by
    show acceptedIn (v.log ++ _) = _
    rw [acceptedIn, filterMap_append]
    exact (congrArg _ hother.1).trans (append_nil _)
  have hstart : startedIn (v.clear lane).log = startedIn v.log := by
    show startedIn (v.log ++ _) = _
    rw [startedIn, filterMap_append]
    exact (congrArg _ hother.2).trans (append_nil _)
  have hcleared : clearedIn (v.clear lane).log = clearedIn v.log ++ v.state.queue.map (·.sequence) := by
    show clearedIn (v.log ++ _) = _
    rw [clearedIn, filterMap_append]
    exact congrArg _ hclear
  refine ⟨h.number, h.room, fun hne => absurd rfl hne, h.flagged, List.Pairwise.nil, ⟨fun n => ?_, ?_, ?_⟩, ?_, ?_⟩
  · have hold := h.accounted.counted n
    rw [hacc, hstart, hcleared, count_append]
    simp only [Lane.clear, Lane.waiting, map_nil, count_nil] at hold ⊢
    omega
  · rw [hacc]; exact h.accounted.once
  · rw [hacc]; exact h.accounted.known
  · intro l e active c hmem
    exact h.roomy l e active c (by simpa [Lane.clear] using hmem)
  · intro l e left hmem
    exact h.first l e left (by simpa [Lane.clear] using hmem)

theorem Inv.reset_fits (h : v.Inv) (hwait : v.waiting ≠ []) :
    v.state.reset.maxConcurrent.Fits (v.state.reset.activeTaskIds.length + v.waiting.length) :=
  (h.room hwait).mono (Nat.add_le_add_right (Nat.zero_le _) _)

variable {queue : List QueueEntry}

theorem Inv.take_first (h : v.Inv) (lane : JsString) (hqueue : v.state.queue = entry :: queue) :
    queue.Pairwise QueueEntry.Precedes ∧
      (∀ l e left, taken l e left ∈ v.log ++ [taken lane entry queue] → ∀ q ∈ left, e.Precedes q) := by
  have hsorted := h.sorted
  rw [hqueue, pairwise_cons] at hsorted
  refine ⟨hsorted.2, fun l e left hmem => ?_⟩
  rcases mem_append.mp hmem with hold | hnew
  · exact h.first l e left hold
  · rw [mem_singleton, taken.injEq] at hnew
    obtain ⟨-, rfl, rfl⟩ := hnew
    exact hsorted.1

variable {frames : List LaneFrame}

theorem Inv.wait (h : v.Inv) {lane : JsString} (hframes : v.frames = .pump :: frames)
    (hqueue : v.state.queue = entry :: queue)
    (hroom : v.state.maxConcurrent.Fits (v.state.activeTaskIds.length + v.waiting.length + 1)) :
    ({ v.take lane entry queue with frames := .waiting entry :: frames } : Lane).Inv := by
  obtain ⟨hsorted, hfirst⟩ := h.take_first lane hqueue
  have hwait : v.waiting = frames.filterMap entry? := by rw [waiting, hframes]; rfl
  refine ⟨h.number, fun _ => ?_, fun _ => .inr (by simp), fun _ => ⟨.waiting entry, by simp, by simp⟩, hsorted,
    ⟨fun n => ?_, ?_, ?_⟩, ?_, hfirst⟩
  · rw [hwait] at hroom
    simpa [waiting, take, entry?, Nat.add_assoc] using hroom
  · have hold := h.accounted.counted n
    rw [hwait, hqueue, map_cons, count_cons] at hold
    simp only [take, waiting, acceptedIn, startedIn, clearedIn, filterMap_append,
      filterMap_cons, filterMap_nil, append_nil, entry?, map_cons,
      count_cons] at hold ⊢
    omega
  · simpa [take, acceptedIn, filterMap_append] using h.accounted.once
  · simpa [take, acceptedIn, filterMap_append] using h.accounted.known
  · intro l e active c hmem
    exact h.roomy l e active c (by simpa [take] using hmem)

theorem Inv.takeStart (h : v.Inv) {lane : JsString} (taskId : ℕ) (hframes : v.frames = .pump :: frames)
    (hqueue : v.state.queue = entry :: queue)
    (hroom : v.state.maxConcurrent.Fits (v.state.activeTaskIds.length + v.waiting.length + 1)) :
    ((v.take lane entry queue).start lane entry taskId).Inv := by
  obtain ⟨hsorted, hfirst⟩ := h.take_first lane hqueue
  refine ⟨h.number, fun _ => ?_, fun _ => .inr ?_, h.flagged, hsorted, ⟨fun n => ?_, ?_, ?_⟩, ?_, ?_⟩
  · refine hroom.mono (le_of_eq ?_)
    simp only [start, take, waiting, length_append, length_singleton]
    omega
  · show v.frames ≠ []
    simp [hframes]
  · have hold := h.accounted.counted n
    rw [hqueue, map_cons, count_cons] at hold
    simp only [start, take, waiting, acceptedIn, startedIn, clearedIn, filterMap_append,
      filterMap_cons, filterMap_nil, append_nil, count_append, count_cons,
      count_nil] at hold ⊢
    omega
  · simpa [start, take, acceptedIn, filterMap_append] using h.accounted.once
  · simpa [start, take, acceptedIn, filterMap_append] using h.accounted.known
  · intro l e active c hmem
    simp only [start, take, mem_append, mem_singleton, started.injEq, reduceCtorEq, or_false] at hmem
    rcases hmem with hmem | ⟨-, -, rfl, rfl⟩
    · exact h.roomy l e active c hmem
    · exact above_iff_fits.mpr (hroom.mono (by omega))
  · intro l e left hmem
    exact hfirst l e left (by simpa [start, take] using hmem)

theorem Inv.start (h : v.Inv) {lane : JsString} (taskId : ℕ) (hframes : v.frames = .waiting entry :: frames) :
    ({ v.start lane entry taskId with frames := .pump :: frames } : Lane).Inv := by
  have hwait : v.waiting = entry :: frames.filterMap entry? := by rw [Lane.waiting, hframes]; rfl
  have hroom := h.room (by rw [hwait]; simp)
  rw [hwait, length_cons] at hroom
  refine ⟨h.number, fun _ => ?_, fun _ => .inr (by simp), fun _ => ⟨.pump, by simp, by simp⟩, h.sorted,
    ⟨fun n => ?_, ?_, ?_⟩, ?_, ?_⟩
  · refine hroom.mono (le_of_eq ?_)
    simp only [Lane.start, Lane.waiting, entry?, length_append, length_singleton, filterMap_cons]
    omega
  · have hold := h.accounted.counted n
    rw [hwait, map_cons, count_cons] at hold
    simp only [Lane.start, Lane.waiting, acceptedIn, startedIn, clearedIn, filterMap_append,
      filterMap_cons, filterMap_nil, append_nil, count_append, count_cons, count_nil,
      entry?] at hold ⊢
    omega
  · simpa [Lane.start, acceptedIn, filterMap_append] using h.accounted.once
  · simpa [Lane.start, acceptedIn, filterMap_append] using h.accounted.known
  · intro l e active c hmem
    simp only [Lane.start, mem_append, mem_singleton, started.injEq] at hmem
    rcases hmem with hmem | ⟨-, -, rfl, rfl⟩
    · exact h.roomy l e active c hmem
    · exact above_iff_fits.mpr (hroom.mono (by omega))
  · intro l e left hmem
    exact h.first l e left (by simpa [Lane.start] using hmem)

theorem Inv.step {v' : Lane} (h : v.Inv) (hstep : v.Step v') : v'.Inv := by
  cases hstep with
  | rest n hn =>
    exact ⟨h.number, h.room, h.drained, h.flagged, h.sorted,
      ⟨h.accounted.counted, h.accounted.once, fun m hm => lt_of_lt_of_le (h.accounted.known m hm) hn⟩, h.roomy, h.first⟩
  | enqueue lane entry hseq => exact h.enqueue lane hseq
  | concurrency c hnumber hroom =>
    split
    · exact Inv.of_drain hnumber hroom h.flagged h.sorted h.accounted h.roomy h.first
    · rename_i hzero
      have hreached : c.Reached v.state.activeTaskIds.length :=
        (reached_of_not_above hnumber hzero).mono (Nat.zero_le _)
      exact ⟨hnumber, hroom, fun _ => .inl hreached, h.flagged, h.sorted, h.accounted, h.roomy, h.first⟩
  | clear lane => exact h.clear lane
  | reset =>
    split
    · exact Inv.of_drain h.number h.reset_fits (by simp [LaneState.reset]) h.sorted h.accounted h.roomy h.first
    · rename_i hempty
      refine ⟨h.number, h.reset_fits, fun hne => absurd ?_ hempty, by simp [LaneState.reset], h.sorted, h.accounted,
        h.roomy, h.first⟩
      exact length_pos_iff.mpr hne
  | resetAll drains hdrains hne =>
    have hnone : drains.filterMap entry? = [] := by
      rw [filterMap_eq_nil_iff]
      intro d hd
      rw [hdrains d hd]
      rfl
    have hwait : waiting ⟨v.state.reset, drains ++ v.frames, v.log, v.nextSequence⟩ = v.waiting := by
      rw [waiting, filterMap_append, hnone]
      rfl
    refine ⟨h.number, ?_, fun hqueue => .inr ?_, by simp [LaneState.reset], h.sorted, ?_, h.roomy, h.first⟩
    · rw [hwait]; exact h.reset_fits
    · exact fun hnil => hne hqueue (append_eq_nil_iff.mp hnil).1
    · rw [hwait]; exact h.accounted
  | settle taskId hframes =>
    have hwait : v.waiting = [] := by rw [waiting, hframes]; rfl
    refine ⟨h.number, fun hne => absurd rfl hne, fun _ => .inr (by simp), fun _ => ⟨.pump, by simp, by simp⟩,
      h.sorted, ?_, h.roomy, h.first⟩
    have hacc := h.accounted
    rw [hwait] at hacc
    exact hacc
  | wait lane entry queue frames hframes hqueue hroom => exact h.wait hframes hqueue hroom
  | takeStart lane entry queue taskId frames hframes hqueue hroom => exact h.takeStart taskId hframes hqueue hroom
  | start lane entry taskId frames hframes => exact h.start taskId hframes
  | finish frames hframes hstop =>
    have hwait : v.waiting = frames.filterMap entry? := by rw [waiting, hframes]; rfl
    refine ⟨h.number, ?_, fun hqueue => .inl ?_, by simp, h.sorted, ?_, h.roomy, h.first⟩
    · have hroom := h.room
      rw [hwait] at hroom
      exact hroom
    · exact reached_of_not_above h.number (hstop.resolve_left hqueue)
    · have hacc := h.accounted
      rw [hwait] at hacc
      exact hacc
  | resume frames hframes =>
    have hwait : v.waiting = frames.filterMap entry? := by rw [waiting, hframes]; rfl
    have hroom := h.room
    have hacc := h.accounted
    rw [hwait] at hroom hacc
    refine Inv.of_drain h.number hroom (fun hd => ?_) h.sorted hacc h.roomy h.first
    obtain ⟨f, hf, hne⟩ := h.flagged hd
    rw [hframes] at hf
    exact ⟨f, (mem_cons.mp hf).resolve_left hne, hne⟩

end Lane

end ClawWorks.CommandQueue
