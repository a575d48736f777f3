import ClawWorks.CommandQueue.Pumping

/-!
# No lane is over-run, none stalls, no entry is lost

Every step of the process is a step of each of its lanes (`step_lane`), so every run of the process keeps what the
steps of a lane keep.

A pump tells an entry that it waited before the entry's task counts as active. A callback that calls back into the
queue can therefore have its own room taken: where the pump was begun by a task that settled, the lane does not even
carry the `draining` flag, and enqueueing from the callback starts a second pump.
-/

namespace ClawWorks.CommandQueue

open List Event

abbrev Process.waiting (p : Process) (lane : JsString) : List QueueEntry :=
  (p.lane lane).waiting

/-- A pump takes no entry while active tasks and waiting entries fill the lane. -/
def Process.PumpLeavesRoom (p : Process) (lane : JsString) : Prop :=
  let state := p.getLaneState lane
  state.queue ≠ [] → state.maxConcurrent.Above state.activeTaskIds.length →
    state.maxConcurrent.Fits (state.activeTaskIds.length + (p.waiting lane).length + 1)

/-- A call sets a number of tasks, and none below what is active or waits in a callback. -/
def Process.CallLeavesRoom (p : Process) (lane : JsString) (c : JsCount) : Prop :=
  let cleaned := normalizeLane lane
  c ≠ .notANumber ∧ (p.waiting cleaned ≠ [] → (c.atLeast (if isProbeLane cleaned then 1 else 0)).Fits
    ((p.getLaneState cleaned).activeTaskIds.length + (p.waiting cleaned).length))

/-- A step takes nobody's room. -/
def LeavesRoom (p : Process) : Input → Prop
  | .call (.setConcurrency lane c) => p.Callable → p.CallLeavesRoom lane c
  | .proceed _ =>
    match p.stack with
    | .pump lane :: _ => p.PumpLeavesRoom lane
    | _ => True
  | _ => True

instance (p : Process) (lane : JsString) : Decidable (p.PumpLeavesRoom lane) := by
  unfold Process.PumpLeavesRoom
  infer_instance

instance (p : Process) (lane : JsString) (c : JsCount) : Decidable (p.CallLeavesRoom lane c) := by
  unfold Process.CallLeavesRoom
  infer_instance

instance (p : Process) : ∀ i, Decidable (LeavesRoom p i)
  | .call (.setConcurrency lane c) => inferInstanceAs (Decidable (p.Callable → p.CallLeavesRoom lane c))
  | .proceed _ => by
    show Decidable (match p.stack with | .pump lane :: _ => p.PumpLeavesRoom lane | _ => True)
    rcases p.stack with _ | ⟨_ | _ | _, _⟩
    all_goals infer_instance
  | .call (.enqueue _ _ _) | .call (.clear _) | .call (.reset _) | .call .resetAll | .call .markGatewayDraining
  | .settle _ _ => .isTrue trivial

variable {p : Process} {lane other : JsString}

/-! ## What the operations of the process do to a lane -/

theorem getLaneState_setLane (p : Process) (lane other : JsString) (state : LaneState) :
    (p.setLane lane state).getLaneState other = if lane = other then state else p.getLaneState other := by
  unfold Process.getLaneState Process.setLane
  rw [JsMap.get_set]
  split <;> rfl

theorem framesOf_cons (frame : Frame) (stack : List Frame) (lane : JsString) : framesOf (frame :: stack) lane =
      if frame.lane = lane then frame.ofLane :: framesOf stack lane else framesOf stack lane := by
  unfold framesOf
  by_cases h : frame.lane = lane <;> simp [h]

theorem logOf_concat (log : List Event) (event : Event) (lane : JsString) :
    logOf (log ++ [event]) lane = if event.lane? = some lane then logOf log lane ++ [event] else logOf log lane := by
  unfold logOf
  by_cases h : event.lane? = some lane <;> simp [h]

@[simp] theorem lane_setLane_self (p : Process) (lane : JsString) (state : LaneState) :
    (p.setLane lane state).lane lane = { p.lane lane with state := state } := by
  unfold Process.lane
  rw [getLaneState_setLane, if_pos rfl]
  rfl

theorem lane_setLane_of_ne (h : lane ≠ other) (p : Process) (state : LaneState) :
    (p.setLane lane state).lane other = p.lane other := by
  unfold Process.lane
  rw [getLaneState_setLane, if_neg h]
  rfl

variable {frame : Frame}

theorem lane_push_self (h : frame.lane = lane) (p : Process) :
    (p.push frame).lane lane = { p.lane lane with frames := frame.ofLane :: (p.lane lane).frames } := by
  show Lane.mk _ (framesOf (frame :: p.stack) lane) _ _ = _
  rw [framesOf_cons, if_pos h]
  rfl

theorem lane_push_of_ne (h : frame.lane ≠ lane) (p : Process) : (p.push frame).lane lane = p.lane lane := by
  show Lane.mk _ (framesOf (frame :: p.stack) lane) _ _ = _
  rw [framesOf_cons, if_neg h]
  rfl

theorem lane_record_self {event : Event} (h : event.lane? = some lane) (p : Process) :
    (p.record event).lane lane = { p.lane lane with log := (p.lane lane).log ++ [event] } := by
  show Lane.mk _ _ (logOf (p.log ++ [event]) lane) _ = _
  rw [logOf_concat, if_pos h]
  rfl

theorem lane_record_of_ne {event : Event} (h : event.lane? ≠ some lane) (p : Process) :
    (p.record event).lane lane = p.lane lane := by
  show Lane.mk _ _ (logOf (p.log ++ [event]) lane) _ = _
  rw [logOf_concat, if_neg h]
  rfl

theorem lane_drainLane_self (p : Process) (lane : JsString) : (drainLane p lane).lane lane = (p.lane lane).drain := by
  unfold drainLane Lane.drain
  dsimp only
  by_cases hd : (p.getLaneState lane).draining
  · rw [if_pos hd, if_pos (show (p.lane lane).state.draining from hd)]
  · rw [if_neg hd, if_neg (show ¬ (p.lane lane).state.draining from hd), lane_push_self (by rfl), lane_setLane_self]
    rfl

theorem lane_drainLane_of_ne (h : lane ≠ other) (p : Process) : (drainLane p lane).lane other = p.lane other := by
  unfold drainLane
  dsimp only
  split
  · rfl
  · rw [lane_push_of_ne (by exact h), lane_setLane_of_ne h]

theorem lane_startTask_self (p : Process) (lane : JsString) (entry : QueueEntry) :
    (startTask p lane entry).lane lane = (p.lane lane).start lane entry p.nextTaskId := by
  show ((p.record _).setLane lane _).lane lane = _
  rw [lane_setLane_self, lane_record_self (by rfl)]
  rfl

theorem lane_startTask_of_ne (h : lane ≠ other) (p : Process) (entry : QueueEntry) :
    (startTask p lane entry).lane other = p.lane other := by
  show ((p.record _).setLane lane _).lane other = _
  rw [lane_setLane_of_ne h, lane_record_of_ne (by simpa [lane?] using h)]

/-! ## Every step is a step of every lane -/

theorem Lane.Step.same (v : Lane) : v.Step v := .rest v.nextSequence le_rfl

open Lane.Step

theorem enqueue_lane (p : Process) (lane other : JsString) (opts : EnqueueOptions) (now : ℤ) :
    (p.lane other).Step ((enqueueCommandInLane p lane opts now).lane other) := by
  unfold enqueueCommandInLane
  split
  · exact .same _
  dsimp only
  let entry : QueueEntry :=
    { enqueuedAt := now, sequence := p.nextQueueSequence, priority := resolveQueuePriority opts.priority,
      warnAfterMs := opts.warnAfterMs.getD 2000, queuedAheadAtEnqueue := 0, activeAheadAtEnqueue := 0,
      onWait := opts.onWait }
  let inserted := enqueueLaneEntry (p.getLaneState (normalizeLane lane)) entry
  let accepted := (p.setLane (normalizeLane lane) inserted.1).record (.accepted (normalizeLane lane) inserted.2)
  have hview : ∀ l, Process.lane { accepted with nextQueueSequence := p.nextQueueSequence + 1 } l =
      { accepted.lane l with nextSequence := p.nextQueueSequence + 1 } := fun _ => rfl
  by_cases hlane : normalizeLane lane = other
  · subst hlane
    rw [lane_drainLane_self, hview, lane_record_self (by rfl), lane_setLane_self]
    exact enqueue (normalizeLane lane) entry rfl
  · have hother : (Event.accepted (normalizeLane lane) inserted.2).lane? ≠ some other := by
      simpa [Event.lane?] using hlane
    rw [lane_drainLane_of_ne hlane, hview, lane_record_of_ne hother, lane_setLane_of_ne hlane]
    exact .rest _ (Nat.le_succ _)

theorem setConcurrency_lane {c : JsCount} (h : LeavesRoom p (.call (.setConcurrency lane c))) (hcallable : p.Callable)
    (other : JsString) : (p.lane other).Step ((setCommandLaneConcurrency p lane c).lane other) := by
  obtain ⟨hnumber, hroom⟩ := h hcallable
  have hnan : c.atLeast (if isProbeLane (normalizeLane lane) then 1 else 0) ≠ .notANumber := by
    cases c <;> simp [JsCount.atLeast] at hnumber ⊢
  unfold setCommandLaneConcurrency withConcurrency
  dsimp only
  rw [getLaneState_setLane, if_pos rfl]
  generalize c.atLeast (if isProbeLane (normalizeLane lane) then 1 else 0) = m at hnan hroom ⊢
  by_cases hlane : normalizeLane lane = other
  · subst hlane
    have hstep := concurrency (v := p.lane (normalizeLane lane)) m hnan hroom
    by_cases habove : m.Above 0
    · rw [if_pos habove] at hstep ⊢
      rw [lane_drainLane_self, lane_setLane_self]
      exact hstep
    · rw [if_neg habove] at hstep ⊢
      rw [lane_setLane_self]
      exact hstep
  · split
    · rw [lane_drainLane_of_ne hlane, lane_setLane_of_ne hlane]
      exact .same _
    · rw [lane_setLane_of_ne hlane]
      exact .same _

theorem clear_lane (p : Process) (lane other : JsString) :
    (p.lane other).Step ((clearCommandLane p lane).lane other) := by
  unfold clearCommandLane
  dsimp only
  split
  · exact .same _
  rename_i state hstate
  have hget : p.getLaneState (normalizeLane lane) = state := by rw [Process.getLaneState, hstate]; rfl
  have hlog : logOf (p.log ++ state.queue.map (cleared (normalizeLane lane))) other =
      if normalizeLane lane = other then logOf p.log other ++ state.queue.map (cleared (normalizeLane lane))
      else logOf p.log other := by
    unfold logOf
    rw [filter_append]
    split
    · rename_i hlane
      congr 1
      exact filter_eq_self.mpr fun e he => by
        obtain ⟨q, -, rfl⟩ := mem_map.mp he
        simp [lane?, hlane]
    · rename_i hlane
      have hnone : (state.queue.map (cleared (normalizeLane lane))).filter (·.lane? = some other) = [] :=
        filter_eq_nil_iff.mpr fun e he => by
          obtain ⟨q, -, rfl⟩ := mem_map.mp he
          simp [lane?, hlane]
      rw [hnone, append_nil]
  show (p.lane other).Step (Lane.mk ((p.setLane _ _).getLaneState other) _ (logOf _ other) _)
  rw [hlog, getLaneState_setLane]
  split
  · rename_i hlane
    subst hlane
    have hstep := clear (v := p.lane (normalizeLane lane)) (normalizeLane lane)
    rw [Lane.clear] at hstep
    simp only [Process.lane, hget] at hstep ⊢
    exact hstep
  · exact .same _

theorem reset_lane (p : Process) (lane other : JsString) :
    (p.lane other).Step ((resetCommandLane p lane).lane other) := by
  unfold resetCommandLane
  dsimp only
  split
  · exact .same _
  rename_i state hstate
  have hget : (p.lane (normalizeLane lane)).state = state := by
    show p.getLaneState (normalizeLane lane) = state
    rw [Process.getLaneState, hstate]
    rfl
  by_cases hlane : normalizeLane lane = other
  · subst hlane
    have hstep := reset (v := p.lane (normalizeLane lane))
    rw [hget] at hstep
    split
    · rename_i hqueue
      rw [if_pos hqueue] at hstep
      rw [lane_drainLane_self, lane_setLane_self]
      exact hstep
    · rename_i hqueue
      rw [if_neg hqueue] at hstep
      rw [lane_setLane_self]
      exact hstep
  · split
    · rw [lane_drainLane_of_ne hlane, lane_setLane_of_ne hlane]
      exact .same _
    · rw [lane_setLane_of_ne hlane]
      exact .same _

theorem get_map_reset (lanes : JsMap JsString LaneState) (lane : JsString) :
    JsMap.get (lanes.map fun entry => (entry.1, entry.2.reset)) lane = (lanes.get lane).map LaneState.reset := by
  induction lanes with
  | nil => rfl
  | cons entry lanes ih =>
    by_cases h : entry.1 = lane
    · simp [JsMap.get, h]
    · simp only [map_cons, JsMap.get, if_neg h]
      exact ih

theorem resetAll_lane (p : Process) (lane : JsString) : (p.lane lane).Step ((resetAllLanes p).lane lane) := by
  cases hstate : p.lanes.get lane with
  | none =>
    have hnone : ((p.lanes.filter fun entry => entry.2.queue.length > 0).map fun entry =>
        Frame.drain entry.1).filter (·.lane = lane) = [] := by
      refine filter_eq_nil_iff.mpr fun f hf => ?_
      obtain ⟨entry, hentry, rfl⟩ := mem_map.mp hf
      have hmem : entry.1 ∈ p.lanes.map (·.1) := mem_map_of_mem (mem_of_mem_filter hentry)
      have hne : entry.1 ≠ lane := fun h => JsMap.get_eq_none_iff.mp hstate (h ▸ hmem)
      simp [Frame.lane, hne]
    have hframes : framesOf (resetAllLanes p).stack lane = framesOf p.stack lane := by
      unfold framesOf resetAllLanes
      rw [filter_append, hnone, nil_append]
    have hsame : (resetAllLanes p).lane lane = p.lane lane := by
      unfold Process.lane
      rw [hframes]
      simp only [resetAllLanes, Process.getLaneState, get_map_reset, hstate, Option.map_none]
    rw [hsame]
    exact .same _
  | some state =>
    have hget : (p.lane lane).state = state := by
      show p.getLaneState lane = state
      rw [Process.getLaneState, hstate]
      rfl
    let drains := framesOf ((p.lanes.filter fun entry => entry.2.queue.length > 0).map fun entry =>
      Frame.drain entry.1) lane
    have hdrains : ∀ d ∈ drains, d = .drain := by
      intro d hd
      obtain ⟨f, hf, rfl⟩ := mem_map.mp hd
      obtain ⟨entry, -, rfl⟩ := mem_map.mp (mem_of_mem_filter hf)
      rfl
    have hsome : (p.lane lane).state.queue ≠ [] → drains ≠ [] := by
      intro hqueue
      rw [hget] at hqueue
      refine ne_nil_of_mem (mem_map_of_mem (f := Frame.ofLane) (mem_filter.mpr
        ⟨mem_map_of_mem (mem_filter.mpr ⟨JsMap.mem_of_get hstate, ?_⟩), ?_⟩))
      · simpa using length_pos_iff.mpr hqueue
      · simp [Frame.lane]
    have hstep := resetAll (v := p.lane lane) drains hdrains hsome
    refine cast (congrArg _ ?_) hstep
    show Lane.mk _ _ _ _ = Lane.mk _ _ _ _
    congr 1
    · rw [hget]
      simp only [resetAllLanes, Process.getLaneState, get_map_reset, hstate, Option.map_some, Option.getD_some]
    · show _ = framesOf (_ ++ p.stack) lane
      rw [framesOf, filter_append, map_append]
      rfl

theorem settle_lane (p : Process) (task : RunningTask) (outcome : Outcome) (lane : JsString) (hstack : p.stack = []) :
    (p.lane lane).Step ((settle p task outcome).lane lane) := by
  have hframes : (p.lane lane).frames = [] := by
    show framesOf p.stack lane = []
    rw [hstack]
    rfl
  have hquiet : ({ p.record (.settled task outcome) with running := p.running.erase task } : Process).lane lane =
      p.lane lane := by
    show (p.record (.settled task outcome)).lane lane = _
    exact lane_record_of_ne (by simp [lane?]) p
  unfold settle
  dsimp only
  split
  · by_cases hlane : task.lane = lane
    · subst hlane
      rw [lane_push_self (by rfl), lane_setLane_self, hquiet, hframes]
      exact Lane.Step.settle task.taskId hframes
    · rw [lane_push_of_ne (by exact hlane), lane_setLane_of_ne hlane, hquiet]
      exact .same _
  · rw [hquiet]
    exact .same _

variable {rest : List Frame}

theorem frames_of_stack (hstack : p.stack = frame :: rest) :
    (p.lane frame.lane).frames = frame.ofLane :: (({ p with stack := rest } : Process).lane frame.lane).frames := by
  show framesOf p.stack frame.lane = _
  rw [hstack, framesOf_cons, if_pos rfl]
  rfl

theorem lane_of_stack (hstack : p.stack = frame :: rest)
    (h : frame.lane ≠ lane) : ({ p with stack := rest } : Process).lane lane = p.lane lane := by
  show Lane.mk _ (framesOf rest lane) _ _ = Lane.mk _ (framesOf p.stack lane) _ _
  rw [hstack, framesOf_cons, if_neg h]
  rfl

theorem pump_lane {now : ℤ} (hstack : p.stack = .pump lane :: rest)
    (h : LeavesRoom p (.proceed now)) (other : JsString) :
    (p.lane other).Step ((pump { p with stack := rest } lane now).lane other) := by
  have hroom : p.PumpLeavesRoom lane := by simpa only [LeavesRoom, hstack] using h
  have hframes := frames_of_stack hstack
  by_cases hlane : lane = other
  · subst hlane
    unfold pump
    dsimp only
    split
    · rename_i hqueue
      rw [lane_setLane_self]
      exact finish _ hframes (Or.inl hqueue)
    · rename_i entry queue hqueue
      split
      · rename_i habove
        have hfits := hroom (ne_of_eq_of_ne hqueue (cons_ne_nil _ _)) habove
        split
        · rw [lane_push_self (by rfl), lane_record_self (by rfl), lane_setLane_self]
          exact wait lane entry queue _ hframes hqueue hfits
        · rw [lane_push_self (by rfl), lane_startTask_self, lane_record_self (by rfl), lane_setLane_self]
          have hstep := takeStart lane entry queue p.nextTaskId _ hframes hqueue hfits
          refine cast (congrArg _ ?_) hstep
          rw [Lane.start, Lane.take, hframes]
          rfl
      · rename_i habove
        rw [lane_setLane_self]
        exact finish _ hframes (Or.inr habove)
  · have hsame : (pump { p with stack := rest } lane now).lane other = p.lane other := by
      rw [← lane_of_stack hstack hlane]
      unfold pump
      dsimp only
      split
      · exact lane_setLane_of_ne hlane _ _
      rename_i entry queue hqueue
      have htaken : (taken lane entry queue).lane? ≠ some other := by simpa [lane?] using hlane
      split
      · split
        · rw [lane_push_of_ne (by exact hlane), lane_record_of_ne htaken, lane_setLane_of_ne hlane]
        · rw [lane_push_of_ne (by exact hlane), lane_startTask_of_ne hlane, lane_record_of_ne htaken,
            lane_setLane_of_ne hlane]
      · exact lane_setLane_of_ne hlane _ _
    rw [hsame]
    exact .same _

theorem proceed_lane {now : ℤ} (h : LeavesRoom p (.proceed now)) (lane : JsString) :
    (p.lane lane).Step ((proceed p now).lane lane) := by
  unfold proceed
  split
  · exact .same _
  · rename_i busy rest hstack
    exact pump_lane hstack h lane
  · rename_i busy entry rest hstack
    have hframes := frames_of_stack hstack
    by_cases hlane : busy = lane
    · subst hlane
      rw [lane_push_self (by rfl), lane_startTask_self]
      exact start busy entry p.nextTaskId _ hframes
    · rw [lane_push_of_ne (by exact hlane), lane_startTask_of_ne hlane, lane_of_stack hstack hlane]
      exact .same _
  · rename_i busy rest hstack
    have hframes := frames_of_stack hstack
    by_cases hlane : busy = lane
    · subst hlane
      rw [lane_drainLane_self]
      exact resume _ hframes
    · rw [lane_drainLane_of_ne hlane, lane_of_stack hstack hlane]
      exact .same _

theorem step_lane {i : Input} (h : LeavesRoom p i) (lane : JsString) : (p.lane lane).Step ((step p i).lane lane) := by
  unfold step
  split
  · rename_i c
    split
    · rename_i hcallable
      cases c with
      | enqueue l opts now => exact enqueue_lane p l lane opts now
      | setConcurrency l c => exact setConcurrency_lane h hcallable lane
      | clear l => exact clear_lane p l lane
      | reset l => exact reset_lane p l lane
      | resetAll => exact resetAll_lane p lane
      | markGatewayDraining => exact .same _
    · exact .same _
  · rename_i task outcome
    split
    · rename_i hready
      exact settle_lane p task outcome lane hready.1
    · exact .same _
  · exact proceed_lane h lane

/-! ## Every run -/

/-- What a process promises of its lanes. -/
structure Sound (p : Process) : Prop where
  /-- A task starts only while fewer tasks of its lane are active than the lane's concurrency. -/
  roomy : ∀ lane entry active c, Event.started lane entry active c ∈ p.log → c.Above active
  /-- Where no pump runs, a lane with a queued entry has its concurrency of active tasks. -/
  pumped : p.stack = [] → ∀ lane, (p.getLaneState lane).queue ≠ [] →
    (p.getLaneState lane).maxConcurrent.Reached (p.getLaneState lane).activeTaskIds.length
  ordered : ∀ lane entry left, Event.taken lane entry left ∈ p.log → ∀ q ∈ left, entry.Precedes q
  /-- An entry that was accepted is queued, in its callback, started or rejected by a clear: one of these, and once. -/
  accounted : ∀ lane, (acceptedIn (logOf p.log lane)).Nodup ∧ (acceptedIn (logOf p.log lane)).Perm
    ((p.getLaneState lane).queue.map (·.sequence) ++ (p.waiting lane).map (·.sequence) ++
      startedIn (logOf p.log lane) ++ clearedIn (logOf p.log lane))
  /-- A task of an earlier generation settles without a trace in its lane. -/
  late : ∀ task outcome, task.taskGeneration ≠ (p.getLaneState task.lane).generation →
    (step p (.settle task outcome)).lanes = p.lanes

theorem inv_start (lane : JsString) : (Process.start.lane lane).Inv := by
  refine ⟨by simp [Process.lane, Process.getLaneState, Process.start, LaneState.created], fun h => absurd rfl h,
    fun h => absurd rfl h, nofun, List.Pairwise.nil, ⟨fun _ => rfl, nodup_nil, fun n hn => ?_⟩,
    fun l e n c hmem => ?_, fun l e left hmem => ?_⟩
  · cases hn
  · cases hmem
  · cases hmem

theorem sound_of_inv (h : ∀ lane, (p.lane lane).Inv) : Sound p where
  roomy lane entry active c hmem := by
    refine (h lane).roomy lane entry active c (mem_filter.mpr ⟨hmem, ?_⟩)
    simp [lane?]
  pumped hstack lane hqueue := by
    refine ((h lane).drained hqueue).resolve_right fun hframes => hframes ?_
    show framesOf p.stack lane = []
    rw [hstack]
    rfl
  ordered lane entry left hmem := by
    refine (h lane).first lane entry left (mem_filter.mpr ⟨hmem, ?_⟩)
    simp [lane?]
  accounted lane := by
    refine ⟨(h lane).accounted.once, perm_iff_count.mpr fun n => ?_⟩
    rw [count_append, count_append, count_append]
    exact (h lane).accounted.counted n
  late task outcome hgen := by
    unfold step
    dsimp only
    split
    · unfold settle
      dsimp only
      rw [if_neg hgen]
      rfl
    · rfl

/-- **Lanes are neither over-run nor stalled, and no entry is lost**: in every run none of whose steps takes the room of
an entry that waits in its callback. -/
theorem runs_sound (run : List Input) (h : Runs.EachStep step Process.start LeavesRoom run) :
    Sound (Runs.after step Process.start run) :=
  sound_of_inv <| Runs.invariant_of_eachStep (P := fun _ p => ∀ lane, (p.lane lane).Inv) inv_start
    (fun _ _ hinv hroom lane => (hinv lane).step (step_lane hroom lane)) run h

/-- An entry with a callback, told at once that it waited. -/
def told : EnqueueOptions :=
  ⟨some 0, .normal, true⟩

def untold : EnqueueOptions :=
  ⟨none, .normal, false⟩

/-- A task runs, an entry waits for it and is told so when the task settles. -/
def toldRun : List Input :=
  [.call (.enqueue (js "main") untold 0), .proceed 0, .proceed 0, .call (.enqueue (js "main") told 0), .proceed 0,
    .settle ⟨1, js "main", 0⟩ .result, .proceed 0]

theorem told_entry_starts : Sound (Runs.after step Process.start (toldRun ++ [.proceed 0, .proceed 0])) ∧
    (Runs.after step Process.start (toldRun ++ [.proceed 0, .proceed 0])).running = [⟨2, js "main", 0⟩] := by
  refine ⟨runs_sound _ ?_, by decide⟩
  iterate 9 refine .cons (by decide) ?_
  exact Runs.eachStep_nil

/-- The callback enqueues: a second pump starts what it enqueued, and the entry starts beside it in a lane for one. -/
theorem enqueueing_callback_overruns : ¬ Sound (Runs.after step Process.start
    (toldRun ++ [.call (.enqueue (js "main") untold 0), .proceed 0, .proceed 0, .proceed 0])) := by
  intro h
  have hstarted : Event.started (js "main") ⟨0, 2, 0, 0, 0, 1, true⟩ 1 (.tasks 1) ∈ (Runs.after step Process.start
      (toldRun ++ [.call (.enqueue (js "main") untold 0), .proceed 0, .proceed 0, .proceed 0])).log := by
    decide
  exact absurd (h.roomy _ _ _ _ hstarted) (by decide)

end ClawWorks.CommandQueue
