import ClawWorks.FollowupQueue.Drain

/-!
# The counts of dropped messages
-/

namespace ClawWorks.FollowupQueue

open List

def elidedCount (entries : List SummaryElision) : Nat :=
  (entries.map (·.count)).sum

/-- The count of dropped messages, all but `consumed` of them pending. -/
structure Balanced (queue : FollowupQueueState) (consumed : Nat) : Prop where
  droppedCount : queue.droppedCount =
    queue.summarySources.length + elidedCount queue.summaryElisions + queue.evictedSummaryCount + consumed
  counts : ∀ entry ∈ queue.summaryElisions, 0 < entry.count

@[simp]
theorem elidedCount_nil : elidedCount [] = 0 := rfl

@[simp]
theorem elidedCount_cons (entry : SummaryElision) (entries : List SummaryElision) :
    elidedCount (entry :: entries) = entry.count + elidedCount entries := by
  simp [elidedCount]

@[simp]
theorem elidedCount_append (entries entries' : List SummaryElision) :
    elidedCount (entries ++ entries') = elidedCount entries + elidedCount entries' := by
  simp [elidedCount]

variable {queue : FollowupQueueState} {consumed : Nat}

/-! ## Enqueueing -/

theorem balanced_evict (h : Balanced queue consumed) (evictions : Nat) :
    Balanced (queue.evictSummaryElisions evictions) consumed := by
  refine ⟨?_, fun entry hentry => h.counts entry (mem_of_mem_drop hentry)⟩
  have hsplit : elidedCount queue.summaryElisions =
      elidedCount (queue.summaryElisions.take evictions) + elidedCount (queue.summaryElisions.drop evictions) := by
    rw [← elidedCount_append, take_append_drop]
  have hdropped := h.droppedCount
  simp only [FollowupQueueState.evictSummaryElisions]
  unfold elidedCount at *
  omega

theorem balanced_getFollowupQueue (h : Balanced queue 0) (registered : Bool) (settings : QueueSettings) :
    Balanced (getFollowupQueue registered queue settings) 0 := by
  unfold getFollowupQueue
  split
  · have happlied : Balanced (applyQueueRuntimeSettings queue settings) 0 := ⟨h.droppedCount, h.counts⟩
    exact balanced_evict happlied _
  · exact ⟨rfl, fun _ hentry => nomatch hentry⟩

theorem balanced_applyQueueDropPolicy (h : Balanced queue consumed) :
    Balanced (applyQueueDropPolicy queue).1 consumed := by
  unfold applyQueueDropPolicy
  split
  · exact h
  cases queue.dropPolicy with
  | new => exact h
  | old => exact ⟨h.droppedCount, h.counts⟩
  | summarize =>
    refine ⟨?_, h.counts⟩
    have hdropped := h.droppedCount
    simp only [length_append]
    omega

theorem balanced_elideSummarySource (h : Balanced queue (consumed + 1)) (item : FollowupRun) :
    Balanced (elideSummarySource queue item) consumed := by
  have hpush : ∀ {queue : FollowupQueueState} {entry : SummaryElision} {objects : Nat}, Balanced queue (consumed + 1) →
      entry.count = 1 → Balanced { queue with
        summaryElisions := queue.summaryElisions ++ [entry], elisionObjects := objects } consumed := by
    intro queue entry objects h hone
    refine ⟨?_, fun other hother => ?_⟩
    · have hdropped := h.droppedCount
      simp only [elidedCount_append, elidedCount_cons, elidedCount_nil, hone]
      omega
    · rcases mem_append.mp hother with hold | hnew
      · exact h.counts other hold
      · rw [mem_singleton.mp hnew, hone]
        exact Nat.one_pos
  unfold elideSummarySource
  simp only
  split
  · rename_i last hlast
    split
    · obtain ⟨entries, hentries⟩ := getLast?_eq_some_iff.mp hlast
      have hdropped := h.droppedCount
      rw [hentries] at hdropped
      refine ⟨?_, fun other hother => ?_⟩
      · simp only [hentries, dropLast_concat, elidedCount_append, elidedCount_cons, elidedCount_nil] at hdropped ⊢
        omega
      · simp only [hentries, dropLast_concat] at hother
        rcases mem_append.mp hother with hold | hnew
        · exact h.counts other (hentries ▸ mem_append_left _ hold)
        · rw [mem_singleton.mp hnew]
          exact Nat.succ_pos _
    · split
      · exact hpush (balanced_evict h 1) rfl
      · exact hpush h rfl
  · exact hpush h rfl

theorem balanced_foldl_elideSummarySource {items : List FollowupRun} (h : Balanced queue (consumed + items.length)) :
    Balanced (items.foldl elideSummarySource queue) consumed := by
  induction items generalizing queue with
  | nil => exact h
  | cons item items ih =>
    exact ih (balanced_elideSummarySource (by rwa [Nat.add_assoc] ) item)

theorem elideSummarySource_frame (queue : FollowupQueueState) (item : FollowupRun) :
    (elideSummarySource queue item).items = queue.items ∧
      (elideSummarySource queue item).ledger.accepted = queue.ledger.accepted := by
  unfold elideSummarySource
  simp only
  split
  · split
    · exact ⟨rfl, rfl⟩
    · split <;> exact ⟨rfl, rfl⟩
  · exact ⟨rfl, rfl⟩

theorem foldl_elideSummarySource_frame (items : List FollowupRun) (queue : FollowupQueueState) :
    (items.foldl elideSummarySource queue).items = queue.items ∧
      (items.foldl elideSummarySource queue).ledger.accepted = queue.ledger.accepted := by
  induction items generalizing queue with
  | nil => exact ⟨rfl, rfl⟩
  | cons item items ih =>
    obtain ⟨hitems, haccepted⟩ := elideSummarySource_frame queue item
    obtain ⟨hrestItems, hrestAccepted⟩ := ih (elideSummarySource queue item)
    exact ⟨hrestItems.trans hitems, hrestAccepted.trans haccepted⟩

theorem elideOverflow_frame (queue : FollowupQueueState) : (elideOverflow queue).items = queue.items ∧
    (elideOverflow queue).ledger.accepted = queue.ledger.accepted := by
  unfold elideOverflow
  split
  · exact foldl_elideSummarySource_frame _ _
  · exact ⟨rfl, rfl⟩

theorem resolveOverflowSummarySourceGroup_sublist (queue : FollowupQueueState) :
    (resolveOverflowSummarySourceGroup queue).Sublist queue.summarySources := by
  unfold resolveOverflowSummarySourceGroup
  split
  · exact nil_sublist _
  · rename_i source sources hsources
    rw [hsources]
    exact cons_sublist_cons.mpr (takeWhile_sublist _)

theorem retainedSources_sublist (queue : FollowupQueueState) :
    (retainedSources queue).Sublist queue.summarySources := by
  unfold retainedSources
  split
  · exact filter_sublist.trans (resolveOverflowSummarySourceGroup_sublist queue)
  · exact nil_sublist _

theorem balanced_elideOverflow (h : Balanced queue 0) : Balanced (elideOverflow queue) 0 := by
  unfold elideOverflow
  split
  · refine balanced_foldl_elideSummarySource ⟨?_, h.counts⟩
    have hdropped := h.droppedCount
    simp only [length_drop, length_take]
    omega
  · exact h

theorem balanced_enqueue (h : Balanced queue 0) (registered : Bool) (call : EnqueueCall) :
    Balanced (enqueueFollowupRun registered queue call) 0 := by
  have hqueue := balanced_getFollowupQueue h registered call.settings
  have helided := balanced_elideOverflow (balanced_applyQueueDropPolicy hqueue)
  unfold enqueueFollowupRun
  simp only
  split
  · exact hqueue
  · split
    · exact helided
    · exact ⟨helided.droppedCount, helided.counts⟩

/-! ## Summaries that were delivered -/

theorem elidedCount_uncount {kind : SummaryElision → Bool} (fewer : Nat) (messages : List FollowupRun)
    {entries : List SummaryElision} {entry : SummaryElision} (h : entries.find? kind = some entry) :
    elidedCount (uncount kind fewer messages entries) + min fewer entry.count = elidedCount entries := by
  induction entries with
  | nil => cases h
  | cons first entries ih =>
    unfold uncount
    rw [find?_cons] at h
    split at h
    · rename_i hkind
      obtain rfl := Option.some.inj h
      rw [if_pos hkind]
      split
      · rw [elidedCount_cons]
        omega
      · simp only [elidedCount_cons]
        omega
    · rename_i hkind
      rw [if_neg (by rw [hkind]; exact Bool.false_ne_true), elidedCount_cons, elidedCount_cons, Nat.add_assoc, ih h]

theorem count_pos_of_mem_uncount {kind : SummaryElision → Bool} {fewer : Nat} {messages : List FollowupRun}
    {entries : List SummaryElision} (h : ∀ entry ∈ entries, 0 < entry.count) :
    ∀ entry ∈ uncount kind fewer messages entries, 0 < entry.count := by
  induction entries with
  | nil => exact fun _ hentry => nomatch hentry
  | cons first entries ih =>
    have hrest := fun entry hentry => h entry (mem_cons_of_mem _ hentry)
    intro entry hentry
    unfold uncount at hentry
    split at hentry
    · split at hentry
      · exact hrest entry hentry
      · rename_i hcount
        rcases mem_cons.mp hentry with rfl | hentry
        · exact Nat.pos_of_ne_zero hcount
        · exact hrest entry hentry
    · rcases mem_cons.mp hentry with rfl | hentry
      · exact h _ mem_cons_self
      · exact ih hrest entry hentry

variable {state : FollowupQueueState × Nat}

theorem balanced_consumeSource (h : Balanced state.1 state.2)
    (source : FollowupRun) : Balanced (consumeSource state source).1 (consumeSource state source).2 := by
  have hdropped := h.droppedCount
  unfold consumeSource
  simp only
  split
  · rename_i hmem
    have hlength := length_erase_of_mem hmem
    have hpos := length_pos_of_mem hmem
    refine ⟨?_, h.counts⟩
    simp only
    omega
  · split
    · rename_i entry hfind
      have hcount := h.counts entry (mem_of_find?_eq_some hfind)
      have hsum := elidedCount_uncount 1 [source] hfind
      refine ⟨?_, count_pos_of_mem_uncount h.counts⟩
      simp only
      omega
    · exact h

theorem balanced_foldl_consumeSource {sources : List FollowupRun} (h : Balanced state.1 state.2) :
    Balanced (sources.foldl consumeSource state).1 (sources.foldl consumeSource state).2 := by
  induction sources generalizing state with
  | nil => exact h
  | cons source sources ih => exact ih (balanced_consumeSource h source)

theorem balanced_consumeQueueSummaryDelivery (h : Balanced queue 0) (sources : List FollowupRun) :
    Balanced (consumeQueueSummaryDelivery queue sources.length sources) 0 := by
  have hstart : (if sources = [] then sources.length else 0) = 0 := by
    split
    · rename_i hnil
      rw [hnil, length_nil]
    · rfl
  have hfold : Balanced (sources.foldl consumeSource (queue, 0)).1 (sources.foldl consumeSource (queue, 0)).2 :=
    balanced_foldl_consumeSource h
  unfold consumeQueueSummaryDelivery
  simp only [hstart]
  refine ⟨?_, hfold.counts⟩
  have hdropped := hfold.droppedCount
  simp only
  omega

theorem balanced_consumeElision (h : Balanced queue 0) (object fewer : Nat) (counted : List FollowupRun) :
    Balanced (consumeElision queue object fewer counted) 0 := by
  unfold consumeElision
  split
  · exact h
  rename_i entry hfind
  have hsum := elidedCount_uncount fewer counted hfind
  have hdropped := h.droppedCount
  refine ⟨?_, count_pos_of_mem_uncount h.counts⟩
  simp only
  omega

theorem balanced_completed (h : Balanced queue 0) (point : DrainPoint) : Balanced (System.completed queue point) 0 := by
  cases point with
  | elidedSummary entry count counted sources =>
    have hconsumed := balanced_consumeElision (balanced_consumeQueueSummaryDelivery h sources) entry count counted
    exact ⟨hconsumed.droppedCount, hconsumed.counts⟩
  | groupSummary sources =>
    have hconsumed := balanced_consumeQueueSummaryDelivery h sources
    exact ⟨hconsumed.droppedCount, hconsumed.counts⟩
  | _ => exact ⟨h.droppedCount, h.counts⟩

/-! ## Steps -/

namespace System

variable {s : System}

@[simp]
theorem finish_queue : s.finish.queue = s.queue := by
  unfold finish
  split <;> rfl

theorem scanAborted_queue (aborted : FollowupRun → Bool) (afterDebounce : Bool) (dropped index : Nat) :
    (s.scanAborted aborted afterDebounce dropped index).queue = s.queue := by
  induction index with
  | zero => rfl
  | succ index ih =>
    unfold scanAborted
    split
    · exact finish_queue
    · split
      · rfl
      · exact ih

theorem loopTop_queue (aborted : FollowupRun → Bool) : (s.loopTop aborted).queue = s.queue := by
  unfold loopTop
  split
  · exact finish_queue
  · exact scanAborted_queue _ _ _ _

theorem drainNext_queue : s.drainNext.queue = s.queue := by
  unfold drainNext
  split <;> rfl

theorem collect_queue : s.collect.queue = s.queue := by
  unfold collect
  split
  · split
    · rfl
    · exact drainNext_queue
  · exact drainNext_queue

theorem runBatches_queue (aborted : FollowupRun → Bool) (groups : List (List FollowupRun)) :
    (s.runBatches aborted groups).queue = s.queue := by
  cases groups with
  | nil => exact loopTop_queue aborted
  | cons => rfl

theorem drainSourceGroup_queue : s.drainSourceGroup.queue = s.queue := by
  unfold drainSourceGroup
  split <;> rfl

theorem drainOverflow_queue : s.drainOverflow.queue = s.queue ∨
      (0 < s.queue.evictedSummaryCount ∧ s.drainOverflow.queue = writeOffEvicted s.queue) := by
  unfold drainOverflow
  split
  · rename_i hevicted
    exact .inr ⟨hevicted, rfl⟩
  · refine .inl ?_
    split
    · rfl
    · split <;> rfl

theorem proceed_queue (aborted : FollowupRun → Bool) :
    (s.proceed aborted).queue = s.queue ∨ (s.proceed aborted).queue = clearFollowupQueueSummaryState s.queue ∨
      (s.proceed aborted).queue = writeOffEvicted s.queue := by
  unfold proceed
  split
  · exact .inl rfl
  · exact .inl (loopTop_queue aborted)
  · exact .inl (scanAborted_queue _ _ _ _)
  · rename_i afterDebounce dropped hpoint
    unfold afterScan
    simp only
    split
    · rename_i hcleared
      refine .inr (.inl ?_)
      rw [if_pos ⟨hcleared.2, rfl⟩, finish_queue]
    · split
      · exact .inl finish_queue
      · split
        · exact .inl rfl
        · split
          · rcases drainOverflow_queue (s := s) with h | ⟨-, h⟩
            · exact .inl h
            · exact .inr (.inr h)
          · exact .inl collect_queue
  · exact .inl (scanAborted_queue _ _ _ _)
  · exact .inl rfl
  · exact .inl drainSourceGroup_queue
  · exact .inl rfl
  · exact .inl (loopTop_queue aborted)
  · exact .inl collect_queue
  · exact .inl rfl
  · split
    · exact .inl finish_queue
    · exact .inl (runBatches_queue aborted _)
  · exact .inl (runBatches_queue aborted _)
  · exact .inl finish_queue

theorem balanced_proceed (h : Balanced s.queue 0) (aborted : FollowupRun → Bool) :
    Balanced (s.proceed aborted).queue 0 := by
  rcases proceed_queue (s := s) aborted with hqueue | hqueue | hqueue
  · rw [hqueue]
    exact h
  · rw [hqueue]
    exact ⟨rfl, fun _ hentry => nomatch hentry⟩
  · rw [hqueue]
    refine ⟨?_, h.counts⟩
    have hdropped := h.droppedCount
    simp only [writeOffEvicted]
    omega

theorem balanced_resume (h : Balanced s.queue 0) (aborted : FollowupRun → Bool) : Balanced (s.resume aborted).queue 0 :=
  balanced_proceed (balanced_completed h s.point) aborted

theorem length_releaseForRetry (sources summarySources : List FollowupRun) :
    (sources.foldl (fun (summarySources : List FollowupRun) source =>
      if source ∈ summarySources then
        summarySources.set (summarySources.idxOf source) (createOverflowSummaryRetrySource source)
      else summarySources) summarySources).length = summarySources.length := by
  induction sources generalizing summarySources with
  | nil => rfl
  | cons source sources ih =>
    rw [foldl_cons, ih]
    split
    · exact length_set
    · rfl

theorem balanced_release (h : Balanced s.queue 0) (sources : List FollowupRun) :
    Balanced (releaseQueueSummaryDeliveryForRetry s.queue sources) 0 := by
  refine ⟨?_, h.counts⟩
  unfold releaseQueueSummaryDeliveryForRetry
  simp only [length_releaseForRetry]
  exact h.droppedCount

theorem balanced_fail (h : Balanced s.queue 0) (deferred : Bool) : Balanced (s.fail deferred).queue 0 := by
  unfold fail
  split
  · rwa [finish_queue]
  · rwa [finish_queue]
  · rwa [finish_queue]
  · split
    · rwa [finish_queue]
    · rw [finish_queue]
      exact balanced_release h _
  · split
    · rwa [finish_queue]
    · rw [finish_queue]
      exact balanced_release h _
  · exact h

theorem balanced_step (h : Balanced s.queue 0) (event : Event) : Balanced (s.step event).queue 0 := by
  cases event with
  | enqueue call =>
    simp only [step]
    split
    · exact h
    · exact balanced_enqueue h s.registered call
  | schedule =>
    simp only [step]
    split
    · split <;> exact h
    · exact h
  | resume aborted => exact balanced_resume h aborted
  | fail deferred => exact balanced_fail h deferred

/-- **In every state reached the dropped messages are those pending, elided or evicted.** -/
theorem balanced_run (events : List Event) : Balanced (initial.run events).queue 0 := by
  have hrun : ∀ s : System, Balanced s.queue 0 → Balanced (s.run events).queue 0 := by
    induction events with
    | nil => exact fun _ h => h
    | cons event events ih => exact fun s h => ih (s.step event) (balanced_step h event)
  exact hrun initial ⟨rfl, fun _ hentry => nomatch hentry⟩

end System

/-! ## Lines -/

/-- Every source that is retained has its line. -/
def Lined (queue : FollowupQueueState) : Prop :=
  queue.summaryLines.length = queue.summarySources.length

theorem elideSummarySource_lines (queue : FollowupQueueState) (item : FollowupRun) :
    (elideSummarySource queue item).summaryLines = queue.summaryLines ∧
      (elideSummarySource queue item).summarySources = queue.summarySources := by
  unfold elideSummarySource
  simp only
  split
  · split
    · exact ⟨rfl, rfl⟩
    · split <;> exact ⟨rfl, rfl⟩
  · exact ⟨rfl, rfl⟩

theorem foldl_elideSummarySource_lines (items : List FollowupRun) (queue : FollowupQueueState) :
    (items.foldl elideSummarySource queue).summaryLines = queue.summaryLines ∧
      (items.foldl elideSummarySource queue).summarySources = queue.summarySources := by
  induction items generalizing queue with
  | nil => exact ⟨rfl, rfl⟩
  | cons item items ih =>
    obtain ⟨hlines, hsources⟩ := elideSummarySource_lines queue item
    exact ⟨(ih _).1.trans hlines, (ih _).2.trans hsources⟩

theorem lined_elideOverflow (h : queue.summaryLines.length ≤ queue.summarySources.length)
    (hpolicy : queue.dropPolicy ≠ .summarize → Lined queue) : Lined (elideOverflow queue) := by
  unfold elideOverflow
  split
  · obtain ⟨hlines, hsources⟩ := foldl_elideSummarySource_lines
      (queue.summarySources.take (queue.summarySources.length - queue.summaryLines.length))
      { queue with
        summarySources := queue.summarySources.drop (queue.summarySources.length - queue.summaryLines.length) }
    rw [Lined, hlines, hsources, length_drop]
    exact (Nat.sub_sub_self h).symm
  · exact hpolicy ‹_›

theorem lined_enqueue (h : Lined queue) (registered : Bool) (call : EnqueueCall) :
    Lined (enqueueFollowupRun registered queue call) := by
  have hqueue : Lined (getFollowupQueue registered queue call.settings) := by
    unfold getFollowupQueue
    split
    · exact h
    · rfl
  have helided : Lined (elideOverflow (applyQueueDropPolicy (getFollowupQueue registered queue call.settings)).1) := by
    generalize getFollowupQueue registered queue call.settings = queue at hqueue
    unfold applyQueueDropPolicy
    split
    · exact lined_elideOverflow hqueue.le fun _ => hqueue
    split
    · exact lined_elideOverflow hqueue.le fun _ => hqueue
    · exact lined_elideOverflow hqueue.le fun _ => hqueue
    · rename_i hsummarize
      refine lined_elideOverflow ?_ fun hother => absurd hsummarize hother
      rw [Lined] at hqueue
      simp only [length_drop, length_append, length_map, hqueue]
      omega
  unfold enqueueFollowupRun
  simp only
  split
  · exact hqueue
  · split
    · exact helided
    · exact helided

theorem lined_consumeSource (h : Lined state.1) (source : FollowupRun) : Lined (consumeSource state source).1 := by
  unfold consumeSource
  simp only
  split
  · rename_i hmem
    rw [Lined] at h ⊢
    simp only
    rw [length_erase_of_mem hmem, length_eraseIdx, h, if_pos (idxOf_lt_length_of_mem hmem)]
  · split
    · exact h
    · exact h

theorem lined_consumeQueueSummaryDelivery (h : Lined queue) (droppedCount : Nat) (sources : List FollowupRun) :
    Lined (consumeQueueSummaryDelivery queue droppedCount sources) := by
  have hfold : ∀ state : FollowupQueueState × Nat, Lined state.1 → Lined (sources.foldl consumeSource state).1 := by
    induction sources with
    | nil => exact fun _ hstate => hstate
    | cons source sources ih => exact fun state hstate => ih _ (lined_consumeSource hstate source)
  exact hfold _ h

theorem lined_completed (h : Lined queue) (point : DrainPoint) : Lined (System.completed queue point) := by
  cases point with
  | elidedSummary entry count counted sources =>
    have hconsumed := lined_consumeQueueSummaryDelivery h sources.length sources
    have helision : ∀ {queue : FollowupQueueState}, Lined queue → Lined (consumeElision queue entry count counted) := by
      intro queue h
      unfold consumeElision
      split <;> exact h
    exact helision hconsumed
  | groupSummary sources => exact lined_consumeQueueSummaryDelivery h sources.length sources
  | _ => exact h

theorem lined_step {s : System} (h : Lined s.queue) (event : Event) : Lined (s.step event).queue := by
  cases event with
  | enqueue call =>
    simp only [System.step]
    split
    · exact h
    · exact lined_enqueue h s.registered call
  | schedule =>
    simp only [System.step]
    split
    · split <;> exact h
    · exact h
  | resume aborted =>
    have hcompleted := lined_completed h s.point
    rcases System.proceed_queue (s := { s with queue := System.completed s.queue s.point }) aborted with
      hqueue | hqueue | hqueue
    · exact hqueue ▸ hcompleted
    · exact hqueue ▸ rfl
    · exact hqueue ▸ hcompleted
  | fail deferred =>
    have hrelease : ∀ sources, Lined (System.finish { s with
        queue := releaseQueueSummaryDeliveryForRetry s.queue sources }).queue := by
      intro sources
      rw [System.finish_queue]
      exact h.trans (System.length_releaseForRetry _ _).symm
    simp only [System.step, System.fail]
    split
    · rwa [System.finish_queue]
    · rwa [System.finish_queue]
    · rwa [System.finish_queue]
    · split
      · rwa [System.finish_queue]
      · exact hrelease _
    · split
      · rwa [System.finish_queue]
      · exact hrelease _
    · exact h

/-- **The overflow is accounted for** in every state reached. -/
theorem overflow_accounted (events : List Event) :
    (System.initial.run events).queue.summaryLines.length = (System.initial.run events).queue.summarySources.length ∧
      (System.initial.run events).queue.droppedCount = (System.initial.run events).queue.summarySources.length +
        elidedCount (System.initial.run events).queue.summaryElisions +
        (System.initial.run events).queue.evictedSummaryCount := by
  have hrun : ∀ s : System, Lined s.queue → Lined (s.run events).queue := by
    induction events with
    | nil => exact fun _ h => h
    | cons event events ih => exact fun s h => ih (s.step event) (lined_step h event)
  exact ⟨hrun _ rfl, (System.balanced_run events).droppedCount⟩

end ClawWorks.FollowupQueue
