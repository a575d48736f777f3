import Mathlib.Data.List.SplitBy
import ClawWorks.FollowupQueue.Counts

/-!
# The end of a drain

- `work`, `rank`: what is left to do, and how far the drain is from doing some of it;
- `resume_decreases`: a resumption ends the drain, does some of the work, or comes nearer to that;
- `Stuck`, `stuck_resume`: without a policy that delivers it, a pending summary starts the drain again and again.
-/

namespace ClawWorks.FollowupQueue

open List

open DrainPoint (noConfusion)

/-! ## Work -/

/-- What is pending is delivered under the policy, or is only to be written off. -/
def Drainable (queue : FollowupQueueState) : Prop :=
  queue.dropPolicy = .summarize ∨ queue.droppedCount ≤ queue.evictedSummaryCount

def work (queue : FollowupQueueState) : Nat :=
  queue.items.length + queue.droppedCount

theorem length_removeQueuedItemsByRef_le (items processed : List FollowupRun) :
    (removeQueuedItemsByRef items processed).length ≤ items.length := by
  induction processed generalizing items with
  | nil => exact le_rfl
  | cons item processed ih => exact (ih (items.erase item)).trans (erase_sublist.length_le)

theorem foldl_consumeSource_frame (sources : List FollowupRun) (state : FollowupQueueState × Nat) :
    (sources.foldl consumeSource state).1.items = state.1.items ∧
      (sources.foldl consumeSource state).1.dropPolicy = state.1.dropPolicy ∧
      (sources.foldl consumeSource state).1.evictedSummaryCount = state.1.evictedSummaryCount ∧
      (sources.foldl consumeSource state).1.droppedCount = state.1.droppedCount ∧
      state.2 ≤ (sources.foldl consumeSource state).2 := by
  induction sources generalizing state with
  | nil => exact ⟨rfl, rfl, rfl, rfl, le_rfl⟩
  | cons source sources ih =>
    have hone : (consumeSource state source).1.items = state.1.items ∧
        (consumeSource state source).1.dropPolicy = state.1.dropPolicy ∧
        (consumeSource state source).1.evictedSummaryCount = state.1.evictedSummaryCount ∧
        (consumeSource state source).1.droppedCount = state.1.droppedCount ∧
        state.2 ≤ (consumeSource state source).2 := by
      unfold consumeSource
      simp only
      split
      · exact ⟨rfl, rfl, rfl, rfl, Nat.le_succ _⟩
      · split
        · exact ⟨rfl, rfl, rfl, rfl, Nat.le_succ _⟩
        · exact ⟨rfl, rfl, rfl, rfl, le_rfl⟩
    obtain ⟨hitems, hpolicy, hevicted, hdropped, hcount⟩ := ih (consumeSource state source)
    exact ⟨hitems.trans hone.1, hpolicy.trans hone.2.1, hevicted.trans hone.2.2.1, hdropped.trans hone.2.2.2.1,
      hone.2.2.2.2.trans hcount⟩

variable (queue : FollowupQueueState)

theorem consumeQueueSummaryDelivery_frame (droppedCount : Nat) (sources : List FollowupRun) :
    (consumeQueueSummaryDelivery queue droppedCount sources).items = queue.items ∧
      (consumeQueueSummaryDelivery queue droppedCount sources).dropPolicy = queue.dropPolicy ∧
      (consumeQueueSummaryDelivery queue droppedCount sources).evictedSummaryCount = queue.evictedSummaryCount ∧
      (consumeQueueSummaryDelivery queue droppedCount sources).droppedCount ≤ queue.droppedCount := by
  obtain ⟨hitems, hpolicy, hevicted, hdropped, -⟩ :=
    foldl_consumeSource_frame sources (queue, if sources = [] then droppedCount else 0)
  unfold consumeQueueSummaryDelivery
  exact ⟨hitems, hpolicy, hevicted, (Nat.sub_le _ _).trans hdropped.le⟩

theorem consumeElision_frame (object fewer : Nat) (counted : List FollowupRun) :
    (consumeElision queue object fewer counted).items = queue.items ∧
      (consumeElision queue object fewer counted).dropPolicy = queue.dropPolicy ∧
      (consumeElision queue object fewer counted).evictedSummaryCount = queue.evictedSummaryCount ∧
      (consumeElision queue object fewer counted).droppedCount ≤ queue.droppedCount := by
  unfold consumeElision
  split
  · exact ⟨rfl, rfl, rfl, le_rfl⟩
  · exact ⟨rfl, rfl, rfl, Nat.sub_le _ _⟩

theorem completed_frame (point : DrainPoint) : (System.completed queue point).items.length ≤ queue.items.length ∧
      (System.completed queue point).dropPolicy = queue.dropPolicy ∧
      (System.completed queue point).evictedSummaryCount = queue.evictedSummaryCount ∧
      (System.completed queue point).droppedCount ≤ queue.droppedCount := by
  cases point with
  | abortedRun afterDebounce index item dropped =>
    exact ⟨(eraseIdx_sublist _ _).length_le, rfl, rfl, le_rfl⟩
  | elidedSummary entry fewer counted sources =>
    obtain ⟨hitems, hpolicy, hevicted, hdropped⟩ := consumeQueueSummaryDelivery_frame queue sources.length sources
    obtain ⟨hitems', hpolicy', hevicted', hdropped'⟩ :=
      consumeElision_frame (consumeQueueSummaryDelivery queue sources.length sources) entry fewer counted
    simp only [System.completed]
    exact ⟨by rw [hitems', hitems], hpolicy'.trans hpolicy, hevicted'.trans hevicted, hdropped'.trans hdropped⟩
  | groupSummary sources =>
    obtain ⟨hitems, hpolicy, hevicted, hdropped⟩ := consumeQueueSummaryDelivery_frame queue sources.length sources
    simp only [System.completed]
    exact ⟨by rw [hitems], hpolicy, hevicted, hdropped⟩
  | itemRun item | batchRun groupItems groups => exact ⟨length_removeQueuedItemsByRef_le _ _, rfl, rfl, le_rfl⟩
  | _ => exact ⟨le_rfl, rfl, rfl, le_rfl⟩

theorem work_completed_le (point : DrainPoint) : work (System.completed queue point) ≤ work queue := by
  obtain ⟨hitems, -, -, hdropped⟩ := completed_frame queue point
  unfold work
  omega

theorem drainable_completed {queue : FollowupQueueState} (h : Drainable queue) (point : DrainPoint) :
    Drainable (System.completed queue point) := by
  obtain ⟨-, hpolicy, hevicted, hdropped⟩ := completed_frame queue point
  rcases h with hsummarize | hevictedOnly
  · exact .inl (hpolicy.trans hsummarize)
  · exact .inr (by omega)

namespace System

variable {s : System}

variable (aborted : FollowupRun → Bool)

theorem work_proceed_le : work (s.proceed aborted).queue ≤ work s.queue := by
  rcases proceed_queue (s := s) aborted with hqueue | hqueue | hqueue <;> rw [hqueue]
  · exact Nat.add_le_add_left (Nat.zero_le _) _
  · exact Nat.add_le_add_left (Nat.sub_le _ _) _

theorem drainable_proceed (h : Drainable s.queue) (aborted : FollowupRun → Bool) :
    Drainable (s.proceed aborted).queue := by
  rcases proceed_queue (s := s) aborted with hqueue | hqueue | hqueue <;> rw [hqueue]
  · exact h
  · exact .inr le_rfl
  · rcases h with hsummarize | hevictedOnly
    · exact .inl hsummarize
    · exact .inr (Nat.sub_le_iff_le_add.mpr (by simpa [writeOffEvicted] using hevictedOnly))

theorem drainable_resume (h : Drainable s.queue) (aborted : FollowupRun → Bool) : Drainable (s.resume aborted).queue :=
  drainable_proceed (drainable_completed h s.point) aborted

/-! ## Rank -/

/-- What is awaited takes something off the queue. -/
def Effective (s : System) : Prop :=
  work (completed s.queue s.point) < work s.queue

instance : DecidablePred Effective := fun _ => inferInstanceAs (Decidable (_ < _))

/-- Points from which the drain may start again without having done anything have the high ranks: it only comes to
them where messages were enqueued meanwhile. -/
def rank (s : System) : Nat :=
  match s.point with
  | .idle => 0
  | .top | .overflowed true => 12
  | .scanned false _ => 10
  | .debounce => 9
  | .scanned true _ => 7
  | .elisionsSkipped => if s.queue.summarySources ≠ [] ∧ s.queue.dropPolicy = .summarize then 5 else 16
  | .collectSkipped => if s.queue.items ≠ [] then 2 else 13
  | .overflowed false => 15
  | .empty => 14
  | .batchRun _ contextGroups => if s.Effective then 1 else 20 + contextGroups.length
  | .abortedRun _ _ _ _ | .elidedSummary _ _ _ _ | .groupSummary _ | .itemRun _ => if s.Effective then 1 else 20

/-- The drain is over and its queue, without messages and without a pending summary, given up. -/
structure Ended (s : System) : Prop where
  point : s.point = .idle
  unregistered : s.registered = false
  items : s.queue.items = []
  droppedCount : s.queue.droppedCount = 0

/-- The drain has ended, or its rank is low. -/
def Within (s : System) (bound : Nat) : Prop :=
  s.Ended ∨ s.rank ≤ bound

theorem Within.mono {bound bound' : Nat} (h : s.Within bound) (hle : bound ≤ bound') : s.Within bound' :=
  h.imp_right fun hrank => hrank.trans hle

theorem finish_ended (h : s.queue.items = [] ∧ s.queue.droppedCount = 0) : s.finish.Ended := by
  unfold finish
  rw [if_pos h]
  exact ⟨rfl, rfl, h.1, h.2⟩

theorem finish_within : s.finish.Within 12 := by
  by_cases hdone : s.queue.items = [] ∧ s.queue.droppedCount = 0
  · exact .inl (finish_ended hdone)
  · unfold finish
    rw [if_neg hdone]
    exact .inr le_rfl

variable (afterDebounce : Bool)

theorem scanAborted_within (dropped : Nat) {index : Nat} :
    (s.scanAborted aborted afterDebounce dropped index).Within 12 ∧ (index ≤ s.queue.items.length →
        (s.scanAborted aborted afterDebounce dropped index).Within (if afterDebounce then 7 else 10)) := by
  induction index with
  | zero =>
    cases afterDebounce with
    | false => exact ⟨.inr (show 10 ≤ 12 by decide), fun _ => .inr le_rfl⟩
    | true => exact ⟨.inr (show 7 ≤ 12 by decide), fun _ => .inr le_rfl⟩
  | succ index ih =>
    unfold scanAborted
    split
    · rename_i hnone
      refine ⟨finish_within, fun hle => absurd (getElem?_eq_none_iff.mp hnone) (by omega)⟩
    · rename_i item hsome
      split
      · have hindex : index < s.queue.items.length := (List.getElem?_eq_some_iff.mp hsome).1
        have heffective : Effective { s with point := .abortedRun afterDebounce index item dropped } := by
          have hlength := List.length_eraseIdx_of_lt hindex
          unfold Effective work completed
          simp only
          omega
        have hrank : rank { s with point := .abortedRun afterDebounce index item dropped } ≤ 1 := by
          unfold rank
          simp only [if_pos heffective, le_refl]
        refine ⟨.inr (hrank.trans (by decide)), fun _ => .inr (hrank.trans ?_)⟩
        split <;> decide
      · exact ⟨ih.1, fun hle => ih.2 (by omega)⟩

theorem loopTop_within : (s.loopTop aborted).Within 10 := by
  unfold loopTop
  split
  · rename_i hdone
    exact .inl (finish_ended hdone)
  · exact (scanAborted_within aborted false 0).2 le_rfl

theorem drainNext_within (hitems : s.queue.items ≠ []) : s.drainNext.Within 1 := by
  unfold drainNext
  split
  · rename_i hnil
    exact absurd hnil hitems
  · rename_i next rest hcons
    have heffective : Effective { s with point := .itemRun next } := by
      unfold Effective work completed removeQueuedItemsByRef
      simp only [hcons, foldl_cons, foldl_nil, erase_cons_head, length_cons]
      omega
    refine .inr ?_
    unfold rank
    simp only [if_pos heffective, le_refl]

theorem collect_within : s.collect.Within 14 ∧ (s.queue.items ≠ [] → s.collect.Within 2) := by
  have hnext : ∀ s : System, s.drainNext.Within 14 := by
    intro s
    by_cases hitems : s.queue.items = []
    · unfold drainNext
      rw [hitems]
      exact .inr le_rfl
    · exact (drainNext_within hitems).mono (by decide)
  unfold collect
  split
  · split
    · refine ⟨.inr ?_, fun hitems => .inr ?_⟩
      · unfold rank
        simp only
        split <;> decide
      · unfold rank
        simp only [if_pos hitems, le_refl]
    · refine ⟨hnext _, fun hitems => Within.mono (drainNext_within ?_) (show 1 ≤ 2 by decide)⟩
      exact hitems
  · exact ⟨hnext s, fun hitems => (drainNext_within hitems).mono (by decide)⟩

theorem runBatches_within (groups : List (List FollowupRun)) :
    (s.runBatches aborted groups).Within (19 + groups.length) := by
  cases groups with
  | nil => exact (loopTop_within aborted).mono (by simp)
  | cons group groups =>
    refine .inr ?_
    unfold runBatches rank
    simp only [length_cons]
    split <;> omega

theorem runBatches_split_within (hitems : s.queue.items ≠ []) :
    (s.runBatches aborted (splitCollectItemsByDeliveryContext s.queue.items)).Within 1 := by
  have hflatten : (splitCollectItemsByDeliveryContext s.queue.items).flatten = s.queue.items := flatten_splitBy _ _
  cases hgroups : splitCollectItemsByDeliveryContext s.queue.items with
  | nil => rw [hgroups] at hflatten; exact absurd hflatten.symm hitems
  | cons group groups =>
    have hgroup : group ≠ [] := by
      rintro rfl
      exact nil_notMem_splitBy _ s.queue.items (by
        unfold splitCollectItemsByDeliveryContext at hgroups
        rw [hgroups]
        exact mem_cons_self)
    obtain ⟨first, rest, rfl⟩ := exists_cons_of_ne_nil hgroup
    rw [hgroups, flatten_cons] at hflatten
    have heffective : Effective { s with point := .batchRun (first :: rest) groups } := by
      have hle := length_removeQueuedItemsByRef_le (s.queue.items.erase first) rest
      have herase : (s.queue.items.erase first).length + 1 = s.queue.items.length := by
        rw [← hflatten]
        simp
      unfold Effective work completed
      simp only
      unfold removeQueuedItemsByRef at hle ⊢
      rw [foldl_cons]
      omega
    refine .inr ?_
    unfold runBatches rank
    simp only [if_pos heffective, le_refl]

theorem consumeQueueSummaryDelivery_lt {queue : FollowupQueueState} {source : FollowupRun}
    (sources : List FollowupRun) (droppedCount : Nat) (hmem : source ∈ queue.summarySources)
    (hdropped : 0 < queue.droppedCount) :
    (consumeQueueSummaryDelivery queue droppedCount (source :: sources)).droppedCount < queue.droppedCount := by
  obtain ⟨-, -, -, hframe, hcount⟩ := foldl_consumeSource_frame sources (consumeSource (queue, 0) source)
  have hfirst : (consumeSource (queue, 0) source).2 = 1 ∧
      (consumeSource (queue, 0) source).1.droppedCount = queue.droppedCount := by
    unfold consumeSource
    rw [if_pos hmem]
    exact ⟨rfl, rfl⟩
  unfold consumeQueueSummaryDelivery
  simp only [reduceCtorEq, if_false, foldl_cons]
  omega

theorem drainSourceGroup_within (hbalanced : Balanced s.queue 0) : s.drainSourceGroup.Within 15 ∧
      (s.queue.summarySources ≠ [] ∧ s.queue.dropPolicy = .summarize → s.drainSourceGroup.Within 1) := by
  unfold drainSourceGroup
  split
  · rename_i hprompt
    have heffective : Effective { s with point := .groupSummary (resolveOverflowSummarySourceGroup s.queue) } := by
      simp only [hasSummaryPrompt, decide_eq_true_eq] at hprompt
      obtain ⟨source, sources, hsources⟩ := exists_cons_of_length_pos hprompt.2
      have hmem := (resolveOverflowSummarySourceGroup_sublist s.queue).subset (hsources ▸ mem_cons_self)
      have hpos := length_pos_of_mem hmem
      have hdropped := hbalanced.droppedCount
      have hlt := consumeQueueSummaryDelivery_lt sources (sources.length + 1) hmem (by omega)
      obtain ⟨hitems, -⟩ := consumeQueueSummaryDelivery_frame s.queue (sources.length + 1) (source :: sources)
      unfold Effective work completed
      simp only [hsources, length_cons, hitems]
      omega
    have hrank : rank { s with point := .groupSummary (resolveOverflowSummarySourceGroup s.queue) } ≤ 1 := by
      unfold rank
      simp only [if_pos heffective, le_refl]
    exact ⟨.inr (hrank.trans (by decide)), fun _ => .inr hrank⟩
  · rename_i hprompt
    refine ⟨.inr le_rfl, fun ⟨hsources, hpolicy⟩ => absurd ?_ hprompt⟩
    obtain ⟨source, sources, hsources⟩ := exists_cons_of_ne_nil hsources
    simp [hasSummaryPrompt, hpolicy, resolveOverflowSummarySourceGroup, hsources]

theorem drainOverflow_nearer (hbalanced : Balanced s.queue 0) (hdrainable : Drainable s.queue)
    (hdropped : 0 < s.queue.droppedCount) :
    work s.drainOverflow.queue < work s.queue ∨ s.drainOverflow.Within 5 := by
  have hcounts := hbalanced.droppedCount
  unfold drainOverflow
  split
  · refine .inl ?_
    simp only [work, writeOffEvicted]
    omega
  · rename_i hevicted
    refine .inr ?_
    have hpolicy : s.queue.dropPolicy = .summarize := hdrainable.resolve_right (by omega)
    split
    · rename_i helisions
      rw [helisions, elidedCount_nil] at hcounts
      have hsources : s.queue.summarySources ≠ [] := by
        intro hnil
        rw [hnil, length_nil] at hcounts
        omega
      refine .inr ?_
      unfold rank
      simp only [if_pos (And.intro hsources hpolicy), le_refl]
    · rename_i entry entries helisions
      have hcount := hbalanced.counts entry (helisions ▸ mem_cons_self)
      have hprompt : hasSummaryPrompt s.queue (entry.count + (retainedSources s.queue).length) := by
        simp only [hasSummaryPrompt, decide_eq_true_eq]
        exact ⟨hpolicy, by omega⟩
      rw [if_pos hprompt]
      have heffective : Effective { s with
          point := .elidedSummary entry.object entry.count entry.counted (retainedSources s.queue) } := by
        unfold Effective work completed
        simp only
        obtain ⟨hitems, -, -, hle⟩ := consumeElision_frame
          (consumeQueueSummaryDelivery s.queue (retainedSources s.queue).length (retainedSources s.queue)) entry.object
          entry.count entry.counted
        obtain ⟨hitems', -⟩ := consumeQueueSummaryDelivery_frame s.queue (retainedSources s.queue).length
          (retainedSources s.queue)
        rw [hitems, hitems']
        cases hretained : retainedSources s.queue with
        | nil =>
          have hfind : s.queue.summaryElisions.find? (fun other => other.object == entry.object) = some entry := by
            rw [helisions, find?_cons, beq_self_eq_true]
          have hconsumed : consumeQueueSummaryDelivery s.queue 0 [] = s.queue := rfl
          rw [length_nil, hconsumed]
          unfold consumeElision
          rw [hfind]
          simp only [Nat.min_self]
          omega
        | cons source sources =>
          have hmem := (retainedSources_sublist _).subset (hretained ▸ mem_cons_self)
          have hlt := consumeQueueSummaryDelivery_lt sources (source :: sources).length hmem hdropped
          rw [hretained] at hle
          omega
      refine .inr ?_
      unfold rank
      simp only [if_pos heffective]
      decide

/-- The drain has ended, or less is to be done, or the drain is nearer to doing some of it. -/
def Nearer (s t : System) : Prop :=
  t.Ended ∨ work t.queue < work s.queue ∨ t.rank < s.rank

theorem Within.nearer {t : System} {bound : Nat} (h : t.Within bound) (hlt : bound < s.rank) : Nearer s t :=
  h.imp_right fun hrank => .inr (hrank.trans_lt hlt)

theorem afterScan_nearer (hbalanced : Balanced s.queue 0) (hdrainable : Drainable s.queue) (afterDebounce : Bool)
    (dropped : Nat) (hpoint : s.point = .scanned afterDebounce dropped) :
    Nearer s (s.afterScan afterDebounce dropped) := by
  have hrank : s.rank = if afterDebounce then 7 else 10 := by
    unfold rank
    rw [hpoint]
    cases afterDebounce <;> rfl
  unfold afterScan
  simp only
  split
  · rename_i hcleared
    rw [if_pos ⟨hcleared.2, rfl⟩]
    exact .inl (finish_ended ⟨hcleared.2, rfl⟩)
  · split
    · rename_i hdone
      exact .inl (finish_ended hdone)
    · rename_i hwork
      cases afterDebounce with
      | false =>
        rw [if_pos rfl]
        exact .inr (.inr (hrank ▸ show 9 < 10 by decide))
      | true =>
        rw [if_neg (Bool.noConfusion)]
        split
        · rename_i hdropped
          rcases drainOverflow_nearer hbalanced hdrainable hdropped with hless | hwithin
          · exact .inr (.inl hless)
          · exact hwithin.nearer (hrank ▸ show 5 < 7 by decide)
        · rename_i hnone
          have hitems : s.queue.items ≠ [] := fun hnil => hwork ⟨hnil, by omega⟩
          exact (collect_within.2 hitems).nearer (hrank ▸ show 2 < 7 by decide)

theorem resume_nearer (hbalanced : Balanced s.queue 0) (hdrainable : Drainable s.queue) (hdraining : s.point ≠ .idle)
    (aborted : FollowupRun → Bool) : Nearer s (s.resume aborted) := by
  have hle : work (s.resume aborted).queue ≤ work (completed s.queue s.point) :=
    work_proceed_le (s := { s with queue := completed s.queue s.point }) aborted
  by_cases heffective : s.Effective
  · exact .inr (.inl (hle.trans_lt heffective))
  obtain ⟨queue, registered, point, force⟩ := s
  unfold resume proceed
  cases point with
  | idle => exact absurd rfl hdraining
  | top => exact (loopTop_within aborted).nearer (show 10 < 12 by decide)
  | abortedRun afterDebounce index item dropped =>
    refine ((scanAborted_within aborted afterDebounce (dropped + 1)).1).nearer ?_
    unfold rank
    simp only [if_neg heffective]
    decide
  | scanned afterDebounce dropped => exact afterScan_nearer hbalanced hdrainable afterDebounce dropped rfl
  | debounce => exact ((scanAborted_within aborted true 0).2 le_rfl).nearer (show 7 < 9 by decide)
  | elidedSummary entry count counted sources | groupSummary sources | itemRun item =>
    refine .inr (.inr ?_)
    show 12 < _
    unfold rank
    simp only [if_neg heffective]
    decide
  | elisionsSkipped =>
    have hgroup := drainSourceGroup_within (s := ⟨queue, registered, .elisionsSkipped, force⟩) hbalanced
    by_cases hsources : queue.summarySources ≠ [] ∧ queue.dropPolicy = .summarize
    · refine (hgroup.2 hsources).nearer ?_
      unfold rank
      simp only [if_pos hsources]
      decide
    · refine hgroup.1.nearer ?_
      unfold rank
      simp only [if_neg hsources]
      decide
  | overflowed drained =>
    cases drained with
    | true => exact (loopTop_within aborted).nearer (show 10 < 12 by decide)
    | false => exact collect_within.1.nearer (show 14 < 15 by decide)
  | collectSkipped =>
    by_cases hitems : queue.items = []
    · have hrank : rank ⟨queue, registered, .collectSkipped, force⟩ = 13 := by
        unfold rank
        simp only [ne_eq, hitems, not_true_eq_false, if_false]
      have hgroups : splitCollectItemsByDeliveryContext queue.items = [] := splitBy_eq_nil.mpr hitems
      simp only [completed, hgroups]
      exact finish_within.nearer (hrank ▸ show 12 < 13 by decide)
    · have hrank : rank ⟨queue, registered, .collectSkipped, force⟩ = 2 := by
        unfold rank
        simp only [ne_eq, hitems, not_false_eq_true, if_true]
      have hbatches := runBatches_split_within (s := ⟨queue, registered, .collectSkipped, force⟩) aborted hitems
      simp only [completed]
      split
      · rename_i hnil
        exact absurd (splitBy_eq_nil.mp hnil) hitems
      · exact hbatches.nearer (hrank ▸ show 1 < 2 by decide)
  | batchRun groupItems groups =>
    refine (runBatches_within aborted groups).nearer ?_
    unfold rank
    simp only [if_neg heffective]
    omega
  | empty => exact finish_within.nearer (show 12 < 14 by decide)

/-! ## The drain ends -/

/-- Resumptions one after the other, nothing being enqueued and nothing failing. -/
def drainFor (signals : Nat → FollowupRun → Bool) (s : System) : Nat → System
  | 0 => s
  | steps + 1 => drainFor (fun step => signals (step + 1)) (s.resume (signals 0)) steps

/-- Whatever is aborted, the drain ends. -/
def Ends (s : System) : Prop :=
  ∀ signals : Nat → FollowupRun → Bool, ∃ steps, (s.drainFor signals steps).Ended

theorem resume_ends (h : ∀ aborted, (s.resume aborted).Ended ∨ (s.resume aborted).Ends) : s.Ends := by
  intro signals
  rcases h (signals 0) with hended | hends
  · exact ⟨1, hended⟩
  · obtain ⟨steps, hsteps⟩ := hends fun step => signals (step + 1)
    exact ⟨steps + 1, hsteps⟩

/-- Where the drain is idle it has ended. -/
def Over (s : System) : Prop :=
  s.point = .idle → s.Ended

theorem finish_over : s.finish.Over := by
  intro hidle
  unfold finish at hidle ⊢
  split
  · rename_i hdone
    exact ⟨rfl, rfl, hdone.1, hdone.2⟩
  · rename_i hpending
    rw [if_neg hpending] at hidle
    exact noConfusion hidle

theorem scanAborted_over (dropped index : Nat) : (s.scanAborted aborted afterDebounce dropped index).Over := by
  induction index with
  | zero => exact fun hidle => noConfusion hidle
  | succ index ih =>
    unfold scanAborted
    split
    · exact finish_over
    · split
      · exact fun hidle => noConfusion hidle
      · exact ih

theorem loopTop_over : (s.loopTop aborted).Over := by
  unfold loopTop
  split
  · exact finish_over
  · exact scanAborted_over _ _ _ _

theorem drainNext_over : s.drainNext.Over := by
  unfold drainNext
  split <;> exact fun hidle => noConfusion hidle

theorem collect_over : s.collect.Over := by
  unfold collect
  split
  · split
    · exact fun hidle => noConfusion hidle
    · exact drainNext_over
  · exact drainNext_over

theorem runBatches_over (groups : List (List FollowupRun)) : (s.runBatches aborted groups).Over := by
  cases groups with
  | nil => exact loopTop_over aborted
  | cons => exact fun hidle => noConfusion hidle

theorem drainSourceGroup_over : s.drainSourceGroup.Over := by
  unfold drainSourceGroup
  split <;> exact fun hidle => noConfusion hidle

theorem drainOverflow_over : s.drainOverflow.Over := by
  unfold drainOverflow
  split
  · exact fun hidle => noConfusion hidle
  · split
    · exact fun hidle => noConfusion hidle
    · split <;> exact fun hidle => noConfusion hidle

theorem afterScan_over (dropped : Nat) : (s.afterScan afterDebounce dropped).Over := by
  unfold afterScan
  simp only
  generalize (if 0 < dropped ∧ s.queue.items = [] then
    { s with queue := clearFollowupQueueSummaryState s.queue } else s) = s'
  split
  · exact finish_over
  · split
    · exact fun hidle => noConfusion hidle
    · split
      · exact drainOverflow_over
      · exact collect_over

theorem resume_over (hdraining : s.point ≠ .idle) (aborted : FollowupRun → Bool) : (s.resume aborted).Over := by
  obtain ⟨queue, registered, point, force⟩ := s
  unfold resume proceed
  cases point with
  | idle => exact absurd rfl hdraining
  | top => exact loopTop_over aborted
  | abortedRun afterDebounce index item dropped | debounce => exact scanAborted_over _ _ _ _
  | scanned afterDebounce dropped => exact afterScan_over afterDebounce dropped
  | elidedSummary entry count counted sources | groupSummary sources | itemRun item =>
    exact fun hidle => noConfusion hidle
  | elisionsSkipped => exact drainSourceGroup_over
  | overflowed drained =>
    cases drained with
    | true => exact loopTop_over aborted
    | false => exact collect_over
  | collectSkipped =>
    simp only
    split
    · exact finish_over
    · exact runBatches_over aborted _
  | batchRun groupItems groups => exact runBatches_over aborted groups
  | empty => exact finish_over

theorem work_resume_le : work (s.resume aborted).queue ≤ work s.queue :=
  (work_proceed_le (s := { s with queue := completed s.queue s.point }) aborted).trans (work_completed_le _ _)

theorem ends_of_drainable (hbalanced : Balanced s.queue 0) (hdrainable : Drainable s.queue)
    (hdraining : s.point ≠ .idle) : s.Ends := by
  -- on the work left, and while that stays the same on the rank
  induction hwork : work s.queue using Nat.strong_induction_on generalizing s with
  | _ amount ihwork =>
    induction hrank : s.rank using Nat.strong_induction_on generalizing s with
    | _ distance ihrank =>
      refine resume_ends fun aborted => ?_
      by_cases hidle : (s.resume aborted).point = .idle
      · exact .inl (resume_over hdraining aborted hidle)
      have hbalanced' := balanced_resume hbalanced aborted
      have hdrainable' := drainable_resume hdrainable aborted
      rcases resume_nearer hbalanced hdrainable hdraining aborted with hended | hless | hnear
      · exact .inl hended
      · exact .inr (ihwork _ (hwork ▸ hless) hbalanced' hdrainable' hidle rfl)
      · rcases (work_resume_le (s := s) aborted).lt_or_eq with hless | hequal
        · exact .inr (ihwork _ (hwork ▸ hless) hbalanced' hdrainable' hidle rfl)
        · exact .inr (ihrank _ (hrank ▸ hnear) hbalanced' hdrainable' hidle (hequal.trans hwork) rfl)

/-! ## A summary that cannot be delivered -/

/-- A summary is pending under a policy that delivers none, and the drain is at none. -/
structure Stuck (s : System) : Prop where
  dropPolicy : s.queue.dropPolicy ≠ .summarize
  droppedCount : s.queue.evictedSummaryCount < s.queue.droppedCount
  point : match s.point with
    | .scanned _ dropped => dropped = 0
    | .idle | .abortedRun _ _ _ _ | .elidedSummary _ _ _ _ | .groupSummary _ => False
    | _ => True

theorem hasSummaryPrompt_eq_false {queue : FollowupQueueState} (hpolicy : queue.dropPolicy ≠ .summarize)
    (droppedCount : Nat) : hasSummaryPrompt queue droppedCount = false := by
  simp [hasSummaryPrompt, hpolicy]

section Pending

variable (hpolicy : s.queue.dropPolicy ≠ .summarize) (hdropped : s.queue.evictedSummaryCount < s.queue.droppedCount)
include hpolicy hdropped

theorem finish_stuck : s.finish.Stuck := by
  unfold finish
  rw [if_neg fun hdone => by omega]
  exact ⟨hpolicy, hdropped, trivial⟩

theorem scanAborted_stuck (afterDebounce : Bool) (index : Nat) :
    (s.scanAborted (fun _ => false) afterDebounce 0 index).Stuck := by
  induction index with
  | zero => exact ⟨hpolicy, hdropped, rfl⟩
  | succ index ih =>
    unfold scanAborted
    split
    · exact finish_stuck hpolicy hdropped
    · exact ih

theorem loopTop_stuck : (s.loopTop fun _ => false).Stuck := by
  unfold loopTop
  split
  · exact finish_stuck hpolicy hdropped
  · exact scanAborted_stuck hpolicy hdropped _ _

theorem drainNext_stuck : s.drainNext.Stuck := by
  unfold drainNext
  split <;> exact ⟨hpolicy, hdropped, trivial⟩

theorem collect_stuck : s.collect.Stuck := by
  unfold collect
  split
  · split
    · exact ⟨hpolicy, hdropped, trivial⟩
    · exact drainNext_stuck hpolicy hdropped
  · exact drainNext_stuck hpolicy hdropped

theorem drainOverflow_stuck : s.drainOverflow.Stuck := by
  unfold drainOverflow
  split
  · exact ⟨hpolicy, Nat.sub_pos_of_lt hdropped, trivial⟩
  · split
    · exact ⟨hpolicy, hdropped, trivial⟩
    · rw [if_neg (by rw [hasSummaryPrompt_eq_false hpolicy]; exact Bool.false_ne_true)]
      exact ⟨hpolicy, hdropped, trivial⟩

theorem drainSourceGroup_stuck : s.drainSourceGroup.Stuck := by
  unfold drainSourceGroup
  rw [if_neg (by rw [hasSummaryPrompt_eq_false hpolicy]; exact Bool.false_ne_true)]
  exact ⟨hpolicy, hdropped, trivial⟩

theorem runBatches_stuck (groups : List (List FollowupRun)) : (s.runBatches (fun _ => false) groups).Stuck := by
  cases groups with
  | nil => exact loopTop_stuck hpolicy hdropped
  | cons => exact ⟨hpolicy, hdropped, trivial⟩

end Pending

theorem stuck_resume (h : s.Stuck) : (s.resume fun _ => false).Stuck := by
  obtain ⟨queue, registered, point, force⟩ := s
  obtain ⟨hpolicy, hdropped, hpoint⟩ := h
  unfold resume proceed
  cases point with
  | top => exact loopTop_stuck hpolicy hdropped
  | scanned afterDebounce dropped =>
    have hnone : dropped = 0 := hpoint
    subst hnone
    unfold afterScan
    simp only [Nat.lt_irrefl, false_and, if_false, completed]
    split
    · exact finish_stuck hpolicy hdropped
    · split
      · exact ⟨hpolicy, hdropped, trivial⟩
      · split
        · exact drainOverflow_stuck hpolicy hdropped
        · exact collect_stuck hpolicy hdropped
  | debounce => exact scanAborted_stuck hpolicy hdropped _ _
  | elisionsSkipped => exact drainSourceGroup_stuck hpolicy hdropped
  | overflowed drained =>
    cases drained with
    | true => exact loopTop_stuck hpolicy hdropped
    | false => exact collect_stuck hpolicy hdropped
  | itemRun item => exact ⟨hpolicy, hdropped, trivial⟩
  | collectSkipped =>
    simp only
    split
    · exact finish_stuck hpolicy hdropped
    · exact runBatches_stuck hpolicy hdropped _
  | batchRun groupItems groups =>
    refine runBatches_stuck ?_ ?_ groups
    · exact hpolicy
    · exact hdropped
  | empty => exact finish_stuck hpolicy hdropped
  | idle | abortedRun | elidedSummary | groupSummary => exact hpoint.elim

/-- **A summary that the policy does not deliver starts the drain again and again.** -/
theorem not_ends_of_stuck (h : s.Stuck) : ¬ s.Ends := by
  intro hends
  obtain ⟨steps, hended⟩ := hends fun _ _ => false
  have hstuck : (s.drainFor (fun _ _ => false) steps).Stuck := by
    clear hended hends
    induction steps generalizing s with
    | zero => exact h
    | succ steps ih => exact ih (stuck_resume h)
  have hpoint := hstuck.point
  rw [hended.point] at hpoint
  exact hpoint

/-- **From every state reached, the drain of a registered queue ends where it is drainable; between deliveries only
there.** -/
theorem drain_ends_iff (events : List Event) (hregistered : (initial.run events).registered = true) :
    (Drainable (initial.run events).queue → ((initial.run events).step .schedule).Ends) ∧
      ((initial.run events).point = .idle ∨ (initial.run events).point = .top →
        ((initial.run events).step .schedule).Ends → Drainable (initial.run events).queue) := by
  have hbalanced := balanced_run events
  generalize initial.run events = s at *
  refine ⟨fun hdrainable => ?_, fun hpoint hends => ?_⟩
  · have hqueue : (s.step .schedule).queue = s.queue := by
      simp only [step]
      split
      · split <;> rfl
      · rfl
    refine ends_of_drainable (hqueue ▸ hbalanced) (hqueue ▸ hdrainable) ?_
    simp only [step]
    split
    · rw [if_pos hregistered]
      exact fun hidle => DrainPoint.noConfusion hidle
    · rename_i hdraining
      exact hdraining
  · by_contra hstuck
    simp only [Drainable, not_or, not_le] at hstuck
    refine not_ends_of_stuck ?_ hends
    simp only [step]
    rcases hpoint with hidle | htop
    · rw [hidle]
      simp only [if_pos hregistered]
      exact ⟨hstuck.1, hstuck.2, trivial⟩
    · rw [htop]
      exact ⟨hstuck.1, hstuck.2, by rw [htop]; trivial⟩

end System

section PolicyChange

/-- Three messages with a cap of one. -/
def message (object : Nat) : FollowupRun where
  object := object
  prompt := js "hi"
  deliveryContextKey := js "chat"

def call (object : Nat) (dropPolicy : QueueDropPolicy) : EnqueueCall where
  run := message object
  settings := { mode := .followup, cap := some 1, dropPolicy := some dropPolicy }

theorem summarized_drain_ends :
    ((System.initial.run [.enqueue (call 1 .summarize), .enqueue (call 2 .summarize)]).step .schedule).Ends :=
  (System.drain_ends_iff [.enqueue (call 1 .summarize), .enqueue (call 2 .summarize)] (by decide)).1 (Or.inl rfl)

/-- The message dropped for the second one is to be summarized, but the third call changes the policy. -/
theorem policy_change_drains_forever :
    ¬ ∀ events : List Event, (System.initial.run events).registered = true →
      ((System.initial.run events).step .schedule).Ends := by
  intro h
  have hends := h [.enqueue (call 1 .summarize), .enqueue (call 2 .summarize), .enqueue (call 3 .old)] (by decide)
  refine System.not_ends_of_stuck ⟨?_, ?_, ?_⟩ hends
  · decide
  · decide
  · trivial

end PolicyChange

end ClawWorks.FollowupQueue
