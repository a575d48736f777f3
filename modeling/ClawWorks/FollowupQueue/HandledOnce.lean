import Mathlib.Data.List.SplitBy
import ClawWorks.FollowupQueue.Pending

/-!
# What becomes of follow-up messages

- `Settled`, `AwaitedPresent`: the books are right, and what the drain awaits is still in the queue;
- `handledOnce_step`, `handledOnce_run`: calm steps keep all of this.
-/

namespace ClawWorks.FollowupQueue

open List List.Sublist List.Perm

/-- The ends of messages. -/
def Ledger.outcomes (ledger : Ledger) : List FollowupRun :=
  ledger.delivered.flatten ++ ledger.summarized ++ ledger.dropped ++ ledger.aborted

/-- Each accepted message waits in the queue, is pending in its summary, or has met one end. -/
def Accounted (queue : FollowupQueueState) : Prop :=
  queue.ledger.accepted.Perm (queue.items ++ queue.pending ++ queue.ledger.outcomes)

/-- Messages go from the queue to the summary, or from these to those dropped. -/
structure Moves (queue queue' : FollowupQueueState) : Prop where
  perm : (queue.items ++ queue.pending ++ queue.ledger.dropped).Perm
    (queue'.items ++ queue'.pending ++ queue'.ledger.dropped)
  items : queue'.items.Sublist queue.items
  accepted : queue'.ledger.accepted = queue.ledger.accepted
  delivered : queue'.ledger.delivered = queue.ledger.delivered
  summarized : queue'.ledger.summarized = queue.ledger.summarized
  aborted : queue'.ledger.aborted = queue.ledger.aborted

variable {queue queue' queue'' : FollowupQueueState}

theorem Moves.refl (queue : FollowupQueueState) : Moves queue queue :=
  ⟨List.Perm.refl _, List.Sublist.refl _, rfl, rfl, rfl, rfl⟩

theorem accounted_iff : Accounted queue ↔ queue.ledger.accepted.Perm
    ((queue.items ++ queue.pending ++ queue.ledger.dropped) ++
      (queue.ledger.delivered.flatten ++ queue.ledger.summarized ++ queue.ledger.aborted)) := by
  have hperm : (queue.items ++ queue.pending ++ queue.ledger.outcomes).Perm
      ((queue.items ++ queue.pending ++ queue.ledger.dropped) ++
        (queue.ledger.delivered.flatten ++ queue.ledger.summarized ++ queue.ledger.aborted)) := by
    unfold Ledger.outcomes
    rw [append_assoc (queue.items ++ queue.pending), ← append_assoc queue.ledger.dropped]
    refine append_left _ ?_
    exact perm_append_comm.append_right _
  exact ⟨fun h => h.trans hperm, fun h => h.trans hperm.symm⟩

theorem Moves.accounted (hmoves : Moves queue queue') (h : Accounted queue) : Accounted queue' := by
  rw [accounted_iff] at h ⊢
  rw [hmoves.accepted, hmoves.delivered, hmoves.summarized, hmoves.aborted]
  exact h.trans (hmoves.perm.append_right _)

theorem moves_of_pending {evicted : List FollowupRun} (hitems : queue'.items = queue.items)
    (hpending : queue.pending = evicted ++ queue'.pending)
    (hledger : queue'.ledger = { queue.ledger with dropped := queue.ledger.dropped ++ evicted }) :
    Moves queue queue' := by
  refine ⟨?_, hitems ▸ refl _, ?_, ?_, ?_, ?_⟩
  · rw [hledger, hpending, hitems]
    simp only [append_assoc]
    refine List.Perm.append_left _ (perm_append_comm.trans ?_)
    simp only [append_assoc, List.Perm.refl]
  all_goals rw [hledger]

theorem moves_evict (queue : FollowupQueueState) (evictions : Nat) :
    Moves queue (queue.evictSummaryElisions evictions) := by
  obtain ⟨evicted, hpending, hledger⟩ := evictSummaryElisions_pending queue evictions
  exact moves_of_pending rfl hpending hledger

theorem moves_clear (queue : FollowupQueueState) : Moves queue (clearFollowupQueueSummaryState queue) :=
  moves_of_pending rfl (append_nil _).symm rfl

theorem moves_applyQueueDropPolicy (queue : FollowupQueueState) : Moves queue (applyQueueDropPolicy queue).1 := by
  have hsplit : queue.items = queue.items.take (dropCount queue) ++ queue.items.drop (dropCount queue) :=
    (take_append_drop _ _).symm
  unfold applyQueueDropPolicy
  split
  · exact Moves.refl queue
  simp only
  split
  · exact Moves.refl queue
  · refine ⟨?_, drop_sublist _ _, rfl, rfl, rfl, rfl⟩
    generalize queue.items.take (dropCount queue) = dropped at hsplit ⊢
    generalize queue.items.drop (dropCount queue) = kept at hsplit ⊢
    rw [hsplit]
    simp only [append_assoc, pending_eq]
    refine perm_append_comm.trans ?_
    simp only [append_assoc, List.Perm.refl]
  · refine ⟨?_, drop_sublist _ _, rfl, rfl, rfl, rfl⟩
    generalize queue.items.take (dropCount queue) = dropped at hsplit ⊢
    generalize queue.items.drop (dropCount queue) = kept at hsplit ⊢
    rw [hsplit]
    simp only [pending_eq, ← append_assoc]
    refine List.Perm.append_right _ ?_
    simp only [append_assoc]
    refine perm_append_comm.trans ?_
    simp only [append_assoc, List.Perm.refl]

/-- The books are right. -/
structure Settled (queue : FollowupQueueState) : Prop where
  accounted : Accounted queue
  counting : Counting queue queue.ledger.summarized
  items : queue.items.Sublist queue.ledger.accepted
  delivered : ∀ batch ∈ queue.ledger.delivered, batch.Sublist queue.ledger.accepted ∧
    ∀ a ∈ batch, ∀ b ∈ batch, a.deliveryContextKey = b.deliveryContextKey

theorem Settled.of_moves (h : Settled queue) (hmoves : Moves queue queue')
    (hcounting : Counting queue' queue.ledger.summarized) : Settled queue' :=
  ⟨hmoves.accounted h.accounted, hmoves.summarized ▸ hcounting, hmoves.accepted ▸ hmoves.items.trans h.items,
    hmoves.accepted ▸ hmoves.delivered ▸ h.delivered⟩

theorem counting_applyQueueDropPolicy {settled : List FollowupRun} (h : Counting queue settled) :
    Counting (applyQueueDropPolicy queue).1 settled := by
  unfold applyQueueDropPolicy
  split
  · exact h
  · cases queue.dropPolicy <;> exact h.of_sublist (refl _) rfl

theorem settled_getFollowupQueue (h : Settled queue) {registered : Bool}
    (hregistered : registered ∨ (queue.items = [] ∧ queue.pending = [])) (settings : QueueSettings) :
    Settled (getFollowupQueue registered queue settings) := by
  unfold getFollowupQueue
  split
  · have happlied : Settled (applyQueueRuntimeSettings queue settings) :=
      ⟨h.accounted, h.counting.of_sublist (refl _) rfl, h.items, h.delivered⟩
    exact happlied.of_moves (moves_evict _ _) (counting_evict happlied.counting _)
  · rename_i hnot
    obtain ⟨hitems, hpending⟩ := hregistered.resolve_left hnot
    have haccounted := h.accounted
    unfold Accounted at haccounted
    rw [hitems, hpending] at haccounted
    refine ⟨haccounted, ?_, nil_sublist _, h.delivered⟩
    exact ⟨fun _ he => (nomatch he), fun _ he => (nomatch he), fun _ he => (nomatch he), nodup_nil,
      fun _ he => (nomatch he)⟩

theorem settled_push (h : Settled queue) (item : FollowupRun) : Settled { queue with
    items := queue.items ++ [item]
    ledger := { queue.ledger with accepted := queue.ledger.accepted ++ [item] } } := by
  refine ⟨?_, h.counting.of_sublist (refl _) rfl, h.items.append (refl _), ?_⟩
  · have hlast : ∀ front middle rest : List FollowupRun,
        (front ++ middle ++ rest ++ [item]).Perm (front ++ [item] ++ middle ++ rest) := by
      intro front middle rest
      simp only [append_assoc]
      rw [← append_assoc middle]
      exact append_left _ perm_append_comm
    exact (h.accounted.append_right [item]).trans (hlast _ _ _)
  · intro batch hbatch
    obtain ⟨hsublist, hcontext⟩ := h.delivered batch hbatch
    exact ⟨hsublist.trans (sublist_append_left _ _), hcontext⟩

theorem settled_enqueue (h : Settled queue) {registered : Bool}
    (hregistered : registered ∨ (queue.items = [] ∧ queue.pending = [])) (call : EnqueueCall) :
    Settled (enqueueFollowupRun registered queue call) := by
  have hqueue := settled_getFollowupQueue h hregistered call.settings
  generalize hgot : getFollowupQueue registered queue call.settings = got at hqueue
  have hadmitted : Settled (applyQueueDropPolicy got).1 :=
    hqueue.of_moves (moves_applyQueueDropPolicy got) (counting_applyQueueDropPolicy hqueue.counting)
  obtain ⟨hcounting, evicted, hpending, hitems, hledger⟩ := elideOverflow_pending hadmitted.counting
  have helided : Settled (elideOverflow (applyQueueDropPolicy got).1) :=
    hadmitted.of_moves (moves_of_pending hitems hpending hledger) hcounting
  unfold enqueueFollowupRun
  simp only [hgot]
  split
  · exact hqueue
  · split
    · exact helided
    · exact settled_push helided call.run

/-! ## What is being delivered -/

structure Batches (queue : FollowupQueueState) (groups : List (List FollowupRun)) : Prop where
  items : groups.flatten <+: queue.items
  contexts : ∀ group ∈ groups, ∀ a ∈ group, ∀ b ∈ group, a.deliveryContextKey = b.deliveryContextKey

/-- Messages that an entry counts and sources, none of them twice. -/
structure Summarizes (queue : FollowupQueueState) (object : Nat) (counted sources : List FollowupRun) : Prop where
  countedIn : CountedIn queue object counted
  nonempty : counted ≠ []
  distinct : counted.Nodup
  pending : sources ⊆ queue.pending
  distinctSources : sources.Nodup
  apart : ∀ source ∈ sources, source ∉ counted

def AwaitedPresent (queue : FollowupQueueState) : DrainPoint → Prop
  | .abortedRun _ index item _ => queue.items[index]? = some item
  | .itemRun item => item ∈ queue.items
  | .batchRun groupItems contextGroups => Batches queue (groupItems :: contextGroups)
  | .elidedSummary object elidedCount counted sources =>
    elidedCount = counted.length ∧ Summarizes queue object counted sources
  | .groupSummary sources => sources ⊆ queue.pending ∧ sources.Nodup
  | _ => True

/-- Messages of the queue are being run. -/
def DrainPoint.awaitsItems : DrainPoint → Bool
  | .abortedRun _ _ _ _ | .itemRun _ | .batchRun _ _ => true
  | _ => false

/-- An overflow summary is being run. -/
def DrainPoint.awaitsSummary : DrainPoint → Bool
  | .elidedSummary _ _ _ _ | .groupSummary _ => true
  | _ => false

/-- The entries that messages need, after one of a context. -/
def newContexts : Option JsString → List FollowupRun → Nat
  | _, [] => 0
  | last, item :: items =>
    (if last = some item.deliveryContextKey then 0 else 1) + newContexts (some item.deliveryContextKey) items

/-- The entries of elided summaries that the queue needs once it is over its number of summary lines. -/
def elisionsNeeded (queue : FollowupQueueState) : Nat :=
  if queue.dropPolicy = .summarize then
    queue.summaryElisions.length + newContexts (queue.summaryElisions.getLast?.map (·.contextKey))
      (queue.summarySources.take (queue.summarySources.length - queue.summaryLines.length))
  else queue.summaryElisions.length

def LeavesItems (queue : FollowupQueueState) (call : EnqueueCall) : Prop :=
  call.duplicate = true ∨ dropCount queue = 0 ∨ queue.dropPolicy = .new

/-- The entries of elided summaries find room within the cap. -/
def LeavesElisions (queue : FollowupQueueState) (call : EnqueueCall) : Prop :=
  queue.summaryElisions.length ≤ queue.cap ∧
    (call.duplicate = true ∨ elisionsNeeded (applyQueueDropPolicy queue).1 ≤ queue.cap)

/-- While messages are run no call drops one, while a summary is run no call evicts one, and no run fails. -/
def Calm (s : System) : Event → Prop
  | .enqueue call =>
    call.aborted = true ∨
      ((s.point.awaitsItems = true → LeavesItems (applyQueueRuntimeSettings s.queue call.settings) call) ∧
        (s.point.awaitsSummary = true → LeavesElisions (applyQueueRuntimeSettings s.queue call.settings) call))
  | .fail _ => False
  | _ => True

/-! ## A call while something is delivered -/

theorem enqueue_items {call : EnqueueCall} (h : LeavesItems (applyQueueRuntimeSettings queue call.settings) call) :
    ∃ pushed, (enqueueFollowupRun true queue call).items = queue.items ++ pushed := by
  have hkept : call.duplicate ≠ true → (applyQueueDropPolicy (getFollowupQueue true queue call.settings)).1.items =
      queue.items := by
    intro hduplicate
    have hroom : dropCount (getFollowupQueue true queue call.settings) = 0 ∨
        (getFollowupQueue true queue call.settings).dropPolicy = .new := h.resolve_left hduplicate
    have hitems : (getFollowupQueue true queue call.settings).items = queue.items := rfl
    unfold applyQueueDropPolicy
    split
    · exact hitems
    simp only
    split
    · exact hitems
    · rename_i hpolicy
      rw [hroom.resolve_right (by rw [hpolicy]; exact QueueDropPolicy.noConfusion), drop_zero, hitems]
    · rename_i hpolicy
      rw [hroom.resolve_right (by rw [hpolicy]; exact QueueDropPolicy.noConfusion), drop_zero, hitems]
  unfold enqueueFollowupRun
  simp only
  split
  · exact ⟨[], (append_nil _).symm⟩
  · rename_i hduplicate
    split
    · exact ⟨[], by rw [(elideOverflow_frame _).1, hkept hduplicate, append_nil]⟩
    · exact ⟨[call.run], by rw [(elideOverflow_frame _).1, hkept hduplicate]⟩

/-- What an operation that evicts nothing keeps of the pending summaries. -/
structure KeepsPending (queue queue' : FollowupQueueState) : Prop where
  pending : queue.pending ⊆ queue'.pending
  countedIn : ∀ (object : Nat) (counted : List FollowupRun),
    CountedIn queue object counted → CountedIn queue' object counted

theorem KeepsPending.trans (h : KeepsPending queue queue') (h' : KeepsPending queue' queue'') :
    KeepsPending queue queue'' :=
  ⟨fun _ hmem => h'.pending (h.pending hmem), fun object counted hcounted =>
    h'.countedIn object counted (h.countedIn object counted hcounted)⟩

theorem keepsPending_of_eq (hentries : queue'.summaryElisions = queue.summaryElisions)
    (hsources : queue.summarySources ⊆ queue'.summarySources) : KeepsPending queue queue' := by
  refine ⟨fun source hmem => ?_, fun object counted hcounted => ?_⟩
  · rw [pending_eq] at hmem ⊢
    rw [hentries]
    rcases mem_append.mp hmem with helided | hsource
    · exact mem_append_left _ helided
    · exact mem_append_right _ (hsources hsource)
  · unfold CountedIn
    rw [hentries]
    exact hcounted

def lastContext (queue : FollowupQueueState) : Option JsString :=
  queue.summaryElisions.getLast?.map (·.contextKey)

theorem elideSummarySource_keeps {item : FollowupRun}
    (hroom : lastContext queue = some item.deliveryContextKey ∨ queue.summaryElisions.length < queue.cap) :
    elidedMessages (elideSummarySource queue item).summaryElisions = elidedMessages queue.summaryElisions ++ [item] ∧
      (∀ (object : Nat) (counted : List FollowupRun), CountedIn queue object counted →
        CountedIn (elideSummarySource queue item) object counted) ∧ (elideSummarySource queue item).cap = queue.cap ∧
      (elideSummarySource queue item).summarySources = queue.summarySources ∧
      lastContext (elideSummarySource queue item) = some item.deliveryContextKey ∧
      (elideSummarySource queue item).summaryElisions.length = queue.summaryElisions.length +
        if lastContext queue = some item.deliveryContextKey then 0 else 1 := by
  have hpushed : ∀ {entry : SummaryElision} {objects : Nat} (object : Nat) (counted : List FollowupRun),
      CountedIn queue object counted → CountedIn { queue with
        summaryElisions := queue.summaryElisions ++ [entry], elisionObjects := objects } object counted := by
    rintro entry objects object counted ⟨holder, hholder, hrest⟩
    exact ⟨holder, mem_append_left _ hholder, hrest⟩
  unfold elideSummarySource lastContext at *
  simp only
  split
  · rename_i last hlast
    obtain ⟨entries, hentries⟩ := getLast?_eq_some_iff.mp hlast
    rw [hlast, Option.map_some] at hroom ⊢
    split
    · rename_i hcontext
      refine ⟨?_, ?_, rfl, rfl, ?_, ?_⟩
      · simp only [hentries, dropLast_concat, elidedMessages_append, elidedMessages_cons, elidedMessages_nil,
          append_nil, append_assoc]
      · rintro object counted ⟨holder, hholder, hobject, hsubset⟩
        simp only [CountedIn, hentries, dropLast_concat]
        rcases mem_append.mp (hentries ▸ hholder) with hold | hlast
        · exact ⟨holder, mem_append_left _ hold, hobject, hsubset⟩
        · obtain rfl := mem_singleton.mp hlast
          exact ⟨_, mem_append_right _ (mem_singleton_self _), hobject, fun source hsource =>
            mem_append_left _ (hsubset hsource)⟩
      · simp only [getLast?_concat, Option.map_some, hcontext]
      · rw [if_pos (congrArg some hcontext)]
        simp only [hentries, dropLast_concat, length_append, length_singleton, Nat.add_zero]
    · rename_i hcontext
      have hless : queue.summaryElisions.length < queue.cap :=
        hroom.resolve_left fun hsame => hcontext (Option.some.inj hsame)
      rw [if_neg (by omega), if_neg fun hsame => hcontext (Option.some.inj hsame)]
      refine ⟨?_, hpushed, rfl, rfl, ?_, ?_⟩
      · simp
      · simp
      · simp
  · rename_i hnone
    rw [hnone]
    refine ⟨?_, hpushed, rfl, rfl, ?_, ?_⟩
    · simp
    · simp
    · simp

theorem foldl_elideSummarySource_keeps (items : List FollowupRun) {queue : FollowupQueueState}
    (hroom : queue.summaryElisions.length + newContexts (lastContext queue) items ≤ queue.cap) :
    elidedMessages (items.foldl elideSummarySource queue).summaryElisions =
        elidedMessages queue.summaryElisions ++ items ∧
      (∀ (object : Nat) (counted : List FollowupRun), CountedIn queue object counted →
        CountedIn (items.foldl elideSummarySource queue) object counted) ∧
      (items.foldl elideSummarySource queue).summarySources = queue.summarySources := by
  induction items generalizing queue with
  | nil => exact ⟨(append_nil _).symm, fun _ _ hcounted => hcounted, rfl⟩
  | cons item items ih =>
    unfold newContexts at hroom
    have hone : lastContext queue = some item.deliveryContextKey ∨ queue.summaryElisions.length < queue.cap := by
      by_cases hsame : lastContext queue = some item.deliveryContextKey
      · exact .inl hsame
      · rw [if_neg hsame] at hroom
        exact .inr (by omega)
    obtain ⟨hmoved, hcounted, hcap, hsources, hlast, hlength⟩ := elideSummarySource_keeps hone
    have hnext : (elideSummarySource queue item).summaryElisions.length +
        newContexts (lastContext (elideSummarySource queue item)) items ≤ (elideSummarySource queue item).cap := by
      rw [hlast, hlength, hcap]
      omega
    obtain ⟨hmoved', hcounted', hsources'⟩ := ih hnext
    refine ⟨?_, fun object counted h => hcounted' object counted (hcounted object counted h), hsources'.trans hsources⟩
    rw [foldl_cons, hmoved', hmoved, append_assoc, singleton_append]

theorem elideOverflow_keeps (hroom : elisionsNeeded queue ≤ queue.cap) : KeepsPending queue (elideOverflow queue) := by
  unfold elisionsNeeded at hroom
  unfold elideOverflow
  split
  · rename_i hpolicy
    rw [if_pos hpolicy] at hroom
    simp only
    generalize queue.summarySources.length - queue.summaryLines.length = overflow at hroom ⊢
    let kept : FollowupQueueState := { queue with summarySources := queue.summarySources.drop overflow }
    have hkept : kept.summaryElisions.length +
        newContexts (lastContext kept) (queue.summarySources.take overflow) ≤ kept.cap := hroom
    obtain ⟨hmoved, hcounted, hsources⟩ := foldl_elideSummarySource_keeps _ hkept
    refine ⟨?_, hcounted⟩
    rw [pending_eq, pending_eq, hmoved, hsources, append_assoc, take_append_drop]
    exact List.Subset.refl _
  · exact keepsPending_of_eq rfl (List.Subset.refl _)

theorem enqueue_keepsPending {call : EnqueueCall}
    (h : LeavesElisions (applyQueueRuntimeSettings queue call.settings) call) :
    KeepsPending queue (enqueueFollowupRun true queue call) := by
  have hgot : getFollowupQueue true queue call.settings = applyQueueRuntimeSettings queue call.settings := by
    have hnone : (applyQueueRuntimeSettings queue call.settings).summaryElisions.length -
        (applyQueueRuntimeSettings queue call.settings).cap = 0 := by
      have hfits := h.1
      omega
    unfold getFollowupQueue trimSummaryElisionsToCap
    rw [if_pos rfl, hnone]
    unfold FollowupQueueState.evictSummaryElisions
    simp
  have happlied : KeepsPending queue (applyQueueRuntimeSettings queue call.settings) :=
    keepsPending_of_eq rfl (List.Subset.refl _)
  unfold enqueueFollowupRun
  simp only [hgot]
  generalize applyQueueRuntimeSettings queue call.settings = got at h happlied
  split
  · exact happlied
  rename_i hduplicate
  have hneeded := h.2.resolve_left hduplicate
  have hadmitted : KeepsPending got (applyQueueDropPolicy got).1 := by
    unfold applyQueueDropPolicy
    split
    · exact keepsPending_of_eq rfl (List.Subset.refl _)
    · simp only
      split
      · exact keepsPending_of_eq rfl (List.Subset.refl _)
      · exact keepsPending_of_eq rfl (List.Subset.refl _)
      · exact keepsPending_of_eq rfl (subset_append_left _ _)
  have hcap : (applyQueueDropPolicy got).1.cap = got.cap := by
    unfold applyQueueDropPolicy
    split
    · rfl
    · simp only
      split <;> rfl
  have helided := elideOverflow_keeps (hcap.symm ▸ hneeded)
  split
  · exact happlied.trans (hadmitted.trans helided)
  · exact (happlied.trans (hadmitted.trans helided)).trans (keepsPending_of_eq rfl (List.Subset.refl _))

theorem awaitedPresent_enqueue {s : System} {call : EnqueueCall} (hcalm : Calm s (.enqueue call))
    (haccepted : call.aborted ≠ true) (h : AwaitedPresent s.queue s.point) :
    AwaitedPresent (enqueueFollowupRun true s.queue call) s.point := by
  obtain ⟨hitems, hsummary⟩ := hcalm.resolve_left haccepted
  cases hpoint : s.point with
  | abortedRun afterDebounce index item dropped =>
    rw [hpoint] at h hitems
    obtain ⟨pushed, hpushed⟩ := enqueue_items (hitems rfl)
    simp only [AwaitedPresent] at h ⊢
    rw [hpushed, List.getElem?_append_left (List.getElem?_eq_some_iff.mp h).1, h]
  | itemRun item =>
    rw [hpoint] at h hitems
    obtain ⟨pushed, hpushed⟩ := enqueue_items (hitems rfl)
    simp only [AwaitedPresent] at h ⊢
    rw [hpushed]
    exact mem_append_left _ h
  | batchRun groupItems contextGroups =>
    rw [hpoint] at h hitems
    obtain ⟨pushed, hpushed⟩ := enqueue_items (hitems rfl)
    exact ⟨hpushed ▸ h.items.trans (prefix_append _ _), h.contexts⟩
  | elidedSummary object elidedCount counted sources =>
    rw [hpoint] at h hsummary
    have hkeeps := enqueue_keepsPending (hsummary rfl)
    obtain ⟨hcount, hsummarizes⟩ := h
    exact ⟨hcount, hkeeps.countedIn _ _ hsummarizes.countedIn, hsummarizes.nonempty, hsummarizes.distinct,
      fun source hsource => hkeeps.pending (hsummarizes.pending hsource), hsummarizes.distinctSources,
      hsummarizes.apart⟩
  | groupSummary sources =>
    rw [hpoint] at h hsummary
    have hkeeps := enqueue_keepsPending (hsummary rfl)
    exact ⟨fun source hsource => hkeeps.pending (h.1 hsource), h.2⟩
  | _ => trivial

theorem Settled.nodup_pending (h : Settled queue) (hdistinct : queue.ledger.accepted.Nodup) :
    (queue.pending ++ queue.ledger.summarized).Nodup := by
  have hall := (nodup_iff h.accounted).mp hdistinct
  refine hall.sublist ((sublist_append_right _ _).append ?_)
  unfold Ledger.outcomes
  exact ((sublist_append_right _ _).trans (sublist_append_left _ _)).trans (sublist_append_left _ _)

theorem settled_take (h : Settled queue) (taken : List FollowupRun) {items : List FollowupRun} {ledger : Ledger}
    (hperm : queue.items.Perm (taken ++ items)) (hitems : items.Sublist queue.items)
    (haccepted : ledger.accepted = queue.ledger.accepted) (hsummarized : ledger.summarized = queue.ledger.summarized)
    (houtcomes : ledger.outcomes.Perm (taken ++ queue.ledger.outcomes))
    (hdelivered : ∀ batch ∈ ledger.delivered, batch ∈ queue.ledger.delivered ∨
      (batch.Sublist queue.items ∧ ∀ a ∈ batch, ∀ b ∈ batch, a.deliveryContextKey = b.deliveryContextKey)) :
    Settled { queue with items := items, ledger := ledger } := by
  refine ⟨?_, ?_, ?_, fun batch hbatch => ?_⟩
  · unfold Accounted
    simp only
    rw [haccepted]
    refine h.accounted.trans ?_
    have hshift : (taken ++ items ++ queue.pending ++ queue.ledger.outcomes).Perm
        (items ++ queue.pending ++ (taken ++ queue.ledger.outcomes)) := by
      rw [append_assoc taken, append_assoc taken, ← append_assoc (items ++ queue.pending)]
      rw [← append_assoc taken]
      exact perm_append_comm.append_right _
    exact ((hperm.append_right _).append_right _).trans (hshift.trans (houtcomes.symm.append_left _))
  · simp only
    rw [hsummarized]
    exact h.counting.of_sublist (refl _) rfl
  · simp only
    rw [haccepted]
    exact hitems.trans h.items
  · simp only at hbatch ⊢
    rw [haccepted]
    rcases hdelivered batch hbatch with hold | ⟨hsublist, hcontext⟩
    · exact h.delivered batch hold
    · exact ⟨hsublist.trans h.items, hcontext⟩

theorem removeQueuedItemsByRef_append (group rest : List FollowupRun) :
    removeQueuedItemsByRef (group ++ rest) group = rest := by
  unfold removeQueuedItemsByRef
  induction group with
  | nil => rfl
  | cons item group ih => rw [foldl_cons, cons_append, erase_cons_head, ih]

theorem settled_summarized (h : Settled queue) {taken : List FollowupRun}
    (hpending : queue.pending.Perm (taken ++ queue'.pending))
    (hcounting : Counting queue' (queue.ledger.summarized ++ taken)) (hitems : queue'.items = queue.items)
    (hledger : queue'.ledger = queue.ledger) : Settled { queue' with
      ledger := { queue'.ledger with summarized := queue'.ledger.summarized ++ taken } } := by
  refine ⟨?_, ?_, ?_, ?_⟩
  · unfold Accounted
    simp only [hitems, hledger]
    refine h.accounted.trans ?_
    have hshift : (queue.items ++ (taken ++ queue'.pending) ++ queue.ledger.outcomes).Perm
        (queue.items ++ queue'.pending ++ ({ queue.ledger with
          summarized := queue.ledger.summarized ++ taken } : Ledger).outcomes) := by
      simp only [Ledger.outcomes, append_assoc]
      refine append_left _ ?_
      have hout : (taken ++ (queue'.pending ++ (queue.ledger.delivered.flatten ++
          (queue.ledger.summarized ++ (queue.ledger.dropped ++ queue.ledger.aborted))))).Perm
          ((queue'.pending ++ (queue.ledger.delivered.flatten ++ queue.ledger.summarized)) ++ taken ++
            (queue.ledger.dropped ++ queue.ledger.aborted)) := by
        have hfront : (taken ++ (queue'.pending ++ (queue.ledger.delivered.flatten ++ queue.ledger.summarized))).Perm
            (queue'.pending ++ (queue.ledger.delivered.flatten ++ queue.ledger.summarized) ++ taken) :=
          perm_append_comm
        simpa only [append_assoc] using hfront.append_right (queue.ledger.dropped ++ queue.ledger.aborted)
      simpa only [append_assoc] using hout
    exact ((hpending.append_left _).append_right _).trans hshift
  · simp only [hledger]
    exact hcounting.of_sublist (refl _) rfl
  · simp only [hitems, hledger]
    exact h.items
  · simp only [hledger]
    exact h.delivered

theorem settled_completed (h : Settled queue) (hdistinct : queue.ledger.accepted.Nodup) {point : DrainPoint}
    (hpoint : AwaitedPresent queue point) : Settled (System.completed queue point) := by
  cases point with
  | abortedRun afterDebounce index item dropped =>
    obtain ⟨hindex, hitem⟩ := List.getElem?_eq_some_iff.mp hpoint
    refine settled_take h [item] ?_ (List.eraseIdx_sublist _ _) rfl rfl ?_ fun batch hbatch => .inl hbatch
    · rw [← hitem]
      exact (List.getElem_cons_eraseIdx_perm hindex).symm
    · simp only [Ledger.outcomes]
      rw [← append_assoc]
      exact perm_append_comm
  | itemRun item =>
    have hmem : item ∈ queue.items := hpoint
    have hremoved : removeQueuedItemsByRef queue.items [item] = queue.items.erase item := rfl
    refine settled_take h [item] ?_ ?_ rfl rfl ?_ fun batch hbatch => ?_
    · rw [hremoved]
      exact perm_cons_erase hmem
    · rw [hremoved]
      exact erase_sublist
    · simp only [Ledger.outcomes, flatten_append, flatten_cons, flatten_nil, append_nil, append_assoc]
      rw [← append_assoc]
      exact (perm_append_comm.append_right _).trans (by simp only [append_assoc, List.Perm.refl])
    · rcases mem_append.mp hbatch with hold | hnew
      · exact .inl hold
      · rw [mem_singleton.mp hnew]
        refine .inr ⟨singleton_sublist.mpr hmem, fun a ha b hb => ?_⟩
        rw [mem_singleton.mp ha, mem_singleton.mp hb]
  | batchRun groupItems contextGroups =>
    obtain ⟨⟨rest, hrest⟩, hcontexts⟩ := hpoint
    rw [flatten_cons, append_assoc] at hrest
    have hremoved : removeQueuedItemsByRef queue.items groupItems = contextGroups.flatten ++ rest := by
      rw [← hrest, removeQueuedItemsByRef_append]
    refine settled_take h groupItems ?_ ?_ rfl rfl ?_ fun batch hbatch => ?_
    · rw [hremoved, hrest]
    · rw [hremoved, ← hrest]
      exact sublist_append_right _ _
    · simp only [Ledger.outcomes, flatten_append, flatten_cons, flatten_nil, append_nil, append_assoc]
      rw [← append_assoc]
      exact (perm_append_comm.append_right _).trans (by simp only [append_assoc, List.Perm.refl])
    · rcases mem_append.mp hbatch with hold | hnew
      · exact .inl hold
      · rw [mem_singleton.mp hnew]
        refine .inr ⟨?_, hcontexts groupItems mem_cons_self⟩
        rw [← hrest]
        exact sublist_append_left _ _
  | elidedSummary object elidedCount counted sources =>
    obtain ⟨rfl, hsummarizes⟩ := hpoint
    have hnodup := h.nodup_pending hdistinct
    have hsources := consumeQueueSummaryDelivery_consumes h.counting hnodup hsummarizes.pending
      hsummarizes.distinctSources sources.length
    have hcounted := hsources.countedIn object counted hsummarizes.nonempty hsummarizes.apart hsummarizes.countedIn
    obtain ⟨hpending, hcounting, hitems, hledger⟩ :=
      consumeElision_consumes hsources.counting hsummarizes.distinct hcounted
    refine settled_summarized h ?_ ?_ (hitems.trans hsources.items) (hledger.trans hsources.ledger)
    · refine hsources.pending.trans ((hpending.append_left sources).trans ?_)
      rw [← append_assoc]
      exact perm_append_comm.append_right _
    · refine hcounting.settle fun source hsource => ?_
      simp only [mem_append] at hsource ⊢
      tauto
  | groupSummary sources =>
    have hsources := consumeQueueSummaryDelivery_consumes h.counting (h.nodup_pending hdistinct) hpoint.1 hpoint.2
      sources.length
    exact settled_summarized h hsources.pending hsources.counting hsources.items hsources.ledger
  | _ => exact h

/-! ## How the drain goes on -/

theorem batches_split (items : List FollowupRun) (h : queue.items = items) :
    Batches queue (splitCollectItemsByDeliveryContext items) := by
  refine ⟨?_, fun group hgroup a ha b hb => ?_⟩
  · unfold splitCollectItemsByDeliveryContext
    rw [flatten_splitBy]
    exact h ▸ prefix_rfl
  · have hchain := isChain_of_mem_splitBy hgroup
    have hpairwise : group.Pairwise fun a b : FollowupRun => a.deliveryContextKey = b.deliveryContextKey := by
      refine isChain_iff_pairwise.mp (hchain.imp fun a b hsame => ?_)
      exact of_decide_eq_true hsame
    have hsymm : Std.Symm fun a b : FollowupRun => a.deliveryContextKey = b.deliveryContextKey := ⟨fun _ _ h => h.symm⟩
    by_cases hsame : a = b
    · rw [hsame]
    · exact hpairwise.forall ha hb hsame

theorem summarizes_retained (h : Settled queue) (hbalanced : Balanced queue 0) (hnodup : queue.pending.Nodup)
    {entry : SummaryElision} {entries : List SummaryElision} (hentries : queue.summaryElisions = entry :: entries) :
    entry.count = entry.counted.length ∧ Summarizes queue entry.object entry.counted (retainedSources queue) := by
  have hentry : entry ∈ queue.summaryElisions := hentries ▸ mem_cons_self
  have hcount := h.counting.counts entry hentry
  have hpositive := hbalanced.counts entry hentry
  rw [pending_eq] at hnodup
  obtain ⟨helided, hsources, hapart⟩ := nodup_append.mp hnodup
  have hretained := retainedSources_sublist queue
  have hsublist : entry.counted.Sublist (elidedMessages queue.summaryElisions) := by
    rw [hentries, elidedMessages_cons]
    exact sublist_append_left _ _
  refine ⟨hcount, ⟨entry, hentry, rfl, List.Subset.refl _⟩, ?_, helided.sublist hsublist, fun source hsource => ?_,
    hsources.sublist hretained, fun source hsource hcounted => ?_⟩
  · intro hnil
    rw [hnil, length_nil] at hcount
    omega
  · rw [pending_eq]
    exact mem_append_right _ (hretained.subset hsource)
  · exact hapart source (hsublist.subset hcounted) source (hretained.subset hsource) rfl

theorem groupSummary_present (hnodup : queue.pending.Nodup) :
    resolveOverflowSummarySourceGroup queue ⊆ queue.pending ∧ (resolveOverflowSummarySourceGroup queue).Nodup := by
  have hgroup : (resolveOverflowSummarySourceGroup queue).Sublist queue.pending := by
    rw [pending_eq]
    exact (resolveOverflowSummarySourceGroup_sublist queue).trans (sublist_append_right _ _)
  exact ⟨hgroup.subset, hnodup.sublist hgroup⟩

namespace System

/-- The queue is registered, or there is nothing in it. -/
def Registered (s : System) : Prop :=
  s.registered = true ∨ (s.point = .idle ∧ s.queue.items = [] ∧ s.queue.pending = [])

/-- What the drain waits for is there, in a registered queue. -/
structure Waits (s : System) : Prop where
  point : AwaitedPresent s.queue s.point
  registered : Registered s

variable {s : System}

theorem pending_nil_of_counts (hbalanced : Balanced s.queue 0)
    (hdropped : s.queue.droppedCount = 0) : s.queue.pending = [] := by
  have hcounts := hbalanced.droppedCount
  have hentries : s.queue.summaryElisions = [] := by
    cases helisions : s.queue.summaryElisions with
    | nil => rfl
    | cons entry entries =>
      have hpositive := hbalanced.counts entry (helisions ▸ mem_cons_self)
      rw [helisions, elidedCount_cons] at hcounts
      omega
  rw [pending_eq, hentries, elidedMessages_nil, nil_append]
  exact length_eq_zero_iff.mp (by omega)

section

variable (hregistered : s.registered = true)

include hregistered

theorem finish_waits (hbalanced : Balanced s.queue 0) : s.finish.Waits := by
  unfold finish
  split
  · rename_i hdone
    exact ⟨trivial, .inr ⟨rfl, hdone.1, pending_nil_of_counts hbalanced hdone.2⟩⟩
  · exact ⟨trivial, .inl hregistered⟩

theorem scanAborted_waits (hbalanced : Balanced s.queue 0)
    (aborted : FollowupRun → Bool) (afterDebounce : Bool) (dropped index : Nat) :
    (s.scanAborted aborted afterDebounce dropped index).Waits := by
  induction index with
  | zero => exact ⟨trivial, .inl hregistered⟩
  | succ index ih =>
    unfold scanAborted
    split
    · exact finish_waits hregistered hbalanced
    · rename_i item hitem
      split
      · exact ⟨hitem, .inl hregistered⟩
      · exact ih

theorem loopTop_waits (hbalanced : Balanced s.queue 0)
    (aborted : FollowupRun → Bool) : (s.loopTop aborted).Waits := by
  unfold loopTop
  split
  · exact finish_waits hregistered hbalanced
  · exact scanAborted_waits hregistered hbalanced _ _ _ _

theorem drainNext_waits : s.drainNext.Waits := by
  unfold drainNext
  split
  · exact ⟨trivial, .inl hregistered⟩
  · rename_i next rest hitems
    refine ⟨?_, .inl hregistered⟩
    simp only [AwaitedPresent, hitems]
    exact mem_cons_self

theorem collect_waits : s.collect.Waits := by
  unfold collect
  split
  · split
    · exact ⟨trivial, .inl hregistered⟩
    · refine drainNext_waits ?_
      exact hregistered
  · exact drainNext_waits hregistered

theorem runBatches_waits (hbalanced : Balanced s.queue 0)
    (aborted : FollowupRun → Bool) {groups : List (List FollowupRun)} (hgroups : Batches s.queue groups) :
    (s.runBatches aborted groups).Waits := by
  cases groups with
  | nil => exact loopTop_waits hregistered hbalanced aborted
  | cons group groups => exact ⟨hgroups, .inl hregistered⟩

theorem drainOverflow_waits (hbalanced : Balanced s.queue 0) (h : Settled s.queue)
    (hnodup : s.queue.pending.Nodup) : s.drainOverflow.Waits := by
  unfold drainOverflow
  split
  · exact ⟨trivial, .inl hregistered⟩
  split
  · exact ⟨trivial, .inl hregistered⟩
  · rename_i entry entries hentries
    split
    · exact ⟨summarizes_retained h hbalanced hnodup hentries, .inl hregistered⟩
    · exact ⟨trivial, .inl hregistered⟩

theorem drainSourceGroup_waits (hnodup : s.queue.pending.Nodup) : s.drainSourceGroup.Waits := by
  unfold drainSourceGroup
  split
  · exact ⟨groupSummary_present hnodup, .inl hregistered⟩
  · exact ⟨trivial, .inl hregistered⟩

end

theorem settled_clear (h : Settled s.queue) : Settled (clearFollowupQueueSummaryState s.queue) :=
  h.of_moves (moves_clear _) (h.counting.of_sublist (nil_sublist _) rfl)

theorem afterScan_waits (hregistered : s.registered) (hbalanced : Balanced s.queue 0) (h : Settled s.queue)
    (hnodup : s.queue.pending.Nodup) (afterDebounce : Bool) (dropped : Nat) :
    (s.afterScan afterDebounce dropped).Waits := by
  unfold afterScan
  simp only
  split
  · rename_i hcleared
    rw [if_pos ⟨hcleared.2, rfl⟩]
    refine finish_waits ?_ ?_
    · exact hregistered
    · exact ⟨rfl, fun _ hentry => nomatch hentry⟩
  · split
    · exact finish_waits hregistered hbalanced
    · split
      · exact ⟨trivial, .inl hregistered⟩
      · split
        · exact drainOverflow_waits hregistered hbalanced h hnodup
        · exact collect_waits hregistered

theorem proceed_waits (hregistered : s.registered) (hbalanced : Balanced s.queue 0) (h : Settled s.queue)
    (hnodup : s.queue.pending.Nodup) (aborted : FollowupRun → Bool) (hdraining : s.point ≠ .idle)
    (hgroups : ∀ groupItems contextGroups, s.point = .batchRun groupItems contextGroups →
      Batches s.queue contextGroups) : (s.proceed aborted).Waits := by
  unfold proceed
  split
  · rename_i hidle
    exact absurd hidle hdraining
  · exact loopTop_waits hregistered hbalanced aborted
  · exact scanAborted_waits hregistered hbalanced _ _ _ _
  · exact afterScan_waits hregistered hbalanced h hnodup _ _
  · exact scanAborted_waits hregistered hbalanced _ _ _ _
  · exact ⟨trivial, .inl hregistered⟩
  · exact drainSourceGroup_waits hregistered hnodup
  · exact ⟨trivial, .inl hregistered⟩
  · exact loopTop_waits hregistered hbalanced aborted
  · exact collect_waits hregistered
  · exact ⟨trivial, .inl hregistered⟩
  · split
    · exact finish_waits hregistered hbalanced
    · exact runBatches_waits hregistered hbalanced aborted (batches_split _ rfl)
  · rename_i groupItems contextGroups hpoint
    exact runBatches_waits hregistered hbalanced aborted (hgroups _ _ hpoint)
  · exact finish_waits hregistered hbalanced

theorem settled_proceed (h : Settled s.queue) (aborted : FollowupRun → Bool) : Settled (s.proceed aborted).queue := by
  rcases proceed_queue (s := s) aborted with hqueue | hqueue | hqueue <;> rw [hqueue]
  · exact h
  · exact settled_clear h
  · exact ⟨h.accounted, h.counting.of_sublist (refl _) rfl, h.items, h.delivered⟩

theorem foldl_consumeSource_ledger (sources : List FollowupRun) (state : FollowupQueueState × Nat) :
    (sources.foldl consumeSource state).1.ledger = state.1.ledger := by
  induction sources generalizing state with
  | nil => rfl
  | cons source sources ih =>
    rw [foldl_cons, ih]
    unfold consumeSource
    simp only
    split
    · rfl
    · split <;> rfl

theorem completed_accepted (queue : FollowupQueueState) (point : DrainPoint) :
    (completed queue point).ledger.accepted = queue.ledger.accepted := by
  have hdelivery : ∀ (droppedCount : Nat) (sources : List FollowupRun),
      (consumeQueueSummaryDelivery queue droppedCount sources).ledger = queue.ledger := fun _ _ =>
    foldl_consumeSource_ledger _ _
  have helision : ∀ (queue : FollowupQueueState) (object count : Nat) (counted : List FollowupRun),
      (consumeElision queue object count counted).ledger = queue.ledger := by
    intro queue object count counted
    unfold consumeElision
    split <;> rfl
  cases point with
  | elidedSummary object count counted sources => simp only [completed, helision, hdelivery]
  | groupSummary sources => simp only [completed, hdelivery]
  | _ => rfl

theorem proceed_accepted (aborted : FollowupRun → Bool) :
    (s.proceed aborted).queue.ledger.accepted = s.queue.ledger.accepted := by
  rcases proceed_queue (s := s) aborted with hqueue | hqueue | hqueue <;> rw [hqueue] <;> rfl

/-! ## Calm runs -/

/-- The books are right and what is awaited is there. -/
structure HandledOnce (s : System) : Prop where
  settled : Settled s.queue
  balanced : Balanced s.queue 0
  waits : s.Waits

theorem handledOnce_resume (h : s.HandledOnce) (hdistinct : s.queue.ledger.accepted.Nodup)
    (aborted : FollowupRun → Bool) : (s.resume aborted).HandledOnce := by
  by_cases hidle : s.point = .idle
  · have hsame : s.resume aborted = s := by
      obtain ⟨queue, registered, point, force⟩ := s
      subst hidle
      rfl
    rw [hsame]
    exact h
  · have hregistered := h.waits.registered.resolve_right fun hnone => hidle hnone.1
    have hsettled := settled_completed h.settled hdistinct h.waits.point
    have hbalanced := balanced_completed h.balanced s.point
    have hnodup : (completed s.queue s.point).pending.Nodup := by
      have hall := hsettled.nodup_pending (by rwa [completed_accepted])
      exact (nodup_append.mp hall).1
    refine ⟨settled_proceed hsettled aborted, balanced_proceed hbalanced aborted, ?_⟩
    refine proceed_waits (s := { s with queue := completed s.queue s.point }) hregistered hbalanced hsettled hnodup
      aborted hidle fun groupItems contextGroups hpoint => ?_
    have hpresent := h.waits.point
    have hqueue : completed s.queue s.point = { s.queue with
        items := removeQueuedItemsByRef s.queue.items groupItems
        ledger := { s.queue.ledger with delivered := s.queue.ledger.delivered ++ [groupItems] } } := by
      rw [show s.point = .batchRun groupItems contextGroups from hpoint]
      rfl
    rw [show s.point = .batchRun groupItems contextGroups from hpoint] at hpresent
    obtain ⟨⟨rest, hrest⟩, hcontexts⟩ := hpresent
    rw [flatten_cons, append_assoc] at hrest
    refine ⟨?_, fun group hgroup => hcontexts group (mem_cons_of_mem _ hgroup)⟩
    simp only [hqueue, ← hrest, removeQueuedItemsByRef_append]
    exact prefix_append _ _

theorem handledOnce_step (h : s.HandledOnce) (hdistinct : s.queue.ledger.accepted.Nodup) {event : Event}
    (hcalm : Calm s event) : (s.step event).HandledOnce := by
  cases event with
  | enqueue call =>
    simp only [step]
    split
    · exact h
    rename_i haccepted
    have hregistered : s.registered ∨ (s.queue.items = [] ∧ s.queue.pending = []) :=
      h.waits.registered.imp_right And.right
    refine ⟨settled_enqueue h.settled hregistered call, balanced_enqueue h.balanced _ call, ?_, .inl rfl⟩
    rcases h.waits.registered with htrue | ⟨hidle, -⟩
    · simp only [htrue]
      exact awaitedPresent_enqueue hcalm haccepted h.waits.point
    · simp only [hidle]
      trivial
  | schedule =>
    simp only [step]
    split
    · split
      · rename_i hregistered
        exact ⟨h.settled, h.balanced, trivial, .inl hregistered⟩
      · exact h
    · exact h
  | resume aborted => exact handledOnce_resume h hdistinct aborted
  | fail deferred => exact hcalm.elim

def CalmRun : System → List Event → Prop
  | _, [] => True
  | s, event :: events => Calm s event ∧ CalmRun (s.step event) events

end System

def Event.messages : Event → List FollowupRun
  | .enqueue call => [call.run]
  | _ => []

namespace System

variable {s : System}

theorem enqueue_accepted (registered : Bool) (queue : FollowupQueueState) (call : EnqueueCall) :
    (enqueueFollowupRun registered queue call).ledger.accepted.Sublist (queue.ledger.accepted ++ [call.run]) := by
  have hgot : (getFollowupQueue registered queue call.settings).ledger.accepted = queue.ledger.accepted := by
    unfold getFollowupQueue
    split <;> rfl
  have hadmitted := (moves_applyQueueDropPolicy (getFollowupQueue registered queue call.settings)).accepted
  unfold enqueueFollowupRun
  simp only
  split
  · rw [hgot]
    exact sublist_append_left _ _
  · split
    · rw [(elideOverflow_frame _).2, hadmitted, hgot]
      exact sublist_append_left _ _
    · simp only [(elideOverflow_frame _).2, hadmitted, hgot, refl]

theorem step_accepted {event : Event} (hcalm : Calm s event) :
    (s.step event).queue.ledger.accepted.Sublist (s.queue.ledger.accepted ++ event.messages) := by
  cases event with
  | enqueue call =>
    simp only [step]
    split
    · exact sublist_append_left _ _
    · exact enqueue_accepted _ _ _
  | schedule =>
    simp only [step]
    split
    · split <;> exact sublist_append_left _ _
    · exact sublist_append_left _ _
  | resume aborted =>
    have hsame : (s.resume aborted).queue.ledger.accepted = s.queue.ledger.accepted := by
      unfold resume
      rw [proceed_accepted]
      exact completed_accepted _ _
    simp only [step]
    rw [hsame]
    exact sublist_append_left _ _
  | fail deferred => exact hcalm.elim

theorem handledOnce_run {events : List Event} (h : s.HandledOnce) (hcalm : CalmRun s events)
    (hdistinct : (s.queue.ledger.accepted ++ events.flatMap Event.messages).Nodup) :
    (s.run events).HandledOnce ∧ (s.run events).queue.ledger.accepted.Nodup := by
  induction events generalizing s with
  | nil => exact ⟨h, (nodup_append.mp hdistinct).1⟩
  | cons event events ih =>
    obtain ⟨hfirst, hrest⟩ := hcalm
    refine ih (handledOnce_step h (nodup_append.mp hdistinct).1 hfirst) hrest ?_
    rw [flatMap_cons, ← append_assoc] at hdistinct
    exact hdistinct.sublist ((step_accepted hfirst).append (refl _))

theorem handledOnce_initial : initial.HandledOnce := by
  refine ⟨⟨List.Perm.refl _, ?_, refl _, fun _ hbatch => nomatch hbatch⟩, ?_, trivial,
    .inr ⟨rfl, rfl, rfl⟩⟩
  · exact ⟨fun _ he => (nomatch he), fun _ he => (nomatch he), fun _ he => (nomatch he), nodup_nil,
      fun _ he => (nomatch he)⟩
  · exact ⟨rfl, fun _ he => nomatch he⟩

/-- Each accepted message waits, is pending in a summary, or has met exactly one end; each run was of messages of one
delivery context in the order of their arrival; in an empty queue none waits. -/
structure EachOnce (queue : FollowupQueueState) : Prop where
  accounted : Accounted queue
  once : (queue.items ++ queue.pending ++ queue.ledger.outcomes).Nodup
  delivered : ∀ batch ∈ queue.ledger.delivered, batch.Sublist queue.ledger.accepted ∧
    ∀ a ∈ batch, ∀ b ∈ batch, a.deliveryContextKey = b.deliveryContextKey
  emptied : queue.items = [] → queue.droppedCount = 0 → queue.ledger.accepted.Perm queue.ledger.outcomes

/-- **In calm runs each accepted message ends in exactly one way.** -/
theorem followups_handled_once (events : List Event) (hdistinct : (events.flatMap Event.messages).Nodup)
    (hcalm : CalmRun initial events) : EachOnce (initial.run events).queue := by
  obtain ⟨h, hnodup⟩ := handledOnce_run handledOnce_initial hcalm hdistinct
  refine ⟨h.settled.accounted, (List.Perm.nodup_iff h.settled.accounted).mp hnodup, h.settled.delivered, ?_⟩
  intro hitems hdropped
  have haccounted := h.settled.accounted
  unfold Accounted at haccounted
  rwa [hitems, pending_nil_of_counts h.balanced hdropped, nil_append, nil_append]
    at haccounted

end System

section TwoEnds

/-- Messages for a queue that holds one. -/
def single (object : Nat) : EnqueueCall where
  run := { object := object, prompt := js "hi", deliveryContextKey := js "chat" }
  settings := { mode := .followup, cap := some 1, dropPolicy := some .summarize }

/-- A resumption during which nothing is aborted. -/
def resumed : Event := .resume fun _ => false

theorem calm_messages_each_once :
    System.EachOnce (System.initial.run [.enqueue (single 1), .enqueue (single 2), .schedule, resumed, resumed,
      resumed, resumed, resumed]).queue := by
  refine System.followups_handled_once _ (by decide) ?_
  simp only [System.CalmRun, Calm]
  refine ⟨Or.inr ⟨?_, ?_⟩, Or.inr ⟨?_, ?_⟩, trivial, trivial, trivial, trivial, trivial, trivial, trivial⟩
  all_goals exact fun hawaits => absurd hawaits (by decide)

/-- A message that is dropped while it is run is summarized as well. -/
theorem running_message_summarized :
    ¬ ∀ events : List Event, (events.flatMap Event.messages).Nodup → (∀ deferred, Event.fail deferred ∉ events) →
      System.EachOnce (System.initial.run events).queue := by
  intro h
  have honce := (h [.enqueue (single 1), .schedule, resumed, resumed, resumed, resumed, .enqueue (single 2), resumed,
    resumed, resumed, resumed, resumed, resumed, resumed] (by decide) (by simp [resumed])).once
  exact absurd honce (by decide)

end TwoEnds

end ClawWorks.FollowupQueue
