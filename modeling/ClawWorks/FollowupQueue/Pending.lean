import Mathlib.Data.List.Perm.Subperm
import ClawWorks.FollowupQueue.Counts

/-!
# The messages whose summary is pending
-/

namespace ClawWorks.FollowupQueue

open List

/-! ## Entries and their messages -/

/-- The entries count their messages and refer to no others than settled ones. -/
structure Counting (queue : FollowupQueueState) (settled : List FollowupRun) : Prop where
  counts : ∀ entry ∈ queue.summaryElisions, entry.count = entry.counted.length
  refs : ∀ entry ∈ queue.summaryElisions, ∀ source ∈ entry.counted, source ∈ entry.sourceRefs
  settledRefs : ∀ entry ∈ queue.summaryElisions, ∀ source ∈ entry.sourceRefs,
    source ∈ entry.counted ∨ source ∈ settled
  objects : (queue.summaryElisions.map (·.object)).Nodup
  fresh : ∀ entry ∈ queue.summaryElisions, entry.object < queue.elisionObjects

def elidedMessages (entries : List SummaryElision) : List FollowupRun :=
  entries.flatMap (·.counted)

@[simp]
theorem elidedMessages_nil : elidedMessages [] = [] := rfl

@[simp]
theorem elidedMessages_cons (entry : SummaryElision) (entries : List SummaryElision) :
    elidedMessages (entry :: entries) = entry.counted ++ elidedMessages entries :=
  flatMap_cons

@[simp]
theorem elidedMessages_append (entries entries' : List SummaryElision) :
    elidedMessages (entries ++ entries') = elidedMessages entries ++ elidedMessages entries' :=
  flatMap_append

theorem pending_eq (queue : FollowupQueueState) :
    queue.pending = elidedMessages queue.summaryElisions ++ queue.summarySources := rfl

variable {queue : FollowupQueueState} {settled : List FollowupRun} {queue' : FollowupQueueState}

theorem Counting.of_sublist (h : Counting queue settled)
    (hentries : queue'.summaryElisions.Sublist queue.summaryElisions)
    (hobjects : queue'.elisionObjects = queue.elisionObjects) : Counting queue' settled :=
  ⟨fun entry hentry => h.counts entry (hentries.subset hentry),
    fun entry hentry => h.refs entry (hentries.subset hentry),
    fun entry hentry => h.settledRefs entry (hentries.subset hentry),
    h.objects.sublist (hentries.map _),
    fun entry hentry => hobjects ▸ h.fresh entry (hentries.subset hentry)⟩

theorem Counting.settle (h : Counting queue settled) {settled' : List FollowupRun} (hsettled : settled ⊆ settled') :
    Counting queue settled' :=
  { h with settledRefs := fun entry hentry source hsource =>
      (h.settledRefs entry hentry source hsource).imp_right fun hmem => hsettled hmem }

/-! ## Enqueueing -/

theorem evictSummaryElisions_pending (queue : FollowupQueueState) (evictions : Nat) :
    ∃ evicted, queue.pending = evicted ++ (queue.evictSummaryElisions evictions).pending ∧
      (queue.evictSummaryElisions evictions).ledger =
        { queue.ledger with dropped := queue.ledger.dropped ++ evicted } := by
  refine ⟨elidedMessages (queue.summaryElisions.take evictions), ?_, rfl⟩
  have hsplit : elidedMessages queue.summaryElisions = elidedMessages (queue.summaryElisions.take evictions) ++
      elidedMessages (queue.summaryElisions.drop evictions) := by
    rw [← elidedMessages_append, take_append_drop]
  rw [pending_eq, pending_eq, hsplit, append_assoc]
  rfl

section

variable (h : Counting queue settled)

include h

theorem counting_evict (evictions : Nat) : Counting (queue.evictSummaryElisions evictions) settled :=
  h.of_sublist (drop_sublist _ _) rfl

theorem counting_push {entry : SummaryElision}
    (hentry : entry.object = queue.elisionObjects ∧ entry.count = entry.counted.length ∧
      entry.sourceRefs = entry.counted) :
    Counting { queue with
      summaryElisions := queue.summaryElisions ++ [entry], elisionObjects := queue.elisionObjects + 1 } settled := by
  obtain ⟨hobject, hcount, hrefs⟩ := hentry
  have hcases : ∀ other ∈ queue.summaryElisions ++ [entry], other ∈ queue.summaryElisions ∨ other = entry := by
    intro other hother
    simpa using hother
  refine ⟨fun other hother => ?_, fun other hother source hsource => ?_, fun other hother source hsource => ?_, ?_,
    fun other hother => ?_⟩
  · rcases hcases other hother with hold | rfl
    · exact h.counts other hold
    · exact hcount
  · rcases hcases other hother with hold | rfl
    · exact h.refs other hold source hsource
    · exact hrefs ▸ hsource
  · rcases hcases other hother with hold | rfl
    · exact h.settledRefs other hold source hsource
    · exact .inl (hrefs ▸ hsource)
  · rw [map_append, nodup_append]
    refine ⟨h.objects, nodup_singleton _, fun object hold other hnew => ?_⟩
    obtain ⟨old, hmem, rfl⟩ := mem_map.mp hold
    rw [map_singleton, mem_singleton] at hnew
    have hfresh := h.fresh old hmem
    omega
  · rcases hcases other hother with hold | rfl
    · exact (h.fresh other hold).trans (Nat.lt_succ_self _)
    · exact hobject ▸ Nat.lt_succ_self _

theorem counting_merge {entries : List SummaryElision} {last : SummaryElision}
    (hentries : queue.summaryElisions = entries ++ [last]) (source : FollowupRun) (item : FollowupRun) :
    Counting { queue with summaryElisions := entries ++ [{ last with
      count := last.count + 1
      source := source
      sourceRefs := last.sourceRefs ++ [item]
      counted := last.counted ++ [item] }] } settled := by
  have hlast : last ∈ queue.summaryElisions := hentries ▸ mem_append_right _ (mem_singleton_self _)
  have hold : ∀ other ∈ entries, other ∈ queue.summaryElisions := fun other hother =>
    hentries ▸ mem_append_left _ hother
  refine ⟨fun other hother => ?_, fun other hother message hmessage => ?_, fun other hother message hmessage => ?_, ?_,
    fun other hother => ?_⟩
  · rcases mem_append.mp hother with hother | hother
    · exact h.counts other (hold other hother)
    · rw [mem_singleton.mp hother]
      simp [h.counts last hlast]
  · rcases mem_append.mp hother with hother | hother
    · exact h.refs other (hold other hother) message hmessage
    · rw [mem_singleton.mp hother] at hmessage ⊢
      rcases mem_append.mp hmessage with hmessage | hmessage
      · exact mem_append_left _ (h.refs last hlast message hmessage)
      · exact mem_append_right _ hmessage
  · rcases mem_append.mp hother with hother | hother
    · exact h.settledRefs other (hold other hother) message hmessage
    · rw [mem_singleton.mp hother] at hmessage ⊢
      rcases mem_append.mp hmessage with hmessage | hmessage
      · exact (h.settledRefs last hlast message hmessage).imp_left fun hmem => mem_append_left _ hmem
      · exact .inl (mem_append_right _ hmessage)
  · have hobjects := h.objects
    rw [hentries] at hobjects
    simpa using hobjects
  · rcases mem_append.mp hother with hother | hother
    · exact h.fresh other (hold other hother)
    · rw [mem_singleton.mp hother]
      exact h.fresh last hlast

theorem elideSummarySource_pending (item : FollowupRun) : Counting (elideSummarySource queue item) settled ∧
      ∃ evicted, elidedMessages queue.summaryElisions ++ [item] =
          evicted ++ elidedMessages (elideSummarySource queue item).summaryElisions ∧
        (elideSummarySource queue item).summarySources = queue.summarySources ∧
        (elideSummarySource queue item).items = queue.items ∧ (elideSummarySource queue item).ledger =
          { queue.ledger with dropped := queue.ledger.dropped ++ evicted } := by
  unfold elideSummarySource
  simp only
  split
  · rename_i last hlast
    obtain ⟨entries, hentries⟩ := getLast?_eq_some_iff.mp hlast
    split
    · refine ⟨?_, [], ?_, rfl, rfl, ?_⟩
      · rw [hentries, dropLast_concat]
        exact counting_merge h hentries _ item
      · simp only [hentries, dropLast_concat, elidedMessages_append, elidedMessages_cons, elidedMessages_nil,
          append_nil, append_assoc, nil_append]
      · rw [append_nil]
    · split
      · refine ⟨counting_push (counting_evict h 1) ⟨rfl, rfl, rfl⟩,
          elidedMessages (queue.summaryElisions.take 1), ?_, rfl, rfl, rfl⟩
        have hsplit : elidedMessages queue.summaryElisions = elidedMessages (queue.summaryElisions.take 1) ++
            elidedMessages (queue.summaryElisions.drop 1) := by
          rw [← elidedMessages_append, take_append_drop]
        simp only [FollowupQueueState.evictSummaryElisions, elidedMessages_append, elidedMessages_cons,
          elidedMessages_nil, append_nil]
        rw [hsplit, append_assoc]
      · refine ⟨counting_push h ⟨rfl, rfl, rfl⟩, [], ?_, rfl, rfl, ?_⟩
        · simp
        · rw [append_nil]
  · refine ⟨counting_push h ⟨rfl, rfl, rfl⟩, [], ?_, rfl, rfl, ?_⟩
    · simp
    · rw [append_nil]

end

theorem foldl_elideSummarySource_pending (items : List FollowupRun) (h : Counting queue settled) :
    Counting (items.foldl elideSummarySource queue) settled ∧
      ∃ evicted, elidedMessages queue.summaryElisions ++ items =
          evicted ++ elidedMessages (items.foldl elideSummarySource queue).summaryElisions ∧
        (items.foldl elideSummarySource queue).summarySources = queue.summarySources ∧
        (items.foldl elideSummarySource queue).items = queue.items ∧ (items.foldl elideSummarySource queue).ledger =
          { queue.ledger with dropped := queue.ledger.dropped ++ evicted } := by
  induction items generalizing queue with
  | nil => exact ⟨h, [], by simp, rfl, rfl, by simp⟩
  | cons item items ih =>
    obtain ⟨hcounting, evicted, hmoved, hsources, hitems, hledger⟩ := elideSummarySource_pending h item
    obtain ⟨hcounting', evicted', hmoved', hsources', hitems', hledger'⟩ := ih hcounting
    refine ⟨hcounting', evicted ++ evicted', ?_, hsources'.trans hsources, hitems'.trans hitems, ?_⟩
    · rw [append_cons, hmoved, append_assoc, hmoved', append_assoc, foldl_cons]
    · rw [foldl_cons, hledger', hledger, append_assoc]

theorem elideOverflow_pending (h : Counting queue settled) : Counting (elideOverflow queue) settled ∧
      ∃ evicted, queue.pending = evicted ++ (elideOverflow queue).pending ∧
        (elideOverflow queue).items = queue.items ∧
        (elideOverflow queue).ledger = { queue.ledger with dropped := queue.ledger.dropped ++ evicted } := by
  unfold elideOverflow
  split
  · have hdropped : ∀ overflow : Nat,
        Counting { queue with summarySources := queue.summarySources.drop overflow } settled := fun _ =>
      h.of_sublist (List.Sublist.refl _) rfl
    obtain ⟨hcounting, evicted, hmoved, hsources, hitems, hledger⟩ :=
      foldl_elideSummarySource_pending (queue.summarySources.take
        (queue.summarySources.length - queue.summaryLines.length)) (hdropped _)
    refine ⟨hcounting, evicted, ?_, hitems, hledger⟩
    rw [pending_eq, pending_eq, hsources, ← append_assoc, ← hmoved, append_assoc, take_append_drop]
  · exact ⟨h, [], rfl, rfl, by simp⟩

/-! ## Delivered summaries -/

variable {messages counted : List FollowupRun}

theorem perm_foldl_erase (hnodup : messages.Nodup) (hmem : messages ⊆ counted) :
    counted.Perm (messages ++ messages.foldl List.erase counted) := by
  induction messages generalizing counted with
  | nil => exact List.Perm.refl _
  | cons message messages ih =>
    obtain ⟨hfirst, hrest⟩ := List.nodup_cons.mp hnodup
    have hsubset : messages ⊆ counted.erase message := by
      intro other hother
      have hne : other ≠ message := by
        rintro rfl
        exact hfirst hother
      exact (List.mem_erase_of_ne hne).mpr (hmem (List.mem_cons_of_mem _ hother))
    have herase := List.perm_cons_erase (hmem List.mem_cons_self)
    exact herase.trans ((ih hrest hsubset).cons message)

theorem mem_foldl_erase {source : FollowupRun}
    (h : source ∈ messages.foldl List.erase counted) : source ∈ counted := by
  induction messages generalizing counted with
  | nil => exact h
  | cons message messages ih => exact List.mem_of_mem_erase (ih h)

variable {kind : SummaryElision → Bool} {messages : List FollowupRun} {entries : List SummaryElision}
  {entry : SummaryElision}

theorem elidedMessages_uncount (hfind : entries.find? kind = some entry) (hcount : entry.count = entry.counted.length)
    (hnodup : messages.Nodup) (hmem : messages ⊆ entry.counted) :
    (elidedMessages entries).Perm (messages ++ elidedMessages (uncount kind messages.length messages entries)) := by
  induction entries with
  | nil => cases hfind
  | cons first entries ih =>
    unfold uncount
    rw [List.find?_cons] at hfind
    split at hfind
    · rename_i hkind
      obtain rfl := Option.some.inj hfind
      have hperm := perm_foldl_erase hnodup hmem
      rw [if_pos hkind, elidedMessages_cons]
      split
      · rename_i hnone
        have hlength := hperm.length_eq
        have hempty : (messages.foldl List.erase first.counted).length = 0 := by
          rw [List.length_append] at hlength
          omega
        rw [List.length_eq_zero_iff.mp hempty, List.append_nil] at hperm
        exact hperm.append_right _
      · rw [elidedMessages_cons, ← List.append_assoc]
        exact hperm.append_right _
    · rename_i hkind
      rw [if_neg (by rw [hkind]; exact Bool.false_ne_true), elidedMessages_cons, elidedMessages_cons]
      have hmoved := (ih hfind).append_left first.counted
      refine hmoved.trans ?_
      rw [← List.append_assoc, ← List.append_assoc]
      exact List.perm_append_comm.append_right _

variable {other : SummaryElision}

theorem mem_uncount {fewer : Nat} (h : other ∈ uncount kind fewer messages entries) :
    other ∈ entries ∨ ∃ entry, entries.find? kind = some entry ∧ entry.count - fewer ≠ 0 ∧
      other = { entry with count := entry.count - fewer, counted := messages.foldl List.erase entry.counted } := by
  induction entries with
  | nil => exact .inl h
  | cons first entries ih =>
    unfold uncount at h
    rw [List.find?_cons]
    split at h
    · rename_i hkind
      rw [hkind]
      split at h
      · exact .inl (List.mem_cons_of_mem _ h)
      · rename_i hcount
        rcases List.mem_cons.mp h with rfl | hrest
        · exact .inr ⟨first, rfl, hcount, rfl⟩
        · exact .inl (List.mem_cons_of_mem _ hrest)
    · rename_i hkind
      rw [Bool.eq_false_iff.mpr hkind]
      rcases List.mem_cons.mp h with rfl | hrest
      · exact .inl List.mem_cons_self
      · exact (ih hrest).imp_left (List.mem_cons_of_mem _)

theorem mem_uncount_of_mem (fewer : Nat) (messages : List FollowupRun) (h : other ∈ entries) :
    other ∈ uncount kind fewer messages entries ∨ (entries.find? kind = some other ∧
      (other.count - fewer = 0 ∨ { other with
        count := other.count - fewer, counted := messages.foldl List.erase other.counted } ∈
          uncount kind fewer messages entries)) := by
  induction entries with
  | nil => cases h
  | cons first entries ih =>
    unfold uncount
    rw [List.find?_cons]
    by_cases hkind : kind first
    · rw [if_pos hkind, hkind]
      rcases List.mem_cons.mp h with rfl | hrest
      · refine .inr ⟨rfl, ?_⟩
        split
        · rename_i hnone
          exact .inl hnone
        · exact .inr List.mem_cons_self
      · refine .inl ?_
        split
        · exact hrest
        · exact List.mem_cons_of_mem _ hrest
    · rw [if_neg hkind, Bool.eq_false_iff.mpr hkind]
      rcases List.mem_cons.mp h with rfl | hrest
      · exact .inl List.mem_cons_self
      · rcases ih hrest with hstays | ⟨hfind, hless⟩
        · exact .inl (List.mem_cons_of_mem _ hstays)
        · exact .inr ⟨hfind, hless.imp_right (List.mem_cons_of_mem _)⟩

theorem map_object_uncount_sublist (fewer : Nat) :
    ((uncount kind fewer messages entries).map (·.object)).Sublist (entries.map (·.object)) := by
  induction entries with
  | nil => exact List.Sublist.refl _
  | cons first entries ih =>
    unfold uncount
    split
    · split
      · exact sublist_cons_self _ _
      · exact List.Sublist.refl _
    · exact ih.cons_cons _

theorem counting_uncount (h : Counting queue settled) (hfind : queue.summaryElisions.find? kind = some entry)
    (hnodup : messages.Nodup) (hmem : messages ⊆ entry.counted)
    (hentries : queue'.summaryElisions = uncount kind messages.length messages queue.summaryElisions)
    (hobjects : queue'.elisionObjects = queue.elisionObjects) : Counting queue' (settled ++ messages) := by
  have hentry := List.mem_of_find?_eq_some hfind
  have hsettled := h.settle (List.subset_append_left settled messages)
  have hperm := perm_foldl_erase hnodup hmem
  have hcases : ∀ other ∈ queue'.summaryElisions, other ∈ queue.summaryElisions ∨
      (entry.count - messages.length ≠ 0 ∧ other = { entry with
        count := entry.count - messages.length, counted := messages.foldl List.erase entry.counted }) := by
    intro other hother
    rw [hentries] at hother
    rcases mem_uncount hother with hold | ⟨found, hfound, hcount, hother⟩
    · exact .inl hold
    · obtain rfl := Option.mem_unique hfind hfound
      exact .inr ⟨hcount, hother⟩
  refine ⟨fun other hother => ?_, fun other hother source hsource => ?_, fun other hother source hsource => ?_, ?_,
    fun other hother => ?_⟩
  · rcases hcases other hother with hold | ⟨-, rfl⟩
    · exact h.counts other hold
    · have hlength := hperm.length_eq
      rw [List.length_append] at hlength
      simp only [h.counts entry hentry]
      omega
  · rcases hcases other hother with hold | ⟨-, rfl⟩
    · exact h.refs other hold source hsource
    · exact h.refs entry hentry source (mem_foldl_erase hsource)
  · rcases hcases other hother with hold | ⟨-, rfl⟩
    · exact hsettled.settledRefs other hold source hsource
    · rcases h.settledRefs entry hentry source hsource with hcounted | hsettled
      · rcases List.mem_append.mp (hperm.subset hcounted) with htaken | hleft
        · exact .inr (List.mem_append_right _ htaken)
        · exact .inl hleft
      · exact .inr (List.mem_append_left _ hsettled)
  · rw [hentries]
    exact h.objects.sublist (map_object_uncount_sublist _)
  · rw [hobjects]
    rcases hcases other hother with hold | ⟨-, rfl⟩
    · exact h.fresh other hold
    · exact h.fresh entry hentry

def CountedIn (queue : FollowupQueueState) (object : Nat) (counted : List FollowupRun) : Prop :=
  ∃ entry ∈ queue.summaryElisions, entry.object = object ∧ counted ⊆ entry.counted

/-- What consuming a summary leaves, and what it does not touch. -/
structure Consumes (queue queue' : FollowupQueueState) (messages settled : List FollowupRun) : Prop where
  pending : queue.pending.Perm (messages ++ queue'.pending)
  counting : Counting queue' (settled ++ messages)
  items : queue'.items = queue.items
  ledger : queue'.ledger = queue.ledger
  countedIn : ∀ (object : Nat) (counted : List FollowupRun), counted ≠ [] → (∀ source ∈ messages, source ∉ counted) →
    CountedIn queue object counted → CountedIn queue' object counted

theorem Consumes.refl (h : Counting queue settled) : Consumes queue queue [] settled :=
  ⟨List.Perm.refl _, by simpa using h, rfl, rfl, fun _ _ _ _ hcounted => hcounted⟩

theorem Consumes.trans {queue'' : FollowupQueueState} {messages' : List FollowupRun}
    (h : Consumes queue queue' messages settled) (h' : Consumes queue' queue'' messages' (settled ++ messages)) :
    Consumes queue queue'' (messages ++ messages') settled := by
  refine ⟨?_, ?_, h'.items.trans h.items, h'.ledger.trans h.ledger, fun object counted hne hapart hcounted => ?_⟩
  · rw [append_assoc]
    exact h.pending.trans (h'.pending.append_left messages)
  · have hcounting := h'.counting
    rwa [append_assoc] at hcounting
  · exact h'.countedIn object counted hne (fun source hsource => hapart source (mem_append_right _ hsource))
      (h.countedIn object counted hne (fun source hsource => hapart source (mem_append_left _ hsource)) hcounted)

section

variable (h : Counting queue settled)

include h

theorem consumeSource_consumes (hnodup : (queue.pending ++ settled).Nodup)
    {source : FollowupRun} (hsource : source ∈ queue.pending) (consumed : Nat) :
    Consumes queue (consumeSource (queue, consumed) source).1 [source] settled := by
  unfold consumeSource
  simp only
  split
  · rename_i hmem
    refine ⟨?_, (h.settle (subset_append_left _ _)).of_sublist (List.Sublist.refl _) rfl, rfl, rfl,
      fun object counted _ _ hcounted => hcounted⟩
    rw [pending_eq, pending_eq]
    have herase := (perm_cons_erase hmem).append_left (elidedMessages queue.summaryElisions)
    exact herase.trans perm_middle
  · rename_i hnot
    rw [pending_eq] at hsource
    have helided := (mem_append.mp hsource).resolve_right hnot
    obtain ⟨holder, hholder, hcounted⟩ := mem_flatMap.mp helided
    have hrefers : holder.refersTo source := decide_eq_true (h.refs holder hholder source hcounted)
    obtain ⟨entry, hfind⟩ := Option.isSome_iff_exists.mp (find?_isSome.mpr ⟨holder, hholder, hrefers⟩)
    have hentry := mem_of_find?_eq_some hfind
    have hmem : source ∈ entry.counted := by
      have hkind : entry.refersTo source := find?_some hfind
      have hrefs : source ∈ entry.sourceRefs := of_decide_eq_true hkind
      refine (h.settledRefs entry hentry source hrefs).resolve_right fun hsettled => ?_
      exact (nodup_append.mp hnodup).2.2 source (pending_eq queue ▸ hsource) source hsettled rfl
    have hsingle : [source] ⊆ entry.counted := by simpa using hmem
    rw [hfind]
    simp only
    refine ⟨?_, counting_uncount h hfind (nodup_singleton _) hsingle rfl rfl, rfl, rfl,
      fun object counted hne hapart hcountedIn => ?_⟩
    · rw [pending_eq, pending_eq, ← append_assoc]
      exact (elidedMessages_uncount hfind (h.counts entry hentry) (nodup_singleton _) hsingle).append_right _
    · obtain ⟨other, hother, hobject, hsubset⟩ := hcountedIn
      rcases mem_uncount_of_mem 1 [source] hother with hstays | ⟨hfound, hless⟩
      · exact ⟨other, hstays, hobject, hsubset⟩
      obtain rfl := Option.mem_unique hfind hfound
      have hleft : counted ⊆ entry.counted.erase source := by
        intro message hmessage
        have hdistinct : message ≠ source := by
          rintro rfl
          exact hapart message (mem_singleton_self _) hmessage
        exact (mem_erase_of_ne hdistinct).mpr (hsubset hmessage)
      rcases hless with hnone | hmember
      · have hlength := length_erase_of_mem hmem
        obtain ⟨message, rest, hcons⟩ := exists_cons_of_ne_nil hne
        have hpos := length_pos_of_mem (hleft (hcons ▸ mem_cons_self))
        rw [h.counts entry hentry] at hnone
        omega
      · exact ⟨_, hmember, hobject, hleft⟩

variable {sources : List FollowupRun}

theorem foldl_consumeSource_consumes
    (hnodup : (queue.pending ++ settled).Nodup) (hsources : sources ⊆ queue.pending) (hdistinct : sources.Nodup)
    (consumed : Nat) : Consumes queue (sources.foldl consumeSource (queue, consumed)).1 sources settled := by
  induction sources generalizing queue settled consumed with
  | nil => exact Consumes.refl h
  | cons source sources ih =>
    obtain ⟨hfirst, hrest⟩ := nodup_cons.mp hdistinct
    have hone := consumeSource_consumes h hnodup (hsources mem_cons_self) consumed
    have hnodup' : ((consumeSource (queue, consumed) source).1.pending ++ (settled ++ [source])).Nodup := by
      refine (List.Perm.nodup_iff ?_).mp hnodup
      refine (hone.pending.append_right settled).trans ?_
      rw [singleton_append, cons_append, ← append_assoc]
      exact (perm_append_singleton _ _).symm
    have hsources' : sources ⊆ (consumeSource (queue, consumed) source).1.pending := by
      intro other hother
      have hmem := hone.pending.subset (hsources (mem_cons_of_mem _ hother))
      rcases mem_append.mp hmem with hsame | hmem
      · exact absurd (mem_singleton.mp hsame ▸ hother) hfirst
      · exact hmem
    exact hone.trans (ih hone.counting hnodup' hsources' hrest _)

theorem consumeQueueSummaryDelivery_consumes
    (hnodup : (queue.pending ++ settled).Nodup) (hsources : sources ⊆ queue.pending) (hdistinct : sources.Nodup)
    (droppedCount : Nat) :
    Consumes queue (consumeQueueSummaryDelivery queue droppedCount sources) sources settled := by
  have hfold := foldl_consumeSource_consumes h hnodup hsources hdistinct (if sources = [] then droppedCount else 0)
  unfold consumeQueueSummaryDelivery
  exact ⟨hfold.pending, hfold.counting.of_sublist (List.Sublist.refl _) rfl, hfold.items, hfold.ledger,
    hfold.countedIn⟩

theorem consumeElision_consumes {object : Nat} {counted : List FollowupRun}
    (hnodup : counted.Nodup) (hcounted : CountedIn queue object counted) :
    queue.pending.Perm (counted ++ (consumeElision queue object counted.length counted).pending) ∧
      Counting (consumeElision queue object counted.length counted) (settled ++ counted) ∧
      (consumeElision queue object counted.length counted).items = queue.items ∧
      (consumeElision queue object counted.length counted).ledger = queue.ledger := by
  obtain ⟨holder, hholder, hobject, hsubset⟩ := hcounted
  have hfound : (queue.summaryElisions.find? fun entry => entry.object == object) = some holder := by
    have hsome : (queue.summaryElisions.find? fun entry => entry.object == object).isSome :=
      find?_isSome.mpr ⟨holder, hholder, by rw [hobject, beq_self_eq_true]⟩
    obtain ⟨entry, hfind⟩ := Option.isSome_iff_exists.mp hsome
    have hkind : (entry.object == object) :=
      find?_some (p := fun entry : SummaryElision => entry.object == object) hfind
    have hsame : entry.object = holder.object := (beq_iff_eq.mp hkind).trans hobject.symm
    rw [hfind, inj_on_of_nodup_map h.objects (mem_of_find?_eq_some hfind) hholder hsame]
  unfold consumeElision
  rw [hfound]
  refine ⟨?_, counting_uncount h hfound hnodup hsubset rfl rfl, rfl, rfl⟩
  rw [pending_eq, pending_eq, ← append_assoc]
  exact (elidedMessages_uncount hfound (h.counts holder hholder) hnodup hsubset).append_right _

end

end ClawWorks.FollowupQueue
