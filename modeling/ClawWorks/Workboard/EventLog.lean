import ClawWorks.Workboard.Traces

/-!
# The log of a card

Some history of statuses agrees with every entry in the log of a card and ends in its status. A violation of the worker
protocol, which is logged in place of the move that it comes with, agrees with any.
-/

namespace ClawWorks.Workboard

open List World

/-- An entry that can come between two statuses. -/
def EventEntry.Between (entry : EventEntry) (before after : WorkboardStatus) : Prop :=
  match entry.kind with
  | .protocolViolation => True
  | .created => entry.toStatus = some after
  | .moved => entry.fromStatus = some before ∧ entry.toStatus = some after
  | _ => before = after

def WorkboardEvent.entry (event : WorkboardEvent) : EventEntry :=
  ⟨event.kind, event.fromStatus, event.toStatus, event.sessionKey, event.runId⟩

/-- A history that ends in the status agrees with the entries, newest first. -/
def Tells : List WorkboardEvent → WorkboardStatus → Prop
  | [], _ => True
  | event :: older, status =>
    if event.eventAt = 0 then Tells older status else ∃ before, event.entry.Between before status ∧ Tells older before

def LogsTell (w : World) : Prop :=
  ∀ c ∈ w.cards, Tells c.events.reverse c.status

variable {log : List WorkboardEvent} {status next : WorkboardStatus}

theorem Tells.take (h : Tells log status) (n : ℕ) : Tells (log.take n) status := by
  induction log generalizing status n with
  | nil => simpa using h
  | cons event older ih =>
    cases n with
    | zero => trivial
    | succ n =>
      rw [take_succ_cons]
      unfold Tells at h ⊢
      split_ifs at h ⊢
      · exact ih h n
      · exact h.imp fun _ ⟨hbetween, hbefore⟩ => ⟨hbetween, ih hbefore n⟩

theorem tells_filter : Tells (log.filter (·.eventAt ≠ 0)) status ↔ Tells log status := by
  induction log generalizing status with
  | nil => rfl
  | cons event older ih =>
    simp only [ne_eq, decide_not] at ih ⊢
    by_cases hzero : event.eventAt = 0 <;> simp [Tells, hzero, ih]

theorem Tells.append {card : WorkboardCard} {entry : EventEntry} {id : NonBlank} {now : ℕ}
    (h : Tells card.events.reverse card.status) (hbetween : entry.Between card.status next)
    (hnow : now = 0 → card.status = next) : Tells (appendEvent card entry id now).reverse next := by
  have hkept : Tells (normalizeEvents card.events).reverse card.status := by
    rw [normalizeEvents, rtake_eq_reverse_take_reverse, reverse_reverse, ← filter_reverse]
    exact (tells_filter.mpr h).take _
  rw [appendEvent, rtake_eq_reverse_take_reverse, reverse_reverse, reverse_append, reverse_singleton, singleton_append]
  refine Tells.take ?_ _
  unfold Tells
  split_ifs with hzero
  · exact hnow hzero ▸ hkept
  · exact ⟨_, hbetween, hkept⟩

theorem between_updateEvent (existing next : WorkboardCard) :
    (updateEvent existing next).Between existing.status next.status := by
  let P (entry : EventEntry) : Prop := entry.Between existing.status next.status
  change P (updateEvent existing next)
  refine iteInduction (motive := P) (fun _ => trivial) fun _ => ?_
  refine iteInduction (motive := P) (fun _ => ⟨rfl, rfl⟩) fun hmoved => ?_
  have hsame : existing.status = next.status := not_not.mp fun hstatus => hmoved (.inl hstatus)
  repeat' refine iteInduction (motive := P) (fun _ => ?_) fun _ => ?_
  all_goals exact hsame

variable [Platform]

theorem invariant_tells (e : Extent) : Invariant e fun c => Tells c.events.reverse c.status where
  updated := by
    intro w w' left c next patch options _ _ _ updated h
    obtain ⟨effective, draw, -, hnext, -⟩ := updated.patched
    obtain ⟨id, hevents⟩ := (patchCard_spec hnext).events
    rw [hevents]
    exact h.append (between_updateEvent c next) fun hzero => absurd hzero (Platform.clock_pos _).ne'
  recorded := by
    intro c next records h
    rw [records.status]
    rcases records.events with hsame | ⟨entry, id, now, hevents, hmoved, hcreated⟩
    · rwa [hsame]
    · rw [hevents]
      refine h.append ?_ fun _ => rfl
      unfold EventEntry.Between
      split <;> trivial
  created := by
    intro w card new
    obtain ⟨cards, input, status, automation, held, draw, now, -, hcard⟩ := new.made
    simp only [newCard, Except.bind_eq_ok] at hcard
    obtain ⟨notes, -, metadata, -, title, -, priority, -, labels, -, hcard⟩ := hcard
    rw [← congrArg (·.events) (Except.ok.inj hcard), ← congrArg (·.status) (Except.ok.inj hcard)]
    simp only [Tells, reverse_singleton]
    split_ifs
    exact ⟨status, rfl, trivial⟩
  dropped _ h := h

/-- **The log tells the status**: after any run of operations. -/
theorem log_tells_status (run : List Operation) : LogsTell (initial.after run) := by
  let e : Extent := ⟨fun _ => True, fun _ => True, fun _ => True, true⟩
  have hsteps : Steps e initial (initial.after run) :=
    steps_after (fun _ => trivial) fun op _ => by cases op <;> simp [Operation.Within, e]
  exact hsteps.forall_cards (invariant_tells e) fun c hc => absurd hc (KeyedTable.not_mem_empty c)

end ClawWorks.Workboard
