import ClawWorks.Delivery.Claims

/-!
# Accepted once

No payload that the platform accepted is handed to it again, as long as no unmarked entry of which a part was accepted is
left by a crash or a failure.
-/

namespace ClawWorks.Delivery

open World Option List Prog Threads

/-- The attempt, the payload and the unit that was handed over, and whether the platform accepted it. -/
def Event.handed? : Event → Option (Attempt × Nat × Nat × Bool)
  | ⟨.send attempt index unit, reply⟩ => some (attempt, index, unit, reply.accepted)
  | _ => none

open Event

def Accepted (events : List Event) (id : EntryId) : Prop :=
  ∃ event ∈ events, ∃ attempt index unit, event.handed? = some (attempt, index, unit, true) ∧ attempt.id = id

/-- After an accepted unit of a payload, only later units of the payload are handed over, by the same delivery. -/
def LaterUnit (event event' : Event) : Prop :=
  ∀ attempt index unit, event.handed? = some (attempt, index, unit, true) →
    ∀ attempt' unit' accepted, event'.handed? = some (attempt', index, unit', accepted) →
      attempt'.id = attempt.id → attempt' = attempt ∧ unit < unit'

def NotResent (events : List Event) : Prop :=
  events.Pairwise LaterUnit

/-- Adapters that reconcile say whether any part of the entry was sent. -/
def Truthful (w : World) : Move Action Reply → Prop
  | .act (.reconcile attempt _) reply =>
    (reply = some .sent → Accepted w.trace attempt.id) ∧ (reply = some .not_sent → ¬Accepted w.trace attempt.id)
  | _ => True

/-- No part of an entry that is pending without a mark was accepted. -/
def UnsentIfUnmarked (w : World) (id : EntryId) : Prop :=
  unmarked (w.pending id) = true → ¬Accepted w.trace id

/-- The process does not crash, and no attempt is given up as failed, where an entry has no mark but an accepted part. -/
def LeavesNoTrace (w : World) : Move Action Reply → Prop
  | .act (.update id (.failDelivery _ _)) _ => UnsentIfUnmarked w id
  | .crash => ∀ id, UnsentIfUnmarked w id
  | _ => True

/-! ## The discipline -/

def Below (log : List Event) (index unit : Nat) : Prop :=
  ∀ event ∈ log, ∀ attempt index' unit' accepted, event.handed? = some (attempt, index', unit', accepted) →
    index' < index ∨ index' = index ∧ unit' < unit

def NothingAccepted (log : List Event) : Prop :=
  ∀ event ∈ log, ∀ attempt index unit, event.handed? ≠ some (attempt, index, unit, true)

def Asks (h : Held) : Action → Prop
  | .send _ index unit => h.fresh = true ∧ Below h.log index unit
  | .release _ => unmarked h.entry = true → h.fresh = true ∧ NothingAccepted h.log
  | _ => True

def Learns (h : Held) : (action : Action) → Reply action → Prop
  | .update _ (.failDelivery _ _), _ => unmarked h.entry = true → NothingAccepted h.log
  | _, _ => True

/-- A fresh attempt is the only one that had something accepted. -/
def FreshIsFirst (w : World) (h : Held) : Prop :=
  h.fresh = true → ∀ event ∈ w.trace, ∀ attempt index unit,
    event.handed? = some (attempt, index, unit, true) → attempt.id = h.attempt.id → attempt = h.attempt

structure SentOnce (w : World) (views : List View) : Prop where
  owned : Owned w views
  unclaimed : ∀ id, w.entriesInProgress id = none → UnsentIfUnmarked w id
  fresh : ∀ h, some h ∈ views → FreshIsFirst w h
  notResent : NotResent w.trace

variable {event : Event}

theorem handed?_attempt {attempt : Attempt} {index unit : Nat} {accepted : Bool}
    (h : event.handed? = some (attempt, index, unit, accepted)) : event.action.attempt? = some attempt := by
  obtain ⟨action, reply⟩ := event
  cases action with
  | send attempt' index' unit' =>
    obtain ⟨rfl, -⟩ := Prod.mk.inj (some.inj h)
    rfl
  | _ => cases h

theorem accepted_of_fresh {w : World} {h : Held} (hfits : Fits w h) (hfirst : FreshIsFirst w h) (hfresh : h.fresh)
    (hnone : NothingAccepted h.log) : ¬Accepted w.trace h.attempt.id := by
  rintro ⟨event, hevent, attempt, index, unit, hhanded, hid⟩
  obtain rfl := hfirst hfresh event hevent attempt index unit hhanded hid
  refine hnone event ?_ h.attempt index unit hhanded
  rw [hfits.log]
  exact mem_filter.mpr ⟨hevent, decide_eq_true (handed?_attempt hhanded)⟩

theorem nothingAccepted_of_unaccepted {w : World} {h : Held} (hfits : Fits w h)
    (hnone : ¬Accepted w.trace h.attempt.id) :
    NothingAccepted h.log := by
  intro event hevent attempt index unit hhanded
  rw [hfits.log] at hevent
  obtain ⟨hmem, hattempt⟩ := mem_filter.mp hevent
  rw [handed?_attempt hhanded] at hattempt
  obtain rfl := some.inj (of_decide_eq_true hattempt)
  exact hnone ⟨event, hmem, h.attempt, index, unit, hhanded, rfl⟩

theorem accepted_concat {events : List Event} {id : EntryId} : Accepted (events ++ [event]) id ↔
      Accepted events id ∨ ∃ attempt index unit, event.handed? = some (attempt, index, unit, true) ∧ attempt.id = id := by
  constructor
  · rintro ⟨e, he, hhanded⟩
    rcases mem_append.mp he with he | he
    · exact .inl ⟨e, he, hhanded⟩
    · obtain rfl := mem_singleton.mp he
      exact .inr hhanded
  · rintro (⟨e, he, hhanded⟩ | hhanded)
    · exact ⟨e, mem_append_left _ he, hhanded⟩
    · exact ⟨event, mem_append_right _ mem_cons_self, hhanded⟩

/-! ## The invariant -/

section Step

variable {w : World} {before after : List View} {v : View} {action : Action} {reply : Reply action}

theorem holder_of_handed (howned : Owned w (before ++ v :: after)) (hcan : Can v action) {attempt : Attempt}
    {index unit : Nat} {accepted : Bool}
    (hhanded : handed? ⟨action, reply⟩ = some (attempt, index, unit, accepted)) :
    ∃ own, v = some own ∧ own.attempt = attempt ∧ Fits w own := by
  have hattempt := handed?_attempt hhanded
  cases v with
  | none =>
    rw [show action.attempt? = none from hcan.1] at hattempt
    cases hattempt
  | some own =>
    exact ⟨own, rfl, (hcan.1 attempt hattempt).symm, howned.fits own (mem_append_right _ mem_cons_self)⟩

theorem unclaimed_act (h : SentOnce w (before ++ v :: after)) (hcan : Can v action)
    (hasks : ∀ own, v = some own → Asks own action) (hanswer : Answers w action reply) {id : EntryId}
    (hfree : (queue.after w action reply).entriesInProgress id = none) :
    UnsentIfUnmarked (queue.after w action reply) id := by
  intro hunmarked hnow
  have hcases : Accepted w.trace id ∨ ∃ attempt index unit,
      handed? ⟨action, reply⟩ = some (attempt, index, unit, true) ∧ attempt.id = id := accepted_concat.mp hnow
  rcases hcases with haccepted | ⟨attempt, index, unit, hhanded, hid⟩
  · by_cases htouched : touched action reply = some id
    · -- a claim that is given back, or an entry that is new
      have hholder : ∀ own, v = some own → own.attempt.id = id → w.entriesInProgress id ≠ none := by
        rintro own rfl rfl
        rw [(h.owned.fits own (mem_append_right _ mem_cons_self)).claimed]
        exact some_ne_none _
      cases action with
      | enqueueDelivery params now =>
        obtain rfl := some.inj htouched
        obtain ⟨event, hevent, attempt, index, unit, hhanded, hid⟩ := haccepted
        exact hanswer.1.2.2.2 event hevent attempt (handed?_attempt hhanded) hid
      | claim id' =>
        cases reply with
        | none => cases htouched
        | some number =>
          obtain rfl := some.inj htouched
          have hclaimed : Function.update w.entriesInProgress id' (some ⟨number, true⟩) id' = none := hfree
          rw [Function.update_self] at hclaimed
          cases hclaimed
      | release id' =>
        obtain rfl := some.inj htouched
        cases v with
        | none => exact absurd hcan.2 (some_ne_none _)
        | some own =>
          have hfits := h.owned.fits own (mem_append_right _ mem_cons_self)
          obtain rfl : id' = own.attempt.id := hcan.2.1 id' rfl
          have hentry : unmarked own.entry := by
            rw [← hfits.entry]
            exact hunmarked
          obtain ⟨hfresh, hnone⟩ := hasks own rfl hentry
          exact accepted_of_fresh hfits (h.fresh own (mem_append_right _ mem_cons_self)) hfresh hnone haccepted
      | update id' u | ackDelivery id' | moveToFailed id' =>
        obtain rfl := some.inj htouched
        cases v with
        | none => exact absurd hcan.2 (some_ne_none _)
        | some own => exact hholder own rfl (hcan.2.1 id' rfl).symm hfree
      | _ => cases htouched
    · obtain ⟨hpending, hprogress⟩ := change_frame w action reply htouched
      refine h.unclaimed id (hprogress.symm.trans hfree) ?_ haccepted
      rw [← hpending]
      exact hunmarked
  · obtain ⟨own, rfl, rfl, hfits⟩ := holder_of_handed h.owned hcan hhanded
    have huntouched : touched action reply ≠ some id := by
      rw [touched_eq_none_of_attempt (handed?_attempt hhanded)]
      exact (some_ne_none _).symm
    have hclaimed := (change_frame w action reply huntouched).2.symm.trans hfree
    rw [← hid, hfits.claimed] at hclaimed
    cases hclaimed

theorem freshIsFirst_of_unaccepted {h : Held} (hnone : ¬Accepted w.trace h.attempt.id) : FreshIsFirst w h :=
  fun _ event hevent attempt index unit hhanded hid => absurd ⟨event, hevent, attempt, index, unit, hhanded, hid⟩ hnone

theorem freshIsFirst_concat {h : Held} (hfirst : FreshIsFirst w h)
    (hown : ∀ attempt index unit accepted, handed? ⟨action, reply⟩ = some (attempt, index, unit, accepted) →
      attempt.id = h.attempt.id → attempt = h.attempt) : FreshIsFirst (queue.after w action reply) h := by
  intro hfresh event hevent attempt index unit hhanded hid
  rcases mem_append.mp hevent with hevent | hevent
  · exact hfirst hfresh event hevent attempt index unit hhanded hid
  · obtain rfl := mem_singleton.mp hevent
    exact hown attempt index unit true hhanded hid

theorem fresh_act (h : SentOnce w (before ++ v :: after)) (hcan : Can v action) (hanswer : Answers w action reply)
    (htruthful : Truthful w (.act action reply)) {v' : View} (hnext : Next v action reply v')
    (howned : Owned (queue.after w action reply) (before ++ v' :: after)) :
    ∀ held, some held ∈ before ++ v' :: after → FreshIsFirst (queue.after w action reply) held := by
  intro held hmem
  obtain ⟨hbefore, hrest, hcross⟩ := pairwise_append.mp h.owned.apart
  obtain ⟨hhead, hafter⟩ := pairwise_cons.mp hrest
  -- what is handed over is no other delivery's
  have hother : ∀ own', v = some own' → own'.attempt.id ≠ held.attempt.id →
      ∀ attempt index unit accepted, handed? ⟨action, reply⟩ = some (attempt, index, unit, accepted) →
        attempt.id = held.attempt.id → attempt = held.attempt := by
    rintro own' rfl hne attempt index unit accepted hhanded hid
    obtain ⟨own, heq, rfl, -⟩ := holder_of_handed h.owned hcan hhanded
    obtain rfl := some.inj heq
    exact absurd hid hne
  have hidle : v = none → ∀ attempt index unit accepted,
      handed? ⟨action, reply⟩ ≠ some (attempt, index, unit, accepted) := by
    rintro rfl attempt index unit accepted hhanded
    obtain ⟨own, heq, -⟩ := holder_of_handed h.owned hcan hhanded
    cases heq
  have hothers : some held ∈ before ∨ some held ∈ after → FreshIsFirst (queue.after w action reply) held := by
    intro hmem
    have hfirst : FreshIsFirst w held := by
      rcases hmem with hmem | hmem
      · exact h.fresh held (mem_append_left _ hmem)
      · exact h.fresh held (mem_append_right _ (mem_cons_of_mem _ hmem))
    refine freshIsFirst_concat hfirst ?_
    cases hv : v with
    | none => exact fun attempt index unit accepted hhanded => absurd hhanded (hidle hv attempt index unit accepted)
    | some own =>
      refine hother own hv fun heq => ?_
      rcases hmem with hmem | hmem
      · exact hcross _ hmem v mem_cons_self held own rfl hv heq.symm
      · exact hhead _ hmem own held hv rfl heq
  rcases mem_append.mp hmem with hmem | hmem
  · exact hothers (.inl hmem)
  rcases mem_cons.mp hmem with heq | hmem
  swap
  · exact hothers (.inr hmem)
  subst heq
  cases v with
  | none =>
    have hkeep : ¬Accepted w.trace held.attempt.id → FreshIsFirst (queue.after w action reply) held := fun hnone =>
      freshIsFirst_concat (freshIsFirst_of_unaccepted hnone) fun attempt index unit accepted hhanded =>
        absurd hhanded (hidle rfl attempt index unit accepted)
    cases action with
    | enqueueDelivery params now =>
      obtain ⟨number, hnumber, rfl⟩ := map_eq_some_iff.mp hnext.symm
      refine hkeep ?_
      rintro ⟨event, hevent, attempt, index, unit, hhanded, hid⟩
      exact hanswer.1.2.2.2 event hevent attempt (handed?_attempt hhanded) hid
    | claim id =>
      cases reply with
      | none => cases hnext
      | some number =>
        -- the entry that the claim finds is the one the queue has
        have hfits := howned.fits held (mem_append_right _ mem_cons_self)
        obtain ⟨entry, heq, -⟩ := hnext
        obtain rfl := some.inj heq
        have hfree : w.entriesInProgress id = none := by
          have hreply : some number = if (w.entriesInProgress id).isSome then none else some w.nextNumber := hanswer
          split at hreply
          · cases hreply
          · rename_i hnone
            simpa using hnone
        have hfirst : FreshIsFirst w ⟨⟨id, number⟩, true, entry, [], unmarked entry⟩ := by
          intro hfresh
          have hunmarked : unmarked (w.pending id) := by
            rw [show w.pending id = entry from hfits.entry]
            exact hfresh
          exact freshIsFirst_of_unaccepted (h.unclaimed id hfree hunmarked) hfresh
        exact freshIsFirst_concat hfirst fun attempt index unit accepted hhanded =>
          absurd hhanded (hidle rfl attempt index unit accepted)
    | _ => cases hnext
  | some own =>
    have hmine : ∀ attempt index unit accepted,
        handed? ⟨action, reply⟩ = some (attempt, index, unit, accepted) → attempt = own.attempt := by
      intro attempt index unit accepted hhanded
      obtain ⟨own', heq, rfl, -⟩ := holder_of_handed h.owned hcan hhanded
      obtain rfl := some.inj heq
      rfl
    have hfirst := h.fresh own (mem_append_right _ mem_cons_self)
    -- what the attempt knew it still knows
    have hkeep : held.attempt = own.attempt → (held.fresh → own.fresh) →
        FreshIsFirst (queue.after w action reply) held := by
      intro hattempt hfresh
      refine freshIsFirst_concat (fun hheld => ?_) fun attempt index unit accepted hhanded _ => ?_
      · rw [hattempt]
        exact hfirst (hfresh hheld)
      · rw [hattempt]
        exact hmine attempt index unit accepted hhanded
    cases action with
    | release id => cases hnext
    | loadPendingDelivery id | update id u | moveToFailed id =>
      obtain rfl := some.inj hnext.2
      exact hkeep rfl fun hfresh => hfresh
    | ackDelivery id =>
      obtain rfl := some.inj hnext
      exact hkeep rfl fun hfresh => hfresh
    | reconcile attempt entry =>
      obtain rfl : attempt = own.attempt := hcan.1 attempt rfl
      obtain rfl := some.inj hnext
      by_cases hreply : reply = some .not_sent
      · exact freshIsFirst_concat (freshIsFirst_of_unaccepted (htruthful.2 hreply)) fun _ _ _ _ hhanded => by cases hhanded
      · refine hkeep rfl fun hfresh => ?_
        rcases (Bool.or_eq_true _ _).mp hfresh with hfresh | hfresh
        · exact hfresh
        · exact absurd (eq_of_beq hfresh) hreply
    | _ =>
      obtain rfl := some.inj hnext
      exact hkeep rfl fun hfresh => hfresh

theorem notResent_act (h : SentOnce w (before ++ v :: after)) (hcan : Can v action)
    (hasks : ∀ own, v = some own → Asks own action) : NotResent (queue.after w action reply).trace := by
  refine pairwise_append.mpr ⟨h.notResent, pairwise_singleton _ _, ?_⟩
  intro event hevent event' hevent' attempt index unit hhanded attempt' unit' accepted hhanded' hid
  obtain rfl := mem_singleton.mp hevent'
  obtain ⟨own, rfl, rfl, hfits⟩ := holder_of_handed h.owned hcan hhanded'
  obtain ⟨hfresh, hbelow⟩ : own.fresh ∧ Below own.log index unit' := by
    cases action with
    | send attempt'' index'' unit'' =>
      simp only [handed?, some.injEq, Prod.mk.injEq] at hhanded'
      obtain ⟨-, rfl, rfl, -⟩ := hhanded'
      exact hasks own rfl
    | _ => cases hhanded'
  have hattempt := h.fresh own (mem_append_right _ mem_cons_self) hfresh event hevent attempt index unit hhanded
    hid.symm
  subst hattempt
  have hlog : event ∈ own.log := by
    rw [hfits.log]
    exact mem_filter.mpr ⟨hevent, decide_eq_true (handed?_attempt hhanded)⟩
  refine ⟨rfl, ?_⟩
  rcases hbelow event hlog _ _ _ _ hhanded with hlt | ⟨-, hlt⟩
  · exact absurd hlt (lt_irrefl index)
  · exact hlt

end Step

theorem sentOnce_keeps :
    Keeps queue (fun w move => Truthful w move ∧ LeavesNoTrace w move) (discipline Asks Learns) none SentOnce where
  spawn h := by
    refine ⟨owned_spawn h.owned, h.unclaimed, fun held hmem => ?_, h.notResent⟩
    rcases mem_cons.mp hmem with heq | hmem
    · cases heq
    · exact h.fresh held hmem
  act {w before after v action reply} h hcan hanswer hcond := by
    obtain ⟨hcan, hasks⟩ := hcan
    obtain ⟨htruthful, htrace⟩ := hcond
    obtain ⟨v', hnext, howned⟩ := owned_act h.owned hcan hanswer
    refine ⟨v', ⟨hnext, ?_⟩, howned, fun id hfree => unclaimed_act h hcan hasks hanswer hfree,
      fresh_act h hcan hanswer htruthful hnext howned, notResent_act h hcan hasks⟩
    rintro own rfl
    have hfits := h.owned.fits own (mem_append_right _ mem_cons_self)
    cases action with
    | update id u =>
      obtain rfl := hcan.2.1 id rfl
      cases u with
      | failDelivery error now =>
        intro hunmarked
        rw [← hfits.entry] at hunmarked
        exact nothingAccepted_of_unaccepted hfits (htrace hunmarked)
      | _ => trivial
    | _ => trivial
  crash {w views} h hcond :=
    ⟨owned_crash h.owned, fun id _ => hcond.2 id, fun _ hmem => absurd hmem not_mem_nil, h.notResent⟩

/-! ## Deliveries -/

abbrev Accepting : Discipline Action Reply View := discipline Asks Learns

/-- An attempt that may hand something over; in the queue the entry is marked before. -/
structure Delivering (c : CoreParams) (s : Sending) (h : Held) : Prop where
  attempt : h.attempt = c.attempt
  fresh : h.fresh = true
  entry : h.entry.isSome = true
  queue : ∀ id, c.queueId = some id → id = c.attempt.id
  marked : c.queueId.isSome = true → s.platformSendStarted = true → unmarked h.entry = false
  unsent : c.queueId.isSome = true → s.platformSendStarted = false → NothingAccepted h.log

theorem below_concat {log : List Event} {index unit : Nat} (h : Below log index unit)
    (hevent : event.handed? = none) : Below (log ++ [event]) index unit := by
  intro e he attempt index' unit' accepted hhanded
  rcases mem_append.mp he with he | he
  · exact h e he attempt index' unit' accepted hhanded
  · obtain rfl := mem_singleton.mp he
    rw [hevent] at hhanded
    cases hhanded

theorem Below.mono {log : List Event} {index index' unit unit' : Nat} (h : Below log index unit)
    (hle : index < index' ∨ index = index' ∧ unit ≤ unit') : Below log index' unit' := by
  intro e he attempt i u accepted hhanded
  have hi := h e he attempt i u accepted hhanded
  omega

theorem nothingAccepted_concat {log : List Event} (h : NothingAccepted log)
    (hevent : event.handed? = none) : NothingAccepted (log ++ [event]) := by
  intro e he attempt index unit hhanded
  rcases mem_append.mp he with he | he
  · exact h e he attempt index unit hhanded
  · obtain rfl := mem_singleton.mp he
    rw [hevent] at hhanded
    cases hhanded

section Programs

variable {α : Type} {post : α → View → Prop} {c : CoreParams} {s : Sending} {h : Held} {index unit : Nat}

variable {attempt : Attempt}

theorem handed?_quiet {action : Action} (h : action.quiet attempt) (reply : Reply action) :
    handed? ⟨action, reply⟩ = none := by
  cases action <;> first | rfl | exact absurd h id

theorem accepting_quiet {action : Action} {f : Reply action → Run α} (hd : Delivering c s h)
    (hb : Below h.log index unit) (hquiet : action.quiet c.attempt)
    (hnext : ∀ reply h', Delivering c s h' → Below h'.log index unit → (f reply).Meets Accepting post (some h')) :
    (perform action >>= f).Meets Accepting post (some h) := by
  have hasks : Asks h action := by
    cases action <;> trivial
  refine meets_quiet (by rw [hd.attempt]; exact hquiet) hasks fun reply _ => ?_
  have hhanded := handed?_quiet hquiet reply
  refine hnext reply _ ⟨hd.attempt, hd.fresh, hd.entry, hd.queue, hd.marked, fun hqueue hstarted => ?_⟩
    (below_concat hb hhanded)
  exact nothingAccepted_concat (hd.unsent hqueue hstarted) hhanded

/-- What a part of a delivery leaves: the delivery goes on behind a unit. -/
def GoesOn (c : CoreParams) (index unit : Nat) {β : Type} (result : Sent β) (v : View) : Prop :=
  ∃ h, v = some h ∧ Delivering c result.1 h ∧ Below h.log index unit

theorem meets_throwIfAborted {f : Except DeliveryError Unit → Run α} (hd : Delivering c s h)
    (hb : Below h.log index unit)
    (hnext : ∀ go h', Delivering c s h' → Below h'.log index unit → (f go).Meets Accepting post (some h')) :
    (throwIfAborted c >>= f).Meets Accepting post (some h) := by
  unfold throwIfAborted
  split
  · exact accepting_quiet hd hb rfl fun reply h' hd' hb' => hnext _ h' hd' hb'
  · exact hnext _ h hd hb

theorem meets_onPlatformSendStart (hd : Delivering c s h) (hb : Below h.log index unit) :
    (onPlatformSendStart c s).Meets Accepting (fun result v => GoesOn c index unit result v ∧
        (result.2 = .ok () → c.queueId.isSome → result.1.platformSendStarted)) (some h) := by
  unfold onPlatformSendStart
  split
  · rename_i hqueue
    refine ⟨⟨h, rfl, hd, hb⟩, fun _ hsome => ?_⟩
    rw [hqueue] at hsome
    cases hsome
  · rename_i id hqueue
    split
    · rename_i hstarted
      exact ⟨⟨h, rfl, hd, hb⟩, fun _ _ => hstarted⟩
    · refine meets_now (fun _ => trivial) fun now => ?_
      refine meets_update ((hd.queue id hqueue).trans (congrArg Attempt.id hd.attempt.symm)) trivial fun _ => ?_
      obtain ⟨e, he⟩ := isSome_iff_exists.mp hd.entry
      rw [he]
      refine ⟨⟨_, rfl, ⟨hd.attempt, hd.fresh, rfl, hd.queue, fun _ _ => rfl, fun _ hnot => ?_⟩, hb⟩, fun _ _ => rfl⟩
      cases hnot

theorem meets_sendUnit (hd : Delivering c s h) (hb : Below h.log index unit) :
    (sendUnit c index unit s).Meets Accepting (fun result v => GoesOn c index (unit + 1) result v) (some h) := by
  unfold sendUnit
  have hlater : ∀ {h' : Held}, Below h'.log index unit → Below h'.log index (unit + 1) := fun hb' =>
    hb'.mono (.inr ⟨rfl, Nat.le_succ unit⟩)
  refine accepting_quiet hd hb rfl fun ready h hd hb => ?_
  cases ready with
  | error e => exact ⟨h, rfl, hd, hlater hb⟩
  | ok _ =>
    refine (meets_onPlatformSendStart hd hb).seq ?_
    rintro ⟨s, started⟩ v' ⟨⟨h, rfl, hd, hb⟩, hmarked⟩
    cases started with
    | error e => exact ⟨h, rfl, hd, hlater hb⟩
    | ok _ =>
      have hstarted := hmarked rfl
      refine meets_perform ⟨fun attempt heq => ?_, (fun _ heq => by cases heq), trivial⟩ ⟨hd.fresh, hb⟩
        fun handed v' hv' _ => ?_
      · rw [← some.inj heq]
        exact hd.attempt.symm
      · have hv' : v' = some (h.logged (.send c.attempt index unit) handed) := hv'
        subst hv'
        have hbelow : Below (h.log ++ [(⟨.send c.attempt index unit, handed⟩ : Event)]) index (unit + 1) := by
          intro e he attempt index' unit' accepted hhanded
          rcases mem_append.mp he with he | he
          · exact hlater hb e he attempt index' unit' accepted hhanded
          · obtain rfl := mem_singleton.mp he
            simp only [handed?, some.injEq, Prod.mk.injEq] at hhanded
            omega
        have hgoes : ∀ results : Nat, Delivering c { s with results := results }
            (h.logged (.send c.attempt index unit) handed) := fun results =>
          ⟨hd.attempt, hd.fresh, hd.entry, hd.queue, hd.marked, fun hqueue hnot => absurd (hstarted hqueue) (by
            rw [show s.platformSendStarted = false from hnot]
            exact Bool.false_ne_true)⟩
        cases hresult : handed.result with
        | error e =>
          simp only
          exact ⟨_, rfl, hgoes s.results, hbelow⟩
        | ok identified =>
          simp only
          exact ⟨_, rfl, hgoes (s.results + identified), hbelow⟩

theorem meets_sendUnits (count : Nat) (hd : Delivering c s h) (hb : Below h.log index unit) :
    (sendUnits c index count unit s).Meets Accepting (fun result v => GoesOn c (index + 1) 0 result v) (some h) := by
  have hdone : ∀ {h' : Held} {unit' : Nat}, Below h'.log index unit' → Below h'.log (index + 1) 0 := fun hb' =>
    hb'.mono (.inl (Nat.lt_succ_self index))
  induction count generalizing unit s h with
  | zero => exact ⟨h, rfl, hd, hdone hb⟩
  | succ count ih =>
    unfold sendUnits
    refine meets_throwIfAborted hd hb fun go h hd hb => ?_
    cases go with
    | error e => exact ⟨h, rfl, hd, hdone hb⟩
    | ok _ =>
      refine (meets_sendUnit hd hb).seq ?_
      rintro ⟨s, sent⟩ v' ⟨h, rfl, hd, hb⟩
      cases sent with
      | error e => exact ⟨h, rfl, hd, hdone hb⟩
      | ok _ => exact ih hd hb

theorem meets_afterDelivered (payload : Nat) (hd : Delivering c s h) (hb : Below h.log index unit) :
    (afterDelivered c payload s).Meets Accepting (fun result v => GoesOn c index unit result v) (some h) :=
  accepting_quiet hd hb rfl fun _ h hd hb => ⟨h, rfl, hd, hb⟩

theorem meets_sendPlanned (plan : SendPlan) (hd : Delivering c s h) (hb : Below h.log index 0) :
    (sendPlanned c index s plan).Meets Accepting (fun result v => GoesOn c (index + 1) 0 result v) (some h) := by
  have hdone : ∀ {h' : Held} {unit' : Nat}, Below h'.log index unit' → Below h'.log (index + 1) 0 := fun hb' =>
    hb'.mono (.inl (Nat.lt_succ_self index))
  cases plan with
  | payload =>
    refine (meets_sendUnit hd hb).seq ?_
    rintro ⟨s, sent⟩ v' ⟨h, rfl, hd, hb⟩
    cases sent with
    | error e => exact ⟨h, rfl, hd, hdone hb⟩
    | ok delivered =>
      refine accepting_quiet hd hb rfl fun _ h hd hb => ?_
      split
      · exact (meets_afterDelivered index hd hb).mono fun result v' ⟨h, hv, hd, hb⟩ => ⟨h, hv, hd, hdone hb⟩
      · exact ⟨h, rfl, hd, hdone hb⟩
  | formattedText =>
    refine (meets_sendUnit hd hb).seq ?_
    rintro ⟨s, sent⟩ v' ⟨h, rfl, hd, hb⟩
    cases sent with
    | error e => exact ⟨h, rfl, hd, hdone hb⟩
    | ok delivered =>
      refine accepting_quiet hd hb rfl fun _ h hd hb => ?_
      exact (meets_afterDelivered index hd hb).mono fun result v' ⟨h, hv, hd, hb⟩ => ⟨h, hv, hd, hdone hb⟩
  | textChunks units =>
    refine (meets_sendUnits units hd hb).seq ?_
    rintro ⟨s, sent⟩ v' ⟨h, rfl, hd, hb⟩
    cases sent with
    | error e => exact ⟨h, rfl, hd, hb⟩
    | ok _ =>
      refine accepting_quiet hd hb rfl fun _ h hd hb => ?_
      exact meets_afterDelivered index hd hb
  | media units =>
    refine (meets_sendUnits units hd hb).seq ?_
    rintro ⟨s, sent⟩ v' ⟨h, rfl, hd, hb⟩
    cases sent with
    | error e => exact ⟨h, rfl, hd, hb⟩
    | ok _ =>
      refine (meets_afterDelivered index hd hb).seq ?_
      rintro ⟨s, after⟩ v' ⟨h, rfl, hd, hb⟩
      cases after with
      | error e => exact ⟨h, rfl, hd, hb⟩
      | ok _ => exact accepting_quiet hd hb rfl fun _ h hd hb => ⟨h, rfl, hd, hb⟩

theorem meets_deliverPayload (hd : Delivering c s h) (hb : Below h.log index 0) :
    (deliverPayload c index s).Meets Accepting (fun result v => GoesOn c (index + 1) 0 result v) (some h) := by
  have hdone : ∀ {h' : Held}, Below h'.log index 0 → Below h'.log (index + 1) 0 := fun hb' =>
    hb'.mono (.inl (Nat.lt_succ_self index))
  unfold deliverPayload
  refine meets_throwIfAborted hd hb fun go h hd hb => ?_
  cases go with
  | error e => exact ⟨h, rfl, hd, hdone hb⟩
  | ok _ =>
    refine accepting_quiet hd hb rfl fun prepared h hd hb => ?_
    have hsuppress : ∀ reason, (suppress c index s reason).Meets Accepting
        (fun result v => GoesOn c (index + 1) 0 result v) (some h) := fun reason =>
      accepting_quiet hd hb rfl fun _ h hd hb => ⟨h, rfl, hd, hdone hb⟩
    match prepared with
    | .error e => exact ⟨h, rfl, hd, hdone hb⟩
    | .ok .cancelledByReplyHook => exact hsuppress _
    | .ok .cancelledByMessageHook => exact hsuppress _
    | .ok (.empty contentRewritten changed) => exact hsuppress _
    | .ok (.ready plan) => exact meets_sendPlanned plan hd hb

theorem meets_deliverPayloads {indices : List Nat} (hsorted : indices.Pairwise (· < ·))
    (hnext : ∀ i ∈ indices, index ≤ i) (hd : Delivering c s h) (hb : Below h.log index 0) :
    (deliverPayloads c indices s).Meets Accepting (fun result v => ∃ last, GoesOn c last 0 result v) (some h) := by
  induction indices generalizing index s h with
  | nil => exact ⟨index, h, rfl, hd, hb⟩
  | cons i rest ih =>
    obtain ⟨hfirst, hrest⟩ := pairwise_cons.mp hsorted
    have hi := hnext i mem_cons_self
    have hlater : ∀ i' ∈ rest, i + 1 ≤ i' := fun i' hi' => hfirst i' hi'
    unfold deliverPayloads
    refine (meets_deliverPayload hd (hb.mono (by omega))).seq ?_
    rintro ⟨s, delivered⟩ v' ⟨h, rfl, hd, hb⟩
    cases delivered with
    | ok _ => exact ih hrest hlater hd hb
    | error e =>
      refine accepting_quiet hd hb rfl fun _ h hd hb => ?_
      split
      · exact ih hrest hlater ⟨hd.attempt, hd.fresh, hd.entry, hd.queue, hd.marked, hd.unsent⟩ hb
      · exact ⟨i + 1, h, rfl, hd, hb⟩

variable {f : Unit → Run α}

theorem meets_recordNoVisiblePayload (indices : List Nat) (hd : Delivering c s h) (hb : Below h.log index unit)
    (hnext : ∀ h', Delivering c s h' → Below h'.log index unit → (f ()).Meets Accepting post (some h')) :
    (recordNoVisiblePayload c indices >>= f).Meets Accepting post (some h) := by
  induction indices generalizing h with
  | nil => exact hnext h hd hb
  | cons i rest ih => exact accepting_quiet hd hb rfl fun _ h hd hb => ih hd hb

theorem meets_core (hd : Delivering c s h) (hb : Below h.log 0 0) :
    (deliverOutboundPayloadsCore c s).Meets Accepting (fun result v => ∃ last, GoesOn c last 0 result v) (some h) := by
  unfold deliverOutboundPayloadsCore
  refine accepting_quiet hd hb rfl fun normalized h hd hb => ?_
  cases normalized with
  | error e => exact ⟨0, h, rfl, hd, hb⟩
  | ok visible =>
    simp only
    split
    · exact meets_recordNoVisiblePayload _ hd hb fun h hd hb => ⟨0, h, rfl, hd, hb⟩
    · exact meets_deliverPayloads (pairwise_lt_range.filter _) (fun i _ => Nat.zero_le i) hd hb

/-! ## Entries -/

/-- The claim may be given back. -/
def Released (h : Held) : Prop :=
  unmarked h.entry = true → h.fresh = true ∧ NothingAccepted h.log

theorem unmarked_failDelivery (entry : Option QueuedDelivery) (error : JsString) (now : Nat) :
    unmarked (entry.map (Update.failDelivery error now).apply) = unmarked entry := by
  cases entry <;> rfl

theorem unmarked_markOutcomeUnknown (entry : Option QueuedDelivery) (now : Nat) :
    unmarked (entry.map (Update.markOutcomeUnknown now).apply) = false := by
  cases entry <;> rfl

variable {id : EntryId}

theorem meets_failDelivery {error : JsString} {f : Bool → Run α} (hid : id = h.attempt.id)
    (hfresh : unmarked h.entry → h.fresh)
    (hnext : ∀ reply h', h'.attempt = h.attempt → Released h' → (f reply).Meets Accepting post (some h')) :
    (failDelivery id error >>= f).Meets Accepting post (some h) := by
  refine meets_now (fun _ => trivial) fun now => meets_update hid trivial fun hlearns => hnext _ _ rfl ?_
  intro hunmarked
  rw [unmarked_failDelivery] at hunmarked
  exact ⟨hfresh hunmarked, hlearns hunmarked⟩

theorem meets_markOutcomeUnknown {f : Bool → Run α} (hid : id = h.attempt.id)
    (hnext : ∀ reply h', h'.attempt = h.attempt → Released h' → (f reply).Meets Accepting post (some h')) :
    (updateNow id .markOutcomeUnknown >>= f).Meets Accepting post (some h) := by
  refine meets_now (fun _ => trivial) fun now => meets_update hid trivial fun _ => hnext _ _ rfl ?_
  intro hunmarked
  rw [unmarked_markOutcomeUnknown] at hunmarked
  cases hunmarked

theorem released_gone (h : Held) : Released { h with entry := none } := fun hunmarked => Bool.noConfusion hunmarked

theorem meets_ackReleased (hid : id = h.attempt.id)
    (hnext : ∀ h', h'.attempt = h.attempt → Released h' → (f ()).Meets Accepting post (some h')) :
    (perform (Action.ackDelivery id) >>= f).Meets Accepting post (some h) :=
  meets_ack hid trivial (hnext _ rfl (released_gone h))

def Ends (attempt : Attempt) (v : View) : Prop :=
  ∃ h, v = some h ∧ h.attempt = attempt ∧ Released h

theorem meets_settleReturned (hd : Delivering c s h) (hqueue : c.queueId = some id) :
    (settleReturned c id s).Meets Accepting (fun _ v => Ends c.attempt v) (some h) := by
  have hid : id = h.attempt.id := (hd.queue id hqueue).trans (congrArg Attempt.id hd.attempt.symm)
  have hack : ∀ h' : Held, h'.attempt = h.attempt → Meets Accepting (do
        perform (Action.ackDelivery id)
        pure (Except.ok ()) : Run (Except DeliveryError Unit)) (fun _ v => Ends c.attempt v) (some h') := fun h' hattempt =>
    meets_ackReleased (hid.trans (congrArg Attempt.id hattempt.symm)) fun h₂ hattempt₂ hreleased =>
      ⟨h₂, rfl, hattempt₂.trans (hattempt.trans hd.attempt), hreleased⟩
  unfold settleReturned
  split
  · exact meets_failDelivery hid (fun _ => hd.fresh) fun _ h' hattempt hreleased =>
      ⟨h', rfl, hattempt.trans hd.attempt, hreleased⟩
  · split
    · refine meets_markOutcomeUnknown hid fun marked h' hattempt hreleased => ?_
      simp only
      split
      · exact ⟨h', rfl, hattempt.trans hd.attempt, hreleased⟩
      · exact hack h' hattempt
    · exact hack h rfl

theorem meets_settleThrown (e : DeliveryError) (hd : Delivering c s h) (hqueue : c.queueId = some id) :
    (settleThrown c id s e).Meets Accepting (fun _ v => Ends c.attempt v) (some h) := by
  have hid : id = h.attempt.id := (hd.queue id hqueue).trans (congrArg Attempt.id hd.attempt.symm)
  unfold settleThrown
  split
  · exact meets_ackReleased hid fun h' hattempt hreleased => ⟨h', rfl, hattempt.trans hd.attempt, hreleased⟩
  split
  · refine meets_markOutcomeUnknown hid fun marked h' hattempt hreleased => ?_
    split
    · refine meets_failDelivery (hid.trans (congrArg Attempt.id hattempt.symm)) (fun hunmarked => (hreleased hunmarked).1)
        fun _ h₂ hattempt₂ hreleased₂ => ?_
      exact ⟨h₂, rfl, hattempt₂.trans (hattempt.trans hd.attempt), hreleased₂⟩
    · exact ⟨h', rfl, hattempt.trans hd.attempt, hreleased⟩
  · exact meets_failDelivery hid (fun _ => hd.fresh) fun _ h' hattempt hreleased =>
      ⟨h', rfl, hattempt.trans hd.attempt, hreleased⟩

theorem meets_cleanup_live (hqueue : c.queueId = some id) (hid : id = c.attempt.id)
    (hattempt : h.attempt = c.attempt) (hfresh : h.fresh) (hentry : h.entry.isSome) (hlog : h.log = []) :
    (deliverOutboundPayloadsWithQueueCleanup c).Meets Accepting (fun _ v => Ends c.attempt v) (some h) := by
  have hnil : ∀ {P : Event → Prop}, ∀ event ∈ h.log, P event := by
    intro P event hevent
    rw [hlog] at hevent
    cases hevent
  have hd : Delivering c ⟨0, false, false⟩ h := by
    refine ⟨hattempt, hfresh, hentry, fun id' heq => ?_, (fun _ hnot => by cases hnot), fun _ _ => hnil⟩
    rw [hqueue] at heq
    exact (some.inj heq).symm.trans hid
  unfold deliverOutboundPayloadsWithQueueCleanup
  refine (meets_core hd hnil).seq ?_
  rintro ⟨s, outcome⟩ v' ⟨last, h, rfl, hd, -⟩
  rw [hqueue]
  cases outcome with
  | ok _ => exact meets_settleReturned hd hqueue
  | error e => exact meets_settleThrown e hd hqueue

theorem meets_cleanup_replay (hqueue : c.queueId = none) (hattempt : h.attempt = c.attempt) (hfresh : h.fresh)
    (hentry : h.entry.isSome) (hb : Below h.log 0 0) : (deliverOutboundPayloadsWithQueueCleanup c).Meets Accepting
      (fun _ v => ∃ h, v = some h ∧ h.attempt = c.attempt ∧ h.fresh) (some h) := by
  have hd : Delivering c ⟨0, false, false⟩ h := by
    refine ⟨hattempt, hfresh, hentry, fun id heq => ?_, fun hsome => ?_, fun hsome => ?_⟩
    · rw [hqueue] at heq
      cases heq
    · rw [hqueue] at hsome
      cases hsome
    · rw [hqueue] at hsome
      cases hsome
  unfold deliverOutboundPayloadsWithQueueCleanup
  refine (meets_core hd hb).seq ?_
  rintro ⟨s, outcome⟩ v' ⟨last, h, rfl, hd, -⟩
  rw [hqueue]
  exact ⟨h, rfl, hd.attempt, hd.fresh⟩

theorem meets_failEntry {error : JsString} (hid : id = h.attempt.id) (hfresh : unmarked h.entry → h.fresh) :
    (failEntry id error).Meets Accepting (fun _ v => Ends h.attempt v) (some h) :=
  meets_failDelivery hid hfresh fun _ h' hattempt hreleased => ⟨h', rfl, hattempt, hreleased⟩

theorem meets_moveEntry (hid : id = h.attempt.id) :
    (moveEntry id).Meets Accepting (fun _ v => Ends h.attempt v) (some h) :=
  meets_move hid trivial fun _ => ⟨_, rfl, rfl, released_gone h⟩

structure Recovering (target : Attempt) (entry : QueuedDelivery) (h : Held) : Prop where
  attempt : h.attempt = target
  id : entry.id = target.id
  entry : h.entry.isSome = true

variable {entry : QueuedDelivery}

theorem meets_replayEntry (hr : Recovering attempt entry h) (hfresh : h.fresh) (hb : Below h.log 0 0) :
    (replayEntry attempt entry).Meets Accepting (fun _ v => Ends attempt v) (some h) := by
  unfold replayEntry
  refine (meets_cleanup_replay rfl hr.attempt hfresh hr.entry hb).seq ?_
  rintro result v' ⟨h, rfl, hattempt, hfresh⟩
  have hattempt : h.attempt = attempt := hattempt
  have hid : entry.id = h.attempt.id := hr.id.trans (congrArg Attempt.id hattempt.symm)
  cases result with
  | ok _ => exact meets_ackReleased hid fun h' hattempt' hreleased => ⟨h', rfl, hattempt'.trans hattempt, hreleased⟩
  | error e =>
    simp only
    subst hattempt
    split
    · exact meets_moveEntry hid
    · exact meets_failEntry hid fun _ => hfresh

theorem meets_drainQueuedEntry (hr : Recovering attempt entry h)
    (hentry : h.entry = some entry) (hfresh : h.fresh = unmarked (some entry)) (hlog : h.log = []) :
    (drainQueuedEntry attempt entry).Meets Accepting (fun _ v => Ends attempt v) (some h) := by
  have hnil : Below h.log 0 0 := by
    intro event hevent
    rw [hlog] at hevent
    cases hevent
  unfold drainQueuedEntry
  split
  · rename_i hstate
    refine meets_replayEntry hr (hfresh.trans ?_) hnil
    rw [unmarked, any_some, hstate]
    rfl
  · rename_i state hstate
    have hmarked : unmarked h.entry = false := by
      rw [hentry, unmarked, any_some, hstate]
      rfl
    refine meets_perform ⟨fun attempt' heq => ?_, (fun _ heq => by cases heq), trivial⟩ trivial fun reply v' hv' _ => ?_
    · rw [← some.inj heq]
      exact hr.attempt.symm
    obtain rfl := hr.attempt
    have hv' : v' = some { h.logged (.reconcile h.attempt entry) reply with fresh := h.fresh || reply == some .not_sent } :=
      hv'
    subst hv'
    have hsame : unmarked h.entry → (h.fresh || reply == some .not_sent) := by
      intro hunmarked
      rw [hmarked] at hunmarked
      cases hunmarked
    match reply, state with
    | some .sent, _ =>
      exact meets_ackReleased hr.id fun h' hattempt' hreleased => ⟨h', rfl, hattempt', hreleased⟩
    | some .not_sent, .send_attempt_started =>
      refine meets_replayEntry ⟨rfl, hr.id, hr.entry⟩ (Bool.or_true h.fresh) (below_concat hnil rfl)
    | some .not_sent, .unknown_after_send => exact meets_moveEntry hr.id
    | some (.unresolved error true), _ => exact meets_failEntry hr.id hsame
    | some (.unresolved error false), _ => exact meets_moveEntry hr.id
    | none, _ => exact meets_moveEntry hr.id

theorem accepting_recovers : Recovers Asks Learns Ends where
  now _ := trivial
  load _ _ := trivial
  release h := h
  gone _ := ⟨_, rfl, rfl, fun hunmarked => Bool.noConfusion hunmarked⟩
  unused {attempt entry h} hclaimed := by
    refine ⟨h, rfl, hclaimed.attempt, fun hunmarked => ⟨?_, fun event hevent => ?_⟩⟩
    · rw [hclaimed.fresh, ← hclaimed.entry]
      exact hunmarked
    · rw [hclaimed.log] at hevent
      cases hevent
  giveUp attempt entry h hclaimed := by
    obtain rfl := hclaimed.attempt
    exact (meets_moveEntry hclaimed.id).seq fun _ v' hends => hends
  drain h := meets_drainQueuedEntry ⟨h.attempt, h.id, h.entry ▸ rfl⟩ h.entry h.fresh h.log

theorem meets_live (params : DeliverParams) :
    (deliverOutboundPayloadsInternal params none).Meets Accepting Idle none := by
  unfold deliverOutboundPayloadsInternal
  refine meets_now (fun _ => trivial) fun now => ?_
  refine meets_perform_idle ⟨rfl, rfl⟩ fun reply v' hv' => ?_
  obtain ⟨id, claimed⟩ := reply
  cases claimed with
  | none => exact hv'
  | some number =>
    obtain rfl := hv'
    refine (meets_cleanup_live rfl rfl rfl rfl rfl rfl).seq fun result v' hends => ?_
    exact accepting_recovers.meets_release hends rfl

theorem meets_starts {p : Run Unit} (h : Starts p) : p.Meets Accepting (fun _ _ => True) none :=
  accepting_recovers.starts meets_live h

end Programs

/-! ## The main result -/

theorem sentOnce_empty : SentOnce empty [] := by
  refine ⟨owned_empty, fun id _ hunmarked => ?_, fun _ hmem => absurd hmem not_mem_nil, List.Pairwise.nil⟩
  cases hunmarked

/-- **Nothing that was accepted is sent again**, in any run of live deliveries, crashes, recoveries and drains with
truthful adapters, if no entry without a mark is left behind with an accepted part. -/
theorem accepted_not_resent {config : Config Action Reply World}
    (h : Reaches queue Starts (fun w move => Truthful w move ∧ LeavesNoTrace w move) empty config) :
    NotResent config.world.trace := by
  obtain ⟨views, hinv, -⟩ := h.invariant sentOnce_keeps sentOnce_empty fun _ hp => meets_starts hp
  exact hinv.notResent

section Fixed

def greeting : DeliverParams where
  payloads := [js "hi"]
  bestEffort := false
  queuePolicy := .best_effort
  hasAbortSignal := false

def greetingEntry : QueuedDelivery :=
  greeting.toQueuedDeliveryPayload.toEntry 0 0

theorem greeting_sent_once : ∃ config : Config Action Reply World,
    Reaches queue Starts (fun w move => Truthful w move ∧ LeavesNoTrace w move) empty config ∧
      Accepted config.world.trace 0 ∧ NotResent config.world.trace := by
  have h : Reaches queue Starts (fun w move => Truthful w move ∧ LeavesNoTrace w move) empty
      ⟨empty, []⟩ := Reaches.start
  have h := h.spawned (Starts.live greeting) ⟨trivial, trivial⟩
  have h := h.alone (0 : Nat) trivial ⟨trivial, trivial⟩
  have h := h.alone (0, some 0) ⟨unused_empty rfl rfl rfl rfl, Or.inr rfl⟩ ⟨trivial, trivial⟩
  have h := h.alone (.ok fun _ => true) trivial ⟨trivial, trivial⟩
  have h := h.alone (.ok (.ready .payload)) trivial ⟨trivial, trivial⟩
  have h := h.alone (.ok ()) trivial ⟨trivial, trivial⟩
  have h := h.alone (1 : Nat) trivial ⟨trivial, trivial⟩
  have h := h.alone true rfl ⟨trivial, trivial⟩
  have h := h.alone ⟨true, .ok 1⟩ trivial ⟨trivial, trivial⟩
  have h := h.alone () trivial ⟨trivial, trivial⟩
  have h := h.alone (.ok ()) trivial ⟨trivial, trivial⟩
  have h := h.alone (2 : Nat) trivial ⟨trivial, trivial⟩
  have h := h.alone true rfl ⟨trivial, trivial⟩
  have h := h.alone () trivial ⟨trivial, trivial⟩
  have h := h.alone () trivial ⟨trivial, trivial⟩
  refine ⟨_, h, ⟨⟨.send ⟨0, 0⟩ 0 0, ⟨true, .ok 1⟩⟩, ?_, ⟨0, 0⟩, 0, 0, rfl, rfl⟩, accepted_not_resent h⟩
  simp [queue, empty]

theorem replays_greeting {w : World} {number : Nat} (h : Reaches queue Starts Truthful empty ⟨w, []⟩)
    (hpending : w.pending = Function.update (fun _ => none) 0 (some greetingEntry))
    (hprogress : w.entriesInProgress = fun _ => none) (hnumber : w.nextNumber = number) :
    ∃ w', Reaches queue Starts Truthful empty ⟨w', []⟩ ∧ w'.pending = w.pending ∧
      (w'.entriesInProgress = fun _ => none) ∧ w'.nextNumber = number + 1 ∧
      w'.trace = w.trace ++ [⟨.loadPendingDeliveries, [greetingEntry]⟩, ⟨.now, (0 : Nat)⟩, ⟨.now, (0 : Nat)⟩,
        ⟨.claim 0, some number⟩, ⟨.loadPendingDelivery 0, some greetingEntry⟩, ⟨.now, (0 : Nat)⟩,
        ⟨.normalize ⟨0, number⟩ [js "hi"], .ok fun _ => true⟩, ⟨.prepare ⟨0, number⟩ 0, .ok (.ready .payload)⟩,
        ⟨.beforeSend ⟨0, number⟩ 0, .ok ()⟩, ⟨.send ⟨0, number⟩ 0 0, ⟨true, .ok 1⟩⟩] := by
  have h := h.spawned (Starts.recovery none) trivial
  have h := h.alone [greetingEntry] (loads_single rfl hpending) trivial
  have h := h.alone (0 : Nat) trivial trivial
  have h : Reaches queue Starts Truthful empty ⟨_, [recoverEntries _ (byEnqueuedAt [greetingEntry])]⟩ := h
  rw [byEnqueuedAt_singleton] at h
  have h := h.alone (0 : Nat) trivial trivial
  have hclaim : some number = if (w.entriesInProgress 0).isSome then none else some w.nextNumber := by
    rw [hprogress, hnumber]
    rfl
  have h := h.alone (some number) hclaim trivial
  have hload : some greetingEntry = w.pending 0 := by
    rw [hpending, Function.update_self]
  have h := h.alone (some greetingEntry) hload trivial
  have h := h.alone (0 : Nat) trivial trivial
  have h := h.alone (.ok fun _ => true) trivial trivial
  have h := h.alone (.ok (.ready .payload)) trivial trivial
  have h := h.alone (.ok ()) trivial trivial
  have h := h.alone ⟨true, .ok 1⟩ trivial trivial
  have h := h.crashed trivial
  refine ⟨_, h, ?_, ?_, ?_, ?_⟩
  · simp only [queue, change]
  · simp only [queue]
  · simp only [queue, change, hnumber]
  · simp only [queue, change, append_assoc, cons_append, nil_append]
    rfl

theorem greeting_sent_twice :
    ¬∀ config, Reaches queue Starts Truthful empty config → NotResent config.world.trace := by
  intro hall
  have h : Reaches queue Starts Truthful empty ⟨empty, []⟩ := Reaches.start
  have h := h.spawned (Starts.live greeting) trivial
  have h := h.alone (0 : Nat) trivial trivial
  have h := h.alone (0, some 0) ⟨unused_empty rfl rfl rfl rfl, Or.inr rfl⟩ trivial
  have h := h.crashed trivial
  obtain ⟨w₁, h₁, hpending, hprogress, hnumber, htrace₁⟩ := @replays_greeting _ 1 h rfl rfl rfl
  obtain ⟨w₂, h₂, -, -, -, htrace₂⟩ := @replays_greeting _ 2 h₁ hpending hprogress hnumber
  -- the unit that the first replay handed over, and the one of the second
  have hfirst : (⟨.send ⟨0, 1⟩ 0 0, ⟨true, .ok 1⟩⟩ : Event) ∈ w₁.trace := by
    rw [htrace₁]
    exact mem_append_right _ (by simp)
  have hresent : NotResent w₂.trace := hall _ h₂
  rw [htrace₂] at hresent
  have hlater := (pairwise_append.mp hresent).2.2 _ hfirst ⟨.send ⟨0, 2⟩ 0 0, ⟨true, .ok 1⟩⟩ (by simp)
  exact absurd (hlater ⟨0, 1⟩ 0 0 rfl ⟨0, 2⟩ 0 true rfl rfl).2 (lt_irrefl 0)

end Fixed

end ClawWorks.Delivery
