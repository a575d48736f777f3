import ClawWorks.Delivery.Claims

/-!
# Not lost

An entry is acknowledged only after each of its payloads was sent or suppressed, or the delivery was aborted, or the
adapter said that it was sent; else it stays pending or is moved to the failed ones. Two kinds of steps are excepted: a
payload that fails in the replay of a best-effort entry, and an adapter that returns no identity.
-/

namespace ClawWorks.Delivery

open Option List Prog Threads

namespace NotLost

/-! ## Acknowledgements -/

/-- The payload was sent, cancelled by a hook, or there was nothing to send. -/
def settles : PayloadOutcome → Bool
  | .sent => true
  | .suppressed reason => reason ≠ .adapter_returned_no_identity
  | .failed => false

/-- The event settles a payload; one that is not visible has nothing to send. -/
def settlesIndex (index : Nat) : Event → Bool
  | ⟨.record _ index' outcome, _⟩ => index' == index && settles outcome
  | ⟨.normalize _ _, .ok visible⟩ => !visible index
  | _ => false

def errorOf : Event → Option DeliveryError
  | ⟨.abortSignal _, true⟩ => some abortError
  | ⟨.normalize _ _, .error e⟩ | ⟨.prepare _ _, .error e⟩ | ⟨.beforeSend _ _, .error e⟩ | ⟨.afterSend _ _, .error e⟩ =>
    some e
  | ⟨.send _ _ _, ⟨_, .error e⟩⟩ => some e
  | _ => none

def Settled (log : List Event) (index : Nat) : Prop :=
  ∃ event ∈ log, settlesIndex index event = true

def Aborted (log : List Event) : Prop :=
  ∃ event ∈ log, ∃ e, errorOf event = some e ∧ e.aborted = true

def ReconciledAsSent (log : List Event) : Prop :=
  ∃ attempt entry, (⟨.reconcile attempt entry, some .sent⟩ : Event) ∈ log

def Justified (entry : QueuedDelivery) (log : List Event) : Prop :=
  (∀ index < entry.payloads.length, Settled log index) ∨ Aborted log ∨ ReconciledAsSent log

/-- An adapter returns an identity, and no payload of a best-effort entry fails in a recovery. -/
def Reported (w : World) : Move Action Reply → Prop
  | .act (.record attempt _ outcome) _ =>
    outcome ≠ .suppressed .adapter_returned_no_identity ∧
    (outcome = .failed → ∀ number entry, w.entriesInProgress attempt.id = some ⟨number, true⟩ →
      w.pending attempt.id = some entry → entry.bestEffort = false)
  | _ => True

def Asks (h : Held) : Action → Prop
  | .ackDelivery _ => ∀ entry, h.entry = some entry → Justified entry h.log
  | _ => True

def Learns (h : Held) : (action : Action) → Reply action → Prop
  | .record _ _ outcome, _ =>
    outcome ≠ .suppressed .adapter_returned_no_identity ∧
    (outcome = .failed → h.recovery = true → ∀ entry, h.entry = some entry → entry.bestEffort = false)
  | _, _ => True

abbrev Acknowledging : Discipline Action Reply View := discipline Asks Learns

theorem owned_keeps : Keeps queue Reported Acknowledging none Owned where
  spawn h := owned_spawn h
  act {w before after v action reply} h hcan hanswer hcond := by
    obtain ⟨v', hnext, howned⟩ := owned_act h hcan.1 hanswer
    refine ⟨v', ⟨hnext, ?_⟩, howned⟩
    rintro own rfl
    have hfits := h.fits own (mem_append_right _ mem_cons_self)
    cases action with
    | record attempt index outcome =>
      obtain rfl : attempt = own.attempt := hcan.1.1 attempt rfl
      refine ⟨hcond.1, fun hfailed hrecovery entry hentry => ?_⟩
      refine hcond.2 hfailed own.attempt.number entry ?_ (hfits.entry.trans hentry)
      rw [hfits.claimed, hrecovery]
    | _ => trivial
  crash h _ := owned_crash h

/-! ## Deliveries -/

/-- An attempt that has settled some payloads; only a live one goes on after a failure. -/
structure Counting (c : CoreParams) (s : Sending) (h : Held) (done : Nat → Prop) : Prop where
  attempt : h.attempt = c.attempt
  recovery : h.recovery = c.queueId.isNone
  entry : ∃ e, h.entry = some e ∧ e.toQueuedDeliveryPayload = c.toQueuedDeliveryPayload
  queue : ∀ id, c.queueId = some id → id = c.attempt.id
  swallowed : s.hadPartialFailure = true → h.recovery = false
  settled : ∀ i, done i → Settled h.log i

theorem Settled.mono {log : List Event} {index : Nat} (h : Settled log index) (more : List Event) :
    Settled (log ++ more) index := by
  obtain ⟨event, hevent, hsettles⟩ := h
  exact ⟨event, mem_append_left _ hevent, hsettles⟩

theorem settled_last (log : List Event) {event : Event} {index : Nat} (h : settlesIndex index event) :
    Settled (log ++ [event]) index :=
  ⟨event, mem_append_right _ mem_cons_self, h⟩

theorem aborted_last (log : List Event) {event : Event} {e : DeliveryError} (h : errorOf event = some e)
    (haborted : e.aborted) : Aborted (log ++ [event]) :=
  ⟨event, mem_append_right _ mem_cons_self, e, h, haborted⟩

theorem Update.apply_payload (u : Update) (e : QueuedDelivery) :
    (u.apply e).toQueuedDeliveryPayload = e.toQueuedDeliveryPayload := by
  cases u <;> rfl

section Programs

variable {α : Type} {post : α → View → Prop} {c : CoreParams} {s : Sending} {h : Held} {done : Nat → Prop} {index : Nat}

theorem Counting.logged (hc : Counting c s h done) (action : Action) (reply : Reply action) :
    Counting c s (h.logged action reply) done :=
  ⟨hc.attempt, hc.recovery, hc.entry, hc.queue, hc.swallowed, fun i hi => (hc.settled i hi).mono _⟩

theorem counting_quiet {action : Action} {f : Reply action → Run α} (hc : Counting c s h done)
    (hquiet : action.quiet c.attempt)
    (hnext : ∀ reply, Learns h action reply → (f reply).Meets Acknowledging post (some (h.logged action reply))) :
    (perform action >>= f).Meets Acknowledging post (some h) := by
  have hasks : Asks h action := by
    cases action <;> trivial
  exact meets_quiet (by rw [hc.attempt]; exact hquiet) hasks hnext

/-- What a part of a delivery leaves: an error that aborts is in the log. -/
def Leaves (c : CoreParams) (s : Sending) (done : Nat → Prop) {β : Type} (ok : Held → Prop) (result : Sent β)
    (v : View) :
    Prop :=
  ∃ h, v = some h ∧ Counting c result.1 h done ∧ result.1.hadPartialFailure = s.hadPartialFailure ∧
    match result.2 with
    | .ok _ => ok h
    | .error e => e.aborted = true → Aborted h.log

/-- Nothing more is asked of a part that returns. -/
def anyView (_ : Held) : Prop := True

theorem counts_throwIfAborted {f : Except DeliveryError Unit → Run α} (hc : Counting c s h done)
    (hnext : ∀ go h', Counting c s h' done → (∀ e, go = .error e → e.aborted → Aborted h'.log) →
      (f go).Meets Acknowledging post (some h')) : (throwIfAborted c >>= f).Meets Acknowledging post (some h) := by
  unfold throwIfAborted
  split
  · refine counting_quiet hc rfl fun aborted _ => hnext _ _ (hc.logged _ _) fun e he haborted => ?_
    cases aborted with
    | false => cases he
    | true => exact aborted_last h.log rfl rfl
  · exact hnext _ h hc fun e he => by cases he

theorem counts_onPlatformSendStart (hc : Counting c s h done) :
    (onPlatformSendStart c s).Meets Acknowledging (Leaves c s done anyView) (some h) := by
  unfold onPlatformSendStart
  split
  · exact ⟨h, rfl, hc, rfl, trivial⟩
  rename_i id hqueue
  split
  · exact ⟨h, rfl, hc, rfl, trivial⟩
  refine meets_now (fun _ => trivial) fun now => ?_
  refine meets_update ((hc.queue id hqueue).trans (congrArg Attempt.id hc.attempt.symm)) trivial fun _ => ?_
  obtain ⟨e, he, hpayload⟩ := hc.entry
  rw [he]
  refine ⟨_, rfl, ⟨hc.attempt, hc.recovery, ⟨_, rfl, ?_⟩, hc.queue, hc.swallowed, hc.settled⟩, rfl, trivial⟩
  exact (Update.apply_payload _ e).trans hpayload

theorem counts_sendUnit (unit : Nat) (hc : Counting c s h done) :
    (sendUnit c index unit s).Meets Acknowledging (Leaves c s done anyView) (some h) := by
  unfold sendUnit
  refine counting_quiet hc rfl fun ready _ => ?_
  cases ready with
  | error e => exact ⟨_, rfl, hc.logged _ _, rfl, fun haborted => aborted_last h.log rfl haborted⟩
  | ok _ =>
    refine (counts_onPlatformSendStart (hc.logged _ _)).seq ?_
    rintro ⟨s', started⟩ v' ⟨h, rfl, hc, hsame, houtcome⟩
    cases started with
    | error e => exact ⟨h, rfl, hc, hsame, houtcome⟩
    | ok _ =>
      refine meets_perform ⟨fun attempt heq => ?_, (fun _ heq => by cases heq), trivial⟩ trivial
        fun handed v' hv' _ => ?_
      · rw [← some.inj heq]
        exact hc.attempt.symm
      · have hv' : v' = some (h.logged (.send c.attempt index unit) handed) := hv'
        subst hv'
        obtain ⟨accepted, result⟩ := handed
        cases result with
        | error e => exact ⟨_, rfl, hc.logged _ _, hsame, fun haborted => aborted_last h.log rfl haborted⟩
        | ok identified =>
          have hc' := hc.logged (.send c.attempt index unit) ⟨accepted, .ok identified⟩
          exact ⟨_, rfl, ⟨hc'.attempt, hc'.recovery, hc'.entry, hc'.queue, hc'.swallowed, hc'.settled⟩, hsame, trivial⟩

theorem counts_sendUnits (count unit : Nat) (hc : Counting c s h done) :
    (sendUnits c index count unit s).Meets Acknowledging (Leaves c s done anyView) (some h) := by
  induction count generalizing unit s h with
  | zero => exact ⟨h, rfl, hc, rfl, trivial⟩
  | succ count ih =>
    unfold sendUnits
    refine counts_throwIfAborted hc fun go h hc habort => ?_
    cases go with
    | error e => exact ⟨h, rfl, hc, rfl, habort e rfl⟩
    | ok _ =>
      refine (counts_sendUnit unit hc).seq ?_
      rintro ⟨s', sent⟩ v' ⟨h, rfl, hc, hsame, houtcome⟩
      cases sent with
      | error e => exact ⟨h, rfl, hc, hsame, houtcome⟩
      | ok _ =>
        refine (ih (unit + 1) hc).mono ?_
        rintro result v' ⟨h, hv, hc, hsame', houtcome⟩
        exact ⟨h, hv, hc, hsame'.trans hsame, houtcome⟩

variable {f : Unit → Run α}

theorem counts_recordDelivered (delivered : Nat) (hc : Counting c s h done)
    (hnext : ∀ h', Counting c s h' done → Settled h'.log index → (f ()).Meets Acknowledging post (some h')) :
    (perform (Action.record c.attempt index (deliveredOutcome delivered)) >>= f).Meets Acknowledging post (some h) := by
  refine counting_quiet hc rfl fun _ hlearns => hnext _ (hc.logged _ _) (settled_last h.log ?_)
  have hlearns : deliveredOutcome delivered ≠ .suppressed .adapter_returned_no_identity := hlearns.1
  have hsome : 0 < delivered := by
    by_contra hnone
    exact hlearns (if_neg hnone)
  have hsent : deliveredOutcome delivered = .sent := if_pos hsome
  rw [hsent]
  exact Bool.and_eq_true_iff.mpr ⟨beq_self_eq_true index, rfl⟩

theorem counts_afterDelivered (P : Held → Prop) (hc : Counting c s h done)
    (hP : ∀ reply, P (h.logged (.afterSend c.attempt index) reply)) :
    (afterDelivered c index s).Meets Acknowledging (Leaves c s done P) (some h) := by
  refine counting_quiet hc rfl fun result _ => ⟨_, rfl, hc.logged _ _, rfl, ?_⟩
  cases result with
  | error e => exact fun haborted => aborted_last h.log rfl haborted
  | ok _ => exact hP (.ok ())

theorem counts_sendPlanned (plan : SendPlan) (hc : Counting c s h done) :
    (sendPlanned c index s plan).Meets Acknowledging (Leaves c s done fun h => Settled h.log index) (some h) := by
  have hafter : ∀ {s' : Sending} {h : Held}, Counting c s' h done → s'.hadPartialFailure = s.hadPartialFailure →
      Settled h.log index → (afterDelivered c index s').Meets Acknowledging
        (Leaves c s done fun h => Settled h.log index) (some h) := by
    intro s' h hc hsame hsettled
    refine (counts_afterDelivered (fun h => Settled h.log index) hc fun reply => hsettled.mono _).mono ?_
    rintro result v' ⟨h, hv, hc, hsame', houtcome⟩
    exact ⟨h, hv, hc, hsame'.trans hsame, houtcome⟩
  cases plan with
  | payload =>
    refine (counts_sendUnit 0 hc).seq ?_
    rintro ⟨s', sent⟩ v' ⟨h, rfl, hc, hsame, houtcome⟩
    cases sent with
    | error e => exact ⟨h, rfl, hc, hsame, houtcome⟩
    | ok delivered =>
      refine counts_recordDelivered delivered hc fun h hc hsettled => ?_
      split
      · exact hafter hc hsame hsettled
      · exact ⟨h, rfl, hc, hsame, hsettled⟩
  | formattedText =>
    refine (counts_sendUnit 0 hc).seq ?_
    rintro ⟨s', sent⟩ v' ⟨h, rfl, hc, hsame, houtcome⟩
    cases sent with
    | error e => exact ⟨h, rfl, hc, hsame, houtcome⟩
    | ok delivered =>
      refine counts_recordDelivered delivered hc fun h hc hsettled => ?_
      exact hafter hc hsame hsettled
  | textChunks units =>
    refine (counts_sendUnits units 0 hc).seq ?_
    rintro ⟨s', sent⟩ v' ⟨h, rfl, hc, hsame, houtcome⟩
    cases sent with
    | error e => exact ⟨h, rfl, hc, hsame, houtcome⟩
    | ok _ =>
      refine counts_recordDelivered _ hc fun h hc hsettled => ?_
      exact hafter hc hsame hsettled
  | media units =>
    refine (counts_sendUnits units 0 hc).seq ?_
    rintro ⟨s', sent⟩ v' ⟨h, rfl, hc, hsame, houtcome⟩
    cases sent with
    | error e => exact ⟨h, rfl, hc, hsame, houtcome⟩
    | ok _ =>
      refine (counts_afterDelivered anyView hc fun _ => trivial).seq ?_
      rintro ⟨s'', after⟩ v' ⟨h, rfl, hc, hsame', houtcome⟩
      cases after with
      | error e => exact ⟨h, rfl, hc, hsame'.trans hsame, houtcome⟩
      | ok _ =>
        refine counts_recordDelivered _ hc fun h hc hsettled => ?_
        exact ⟨h, rfl, hc, hsame'.trans hsame, hsettled⟩

theorem counts_suppress (reason : SuppressionReason) (hc : Counting c s h done) :
    (suppress c index s reason).Meets Acknowledging (Leaves c s done fun h => Settled h.log index) (some h) := by
  refine counting_quiet hc rfl fun _ hlearns => ⟨_, rfl, hc.logged _ _, rfl, settled_last h.log ?_⟩
  have hreason : reason ≠ .adapter_returned_no_identity := fun heq => hlearns.1 (congrArg _ heq)
  exact Bool.and_eq_true_iff.mpr ⟨beq_self_eq_true index, decide_eq_true hreason⟩

theorem counts_deliverPayload (hc : Counting c s h done) :
    (deliverPayload c index s).Meets Acknowledging (Leaves c s done fun h => Settled h.log index) (some h) := by
  unfold deliverPayload
  refine counts_throwIfAborted hc fun go h hc habort => ?_
  cases go with
  | error e => exact ⟨h, rfl, hc, rfl, habort e rfl⟩
  | ok _ =>
    refine counting_quiet hc rfl fun prepared _ => ?_
    match prepared with
    | .error e => exact ⟨_, rfl, hc.logged _ _, rfl, fun haborted => aborted_last h.log rfl haborted⟩
    | .ok .cancelledByReplyHook => exact counts_suppress _ (hc.logged _ _)
    | .ok .cancelledByMessageHook => exact counts_suppress _ (hc.logged _ _)
    | .ok (.empty contentRewritten changed) => exact counts_suppress _ (hc.logged _ _)
    | .ok (.ready plan) => exact counts_sendPlanned plan (hc.logged _ _)

/-- What the loop over payloads leaves: those it went over are settled, or an error was swallowed, and not forgotten. -/
def Covers (c : CoreParams) (s : Sending) (done : Nat → Prop) (indices : List Nat) (result : Sent Unit) (v : View) :
    Prop :=
  ∃ h, v = some h ∧ Counting c result.1 h done ∧ (s.hadPartialFailure = true → result.1.hadPartialFailure = true) ∧
    match result.2 with
    | .ok _ => result.1.hadPartialFailure = true ∨ ∀ i ∈ indices, Settled h.log i
    | .error e => e.aborted = true → Aborted h.log

theorem Aborted.mono {log : List Event} (h : Aborted log) (more : List Event) : Aborted (log ++ more) := by
  obtain ⟨event, hevent, e, he, haborted⟩ := h
  exact ⟨event, mem_append_left _ hevent, e, he, haborted⟩

theorem Counting.failed (hc : Counting c s h done) (hbest : c.bestEffort)
    (hlearns : h.recovery → ∀ entry, h.entry = some entry → entry.bestEffort = false) :
    Counting c { s with hadPartialFailure := true } h done := by
  refine ⟨hc.attempt, hc.recovery, hc.entry, hc.queue, fun _ => ?_, hc.settled⟩
  by_contra hrecovery
  obtain ⟨e, he, hpayload⟩ := hc.entry
  have hnot := hlearns (by simpa using hrecovery) e he
  rw [show e.bestEffort = c.bestEffort from congrArg QueuedDeliveryPayload.bestEffort hpayload, hbest] at hnot
  cases hnot

theorem counts_deliverPayloads (indices : List Nat) (hc : Counting c s h done) :
    (deliverPayloads c indices s).Meets Acknowledging (Covers c s done indices) (some h) := by
  induction indices generalizing s h done with
  | nil => exact ⟨h, rfl, hc, id, .inr fun i hi => absurd hi not_mem_nil⟩
  | cons i rest ih =>
    unfold deliverPayloads
    refine (counts_deliverPayload hc).seq ?_
    rintro ⟨s', delivered⟩ v' ⟨h, rfl, hc, hsame, houtcome⟩
    cases delivered with
    | ok _ =>
      -- the payload counts as settled from here on
      have hc' : Counting c s' h fun j => done j ∨ j = i := by
        refine ⟨hc.attempt, hc.recovery, hc.entry, hc.queue, hc.swallowed, ?_⟩
        rintro j (hj | rfl)
        · exact hc.settled j hj
        · exact houtcome
      refine (ih hc').mono ?_
      rintro result v' ⟨h', hv, hc'', hstill, hrest⟩
      refine ⟨h', hv, ⟨hc''.attempt, hc''.recovery, hc''.entry, hc''.queue, hc''.swallowed,
        fun j hj => hc''.settled j (.inl hj)⟩, fun hfailed => hstill (hsame.trans hfailed), ?_⟩
      cases hresult : result.2 with
      | error e =>
        simp only [hresult] at hrest
        exact hrest
      | ok _ =>
        simp only [hresult] at hrest
        rcases hrest with hfailed | hall
        · exact .inl hfailed
        · refine .inr fun j hj => ?_
          rcases mem_cons.mp hj with rfl | hj
          · exact hc''.settled j (.inr rfl)
          · exact hall j hj
    | error e =>
      refine counting_quiet hc rfl fun _ hlearns => ?_
      have hc' := hc.logged (.record c.attempt i .failed) ()
      split
      · rename_i hbest
        refine (ih (hc'.failed hbest (hlearns.2 rfl))).mono ?_
        rintro result v' ⟨h', hv, hc'', hstill, hrest⟩
        refine ⟨h', hv, hc'', fun _ => hstill rfl, ?_⟩
        cases hresult : result.2 with
        | error e =>
          simp only [hresult] at hrest
          exact hrest
        | ok _ => exact .inl (hstill rfl)
      · exact ⟨_, rfl, hc', fun hfailed => hsame.trans hfailed, fun haborted => (houtcome haborted).mono _⟩

theorem counts_recordNoVisiblePayload (indices : List Nat) (hc : Counting c s h done)
    (hnext : ∀ h', Counting c s h' done → (∀ i ∈ indices, Settled h'.log i) →
      (f ()).Meets Acknowledging post (some h')) :
    (recordNoVisiblePayload c indices >>= f).Meets Acknowledging post (some h) := by
  induction indices generalizing h done with
  | nil => exact hnext h hc fun i hi => absurd hi not_mem_nil
  | cons i rest ih =>
    refine counting_quiet hc rfl fun _ _ => ?_
    have hc' : Counting c s (h.logged (.record c.attempt i (.suppressed .no_visible_payload)) ())
        fun j => done j ∨ j = i := by
      refine ⟨hc.attempt, hc.recovery, hc.entry, hc.queue, hc.swallowed, ?_⟩
      rintro j (hj | rfl)
      · exact (hc.settled j hj).mono _
      · exact settled_last h.log (Bool.and_eq_true_iff.mpr ⟨beq_self_eq_true j, rfl⟩)
    refine ih hc' fun h' hc'' hall => hnext h' ?_ fun j hj => ?_
    · exact ⟨hc''.attempt, hc''.recovery, hc''.entry, hc''.queue, hc''.swallowed, fun j hj => hc''.settled j (.inl hj)⟩
    · rcases mem_cons.mp hj with rfl | hj
      · exact hc''.settled j (.inr rfl)
      · exact hall j hj

theorem counts_core (hc : Counting c s h fun _ => False) : (deliverOutboundPayloadsCore c s).Meets Acknowledging
      (Covers c s (fun _ => False) (range c.payloads.length)) (some h) := by
  unfold deliverOutboundPayloadsCore
  refine counting_quiet hc rfl fun normalized _ => ?_
  cases normalized with
  | error e => exact ⟨_, rfl, hc.logged _ _, id, fun haborted => aborted_last h.log rfl haborted⟩
  | ok visible =>
    simp only
    have hc' := hc.logged (.normalize c.attempt c.payloads) (.ok visible)
    split
    · refine counts_recordNoVisiblePayload _ hc' fun h' hc'' hall => ?_
      exact ⟨h', rfl, hc'', id, .inr hall⟩
    · -- what is not visible is settled by the normalization
      have hhidden : Counting c s (h.logged (.normalize c.attempt c.payloads) (.ok visible))
          fun j => visible j = false := by
        refine ⟨hc'.attempt, hc'.recovery, hc'.entry, hc'.queue, hc'.swallowed, fun j hj => settled_last h.log ?_⟩
        show (!visible j)
        rw [hj]
        rfl
      refine (counts_deliverPayloads _ hhidden).mono ?_
      rintro result v' ⟨h', hv, hc'', hstill, hrest⟩
      refine ⟨h', hv, ⟨hc''.attempt, hc''.recovery, hc''.entry, hc''.queue, hc''.swallowed, fun j hj => hj.elim⟩, hstill, ?_⟩
      cases hresult : result.2 with
      | error e =>
        simp only [hresult] at hrest
        exact hrest
      | ok _ =>
        simp only [hresult] at hrest
        rcases hrest with hfailed | hall
        · exact .inl hfailed
        · refine .inr fun j hj => ?_
          by_cases hvisible : visible j
          · exact hall j (mem_filter.mpr ⟨hj, hvisible⟩)
          · exact hc''.settled j (by simpa using hvisible)

/-! ## Entries -/

def Ends (attempt : Attempt) (v : View) : Prop :=
  ∃ h, v = some h ∧ h.attempt = attempt

variable {id : EntryId}

theorem counts_updateNow {u : Nat → Update} {f : Bool → Run α} (hid : id = h.attempt.id)
    (hnext : ∀ reply now, (f reply).Meets Acknowledging post (some { h with entry := h.entry.map (u now).apply })) :
    (updateNow id u >>= f).Meets Acknowledging post (some h) :=
  meets_now (fun _ => trivial) fun now => meets_update hid trivial fun _ => hnext _ now

theorem Covers.justified {result : Sent Unit} {v : View} {indices : List Nat}
    (hall : ∀ i < c.payloads.length, i ∈ indices)
    (h : Covers c s done indices result v) {held : Held} (hv : v = some held) (hok : result.2 = .ok ())
    (hnone : result.1.hadPartialFailure = false) (entry : QueuedDelivery)
    (hpayloads : entry.payloads = c.payloads) : Justified entry held.log := by
  obtain ⟨h', rfl, -, -, houtcome⟩ := h
  obtain rfl := some.inj hv
  rw [hok] at houtcome
  rcases houtcome with hfailed | hsettled
  · rw [hnone] at hfailed
    cases hfailed
  · refine .inl fun i hi => hsettled i (hall i ?_)
    rw [← hpayloads]
    exact hi

theorem payloads_of_entry (hc : Counting c s h done) : ∀ entry, h.entry = some entry → entry.payloads = c.payloads := by
  intro entry hentry
  obtain ⟨e, he, hpayload⟩ := hc.entry
  obtain rfl := mem_unique he hentry
  exact congrArg QueuedDeliveryPayload.payloads hpayload

theorem counts_settleReturned (hc : Counting c s h done) (hqueue : c.queueId = some id)
    (hjustified : s.hadPartialFailure = false → ∀ entry : QueuedDelivery, entry.payloads = c.payloads →
      Justified entry h.log) :
    (settleReturned c id s).Meets Acknowledging (fun _ v => Ends c.attempt v) (some h) := by
  have hid : id = h.attempt.id := (hc.queue id hqueue).trans (congrArg Attempt.id hc.attempt.symm)
  unfold settleReturned
  split
  · exact counts_updateNow hid fun _ _ => ⟨_, rfl, hc.attempt⟩
  rename_i hnone
  have hjustified := hjustified (by simpa using hnone)
  have hpayloads := payloads_of_entry hc
  split
  · refine counts_updateNow hid fun marked now => ?_
    simp only
    split
    · exact ⟨_, rfl, hc.attempt⟩
    · refine meets_ack hid (fun entry hentry => ?_) ⟨_, rfl, hc.attempt⟩
      obtain ⟨e, he, rfl⟩ := map_eq_some_iff.mp hentry
      exact hjustified _ (hpayloads e he)
  · exact meets_ack hid (fun entry hentry => hjustified entry (hpayloads entry hentry)) ⟨_, rfl, hc.attempt⟩

theorem counts_settleThrown {e : DeliveryError} (hc : Counting c s h done) (hqueue : c.queueId = some id)
    (haborted : e.aborted → Aborted h.log) :
    (settleThrown c id s e).Meets Acknowledging (fun _ v => Ends c.attempt v) (some h) := by
  have hid : id = h.attempt.id := (hc.queue id hqueue).trans (congrArg Attempt.id hc.attempt.symm)
  unfold settleThrown
  split
  · rename_i habort
    exact meets_ack hid (fun _ _ => .inr (.inl (haborted habort))) ⟨_, rfl, hc.attempt⟩
  split
  · refine counts_updateNow hid fun marked now => ?_
    split
    · exact counts_updateNow hid fun _ _ => ⟨_, rfl, hc.attempt⟩
    · exact ⟨_, rfl, hc.attempt⟩
  · exact counts_updateNow hid fun _ _ => ⟨_, rfl, hc.attempt⟩

theorem counting_start (hattempt : h.attempt = c.attempt) (hrecovery : h.recovery = c.queueId.isNone)
    (hentry : ∃ e, h.entry = some e ∧ e.toQueuedDeliveryPayload = c.toQueuedDeliveryPayload)
    (hqueue : ∀ id, c.queueId = some id → id = c.attempt.id) : Counting c ⟨0, false, false⟩ h fun _ => False :=
  ⟨hattempt, hrecovery, hentry, hqueue, (fun hfailed => by cases hfailed), fun _ hfalse => hfalse.elim⟩

theorem counts_cleanup_live (hqueue : c.queueId = some id) (hc : Counting c ⟨0, false, false⟩ h fun _ => False) :
    (deliverOutboundPayloadsWithQueueCleanup c).Meets Acknowledging (fun _ v => Ends c.attempt v) (some h) := by
  unfold deliverOutboundPayloadsWithQueueCleanup
  refine (counts_core hc).seq ?_
  rintro ⟨s, outcome⟩ v' hcovers
  have hview := hcovers
  obtain ⟨h, rfl, hc', hstill, houtcome⟩ := hview
  rw [hqueue]
  cases outcome with
  | ok _ =>
    refine counts_settleReturned hc' hqueue fun hnone entry hpayloads => ?_
    exact hcovers.justified (fun i hi => mem_range.mpr hi) rfl rfl hnone entry hpayloads
  | error e => exact counts_settleThrown hc' hqueue houtcome

theorem counts_cleanup_replay (hqueue : c.queueId = none) (hc : Counting c ⟨0, false, false⟩ h fun _ => False) :
    (deliverOutboundPayloadsWithQueueCleanup c).Meets Acknowledging
      (fun result v => ∃ h, v = some h ∧ h.attempt = c.attempt ∧
        (result = .ok () → ∀ entry, h.entry = some entry → Justified entry h.log)) (some h) := by
  unfold deliverOutboundPayloadsWithQueueCleanup
  refine (counts_core hc).seq ?_
  rintro ⟨s, outcome⟩ v' hcovers
  have hview := hcovers
  obtain ⟨h, rfl, hc', hstill, houtcome⟩ := hview
  rw [hqueue]
  refine ⟨h, rfl, hc'.attempt, fun hok entry hentry => ?_⟩
  have hnone : s.hadPartialFailure = false := by
    by_contra hfailed
    have hlive := hc'.swallowed (by simpa using hfailed)
    rw [hc'.recovery, hqueue] at hlive
    cases hlive
  have hok : outcome = .ok () := hok
  exact hcovers.justified (fun i hi => mem_range.mpr hi) rfl hok hnone entry (payloads_of_entry hc' entry hentry)

structure Recovering (target : Attempt) (entry : QueuedDelivery) (h : Held) : Prop where
  attempt : h.attempt = target
  id : entry.id = target.id
  entry : h.entry = some entry
  recovery : h.recovery = true

theorem counts_failEntry {error : JsString} (hid : id = h.attempt.id) :
    (failEntry id error).Meets Acknowledging (fun _ v => Ends h.attempt v) (some h) :=
  counts_updateNow hid fun _ _ => ⟨_, rfl, rfl⟩

theorem counts_moveEntry (hid : id = h.attempt.id) :
    (moveEntry id).Meets Acknowledging (fun _ v => Ends h.attempt v) (some h) :=
  meets_move hid trivial fun _ => ⟨_, rfl, rfl⟩

variable {entry : QueuedDelivery} {attempt : Attempt}

theorem counts_replayEntry (hr : Recovering attempt entry h) :
    (replayEntry attempt entry).Meets Acknowledging (fun _ v => Ends attempt v) (some h) := by
  unfold replayEntry
  refine (counts_cleanup_replay rfl (counting_start hr.attempt hr.recovery ⟨entry, hr.entry, rfl⟩ ?_)).seq ?_
  · intro id hnone
    cases hnone
  rintro result v' ⟨h, rfl, hattempt, hjustified⟩
  have hattempt : h.attempt = attempt := hattempt
  have hid : entry.id = h.attempt.id := hr.id.trans (congrArg Attempt.id hattempt.symm)
  cases result with
  | ok _ => exact meets_ack hid (hjustified rfl) ⟨_, rfl, hattempt⟩
  | error e =>
    simp only
    subst hattempt
    split
    · exact counts_moveEntry hid
    · exact counts_failEntry hid

theorem counts_drainQueuedEntry (hr : Recovering attempt entry h) :
    (drainQueuedEntry attempt entry).Meets Acknowledging (fun _ v => Ends attempt v) (some h) := by
  unfold drainQueuedEntry
  split
  · exact counts_replayEntry hr
  rename_i state hstate
  refine meets_perform ⟨fun attempt' heq => ?_, (fun _ heq => by cases heq), trivial⟩ trivial fun reply v' hv' _ => ?_
  · rw [← some.inj heq]
    exact hr.attempt.symm
  obtain rfl := hr.attempt
  have hv' : v' = some { h.logged (.reconcile h.attempt entry) reply with fresh := h.fresh || reply == some .not_sent } :=
    hv'
  subst hv'
  match reply, state with
  | some .sent, _ =>
    refine meets_ack hr.id (fun _ _ => .inr (.inr ⟨h.attempt, entry, ?_⟩)) ⟨_, rfl, rfl⟩
    exact mem_append_right _ mem_cons_self
  | some .not_sent, .send_attempt_started => exact counts_replayEntry ⟨rfl, hr.id, hr.entry, hr.recovery⟩
  | some .not_sent, .unknown_after_send => exact counts_moveEntry hr.id
  | some (.unresolved error true), _ => exact counts_failEntry hr.id
  | some (.unresolved error false), _ => exact counts_moveEntry hr.id
  | none, _ => exact counts_moveEntry hr.id

theorem acknowledging_recovers : Recovers Asks Learns Ends where
  now _ := trivial
  load _ _ := trivial
  release h := by
    obtain ⟨held, rfl, rfl⟩ := h
    exact ⟨held, rfl, rfl, trivial⟩
  gone _ := ⟨_, rfl, rfl⟩
  unused h := ⟨_, rfl, h.attempt⟩
  giveUp attempt entry h hclaimed := by
    obtain rfl := hclaimed.attempt
    exact (counts_moveEntry hclaimed.id).seq fun _ v' hends => hends
  drain h := counts_drainQueuedEntry ⟨h.attempt, h.id, h.entry, h.recovery⟩

theorem counts_live (params : DeliverParams) :
    (deliverOutboundPayloadsInternal params none).Meets Acknowledging Idle none := by
  unfold deliverOutboundPayloadsInternal
  refine meets_now (fun _ => trivial) fun now => ?_
  refine meets_perform_idle ⟨rfl, rfl⟩ fun reply v' hv' => ?_
  obtain ⟨id, claimed⟩ := reply
  cases claimed with
  | none => exact hv'
  | some number =>
    obtain rfl := hv'
    refine (counts_cleanup_live rfl (counting_start rfl rfl ⟨_, rfl, rfl⟩ ?_)).seq fun result v' hends => ?_
    · intro id' heq
      exact (some.inj heq).symm
    · exact acknowledging_recovers.meets_release hends rfl

theorem counts_starts {p : Run Unit} (h : Starts p) : p.Meets Acknowledging (fun _ _ => True) none :=
  acknowledging_recovers.starts counts_live h

end Programs

/-! ## The main result -/

def Acknowledged (w : World) (id : EntryId) (entry : QueuedDelivery) : Prop :=
  ∃ claim, w.entriesInProgress id = some claim ∧
    Justified entry (w.trace.filter fun event => event.action.attempt? = some ⟨id, claim.number⟩)

theorem pending_step {w : World} {before after : List View} {v : View} {action : Action} {reply : Reply action}
    (howned : Owned w (before ++ v :: after)) (hcan : Acknowledging.Can v action) (hanswer : Answers w action reply)
    {id : EntryId} {entry : QueuedDelivery} (hpending : w.pending id = some entry) :
    (∃ entry', (w.change action reply).pending id = some entry' ∧
        entry'.toQueuedDeliveryPayload = entry.toQueuedDeliveryPayload) ∨
      (w.change action reply).failed id = some entry ∨ action = .ackDelivery id ∧ Acknowledged w id entry := by
  obtain ⟨hcan, hasks⟩ := hcan
  by_cases htouched : touched action reply = some id
  · cases action with
    | enqueueDelivery params now =>
      obtain rfl := some.inj htouched
      rw [hanswer.1.1] at hpending
      cases hpending
    | claim id' =>
      cases reply with
      | none | some number => exact .inl ⟨entry, hpending, rfl⟩
    | release id' => exact .inl ⟨entry, hpending, rfl⟩
    | update id' u =>
      obtain rfl := some.inj htouched
      refine .inl ⟨u.apply entry, ?_, Update.apply_payload u entry⟩
      simp only [World.change, Function.update_self, hpending, map_some]
    | ackDelivery id' =>
      obtain rfl := some.inj htouched
      refine .inr (.inr ⟨rfl, ?_⟩)
      cases v with
      | none => exact absurd hcan.2 (some_ne_none _)
      | some own =>
        have hfits := howned.fits own (mem_append_right _ mem_cons_self)
        obtain rfl : id' = own.attempt.id := hcan.2.1 id' rfl
        refine ⟨_, hfits.claimed, ?_⟩
        rw [← hfits.log]
        exact hasks own rfl entry (hfits.entry.symm.trans hpending)
    | moveToFailed id' =>
      obtain rfl := some.inj htouched
      refine .inr (.inl ?_)
      simp only [World.change, Function.update_self, hpending, some_or]
    | _ => cases htouched
  · refine .inl ⟨entry, ?_, rfl⟩
    rw [(change_frame w action reply htouched).1, hpending]

/-- **No pending entry is lost**: in every run whose steps are as the condition says, an entry that a step finds pending
stays so, or is moved to the failed ones, or is acknowledged by a delivery that was done with it. -/
theorem pending_not_lost {config config' : Config Action Reply World} {move : Move Action Reply}
    (h : Reaches queue Starts Reported World.empty config) (hstep : Step queue Starts config move config')
    {id : EntryId} {entry : QueuedDelivery} (hpending : config.world.pending id = some entry) :
    (∃ entry', config'.world.pending id = some entry' ∧
        entry'.toQueuedDeliveryPayload = entry.toQueuedDeliveryPayload) ∨
      config'.world.failed id = some entry ∨
      move = .act (.ackDelivery id) () ∧ Acknowledged config.world id entry := by
  cases hmove : move with
  | spawn | crash =>
    subst hmove
    cases hstep
    exact Or.inl ⟨entry, hpending, rfl⟩
  | act action reply =>
    subst hmove
    obtain ⟨before, v, after, howned, hcan⟩ := h.can owned_keeps owned_empty (fun _ hp => counts_starts hp) hstep
    have hanswer : Answers config.world action reply ∧ config'.world = queue.after config.world action reply := by
      cases hstep with
      | act hanswer => exact ⟨hanswer, rfl⟩
    obtain ⟨hanswer, hworld⟩ := hanswer
    rw [hworld]
    rcases pending_step howned hcan hanswer hpending with hstays | hfailed | ⟨rfl, hacknowledged⟩
    · exact Or.inl hstays
    · exact Or.inr (Or.inl hfailed)
    · exact Or.inr (Or.inr ⟨rfl, hacknowledged⟩)

section Fixed

def notice : DeliverParams where
  payloads := [js "hi"]
  bestEffort := true
  queuePolicy := .best_effort
  hasAbortSignal := false

def noticeEntry : QueuedDelivery :=
  notice.toQueuedDeliveryPayload.toEntry 0 0

/-- A live delivery whose payload a hook cancels. -/
theorem cancelled_notice_acknowledged : ∃ w : World, w.pending 0 = some noticeEntry ∧ Acknowledged w 0 noticeEntry := by
  have h : Reaches queue Starts Reported World.empty ⟨World.empty, []⟩ := Reaches.start
  have h := h.spawned (Starts.live notice) trivial
  have h := h.alone (0 : Nat) trivial trivial
  have h := h.alone (0, some 0) ⟨unused_empty rfl rfl rfl rfl, Or.inr rfl⟩ trivial
  have h := h.alone (.ok fun _ => true) trivial trivial
  have h := h.alone (.ok .cancelledByMessageHook) trivial trivial
  have h := h.alone () trivial ⟨by decide, fun heq => by cases heq⟩
  obtain ⟨config, config', hreaches, hstep, hworld, hworld'⟩ := h.lastStep () trivial
  have hpending : config.world.pending 0 = some noticeEntry := by
    rw [hworld]
    rfl
  refine ⟨config.world, hpending, ?_⟩
  rcases pending_not_lost hreaches hstep hpending with ⟨entry', hstays, -⟩ | hfailed | ⟨-, hacknowledged⟩
  · rw [hworld'] at hstays
    cases hstays
  · rw [hworld'] at hfailed
    cases hfailed
  · exact hacknowledged

theorem failed_notice_acknowledged :
    ¬∀ (config config' : Config Action Reply World) (move : Move Action Reply),
      Reaches queue Starts (fun _ _ => True) World.empty config → Step queue Starts config move config' →
      ∀ id entry, config.world.pending id = some entry →
        (∃ entry', config'.world.pending id = some entry' ∧
          entry'.toQueuedDeliveryPayload = entry.toQueuedDeliveryPayload) ∨
        config'.world.failed id = some entry ∨
        move = .act (.ackDelivery id) () ∧ Acknowledged config.world id entry := by
  intro hall
  have h : Reaches queue Starts (fun _ _ => True) World.empty ⟨World.empty, []⟩ := Reaches.start
  have h := h.spawned (Starts.live notice) trivial
  have h := h.alone (0 : Nat) trivial trivial
  have h := h.alone (0, some 0) ⟨unused_empty rfl rfl rfl rfl, Or.inr rfl⟩ trivial
  have h := h.crashed trivial
  have h := h.spawned (Starts.recovery none) trivial
  have h := h.alone [noticeEntry] (loads_single rfl rfl) trivial
  have h := h.alone (0 : Nat) trivial trivial
  have h : Reaches queue Starts (fun _ _ => True) World.empty ⟨_, [recoverEntries _ (byEnqueuedAt [noticeEntry])]⟩ := h
  rw [byEnqueuedAt_singleton] at h
  have h := h.alone (0 : Nat) trivial trivial
  have h := h.alone (some 1) rfl trivial
  have h := h.alone (some noticeEntry) rfl trivial
  have h := h.alone (0 : Nat) trivial trivial
  have h := h.alone (.ok fun _ => true) trivial trivial
  have h := h.alone (.ok (.ready .payload)) trivial trivial
  have h := h.alone (.ok ()) trivial trivial
  have h := h.alone ⟨false, .error ⟨js "network", false, none⟩⟩ trivial trivial
  have h := h.alone () trivial trivial
  obtain ⟨config, config', hreaches, hstep, hworld, hworld'⟩ := h.lastStep () trivial
  have hpending : config.world.pending 0 = some noticeEntry := by
    rw [hworld]
    rfl
  rcases hall config config' _ hreaches hstep 0 noticeEntry hpending with ⟨entry', hstays, -⟩ | hfailed | ⟨-, hack⟩
  · rw [hworld'] at hstays
    cases hstays
  · rw [hworld'] at hfailed
    cases hfailed
  · obtain ⟨claim, hclaim, hjustified⟩ := hack
    have hclaim' : config.world.entriesInProgress 0 = some ⟨1, true⟩ := by
      rw [hworld]
      rfl
    obtain rfl := mem_unique hclaim' hclaim
    have hlog : config.world.trace.filter (fun event => event.action.attempt? = some ⟨0, 1⟩) =
        [⟨.normalize ⟨0, 1⟩ [js "hi"], .ok fun _ => true⟩, ⟨.prepare ⟨0, 1⟩ 0, .ok (.ready .payload)⟩,
          ⟨.beforeSend ⟨0, 1⟩ 0, .ok ()⟩, ⟨.send ⟨0, 1⟩ 0 0, ⟨false, .error ⟨js "network", false, none⟩⟩⟩,
          ⟨.record ⟨0, 1⟩ 0 .failed, ()⟩] := by
      rw [hworld]
      rfl
    rw [hlog] at hjustified
    rcases hjustified with hsettled | ⟨event, hevent, e, he, haborted⟩ | ⟨attempt, entry, hmem⟩
    · obtain ⟨event, hevent, hsettles⟩ := hsettled 0 Nat.one_pos
      simp only [mem_cons, not_mem_nil, or_false] at hevent
      rcases hevent with rfl | rfl | rfl | rfl | rfl <;> cases hsettles
    · simp only [mem_cons, not_mem_nil, or_false] at hevent
      rcases hevent with rfl | rfl | rfl | rfl | rfl <;> cases he
      cases haborted
    · simp at hmem

end Fixed

end NotLost

end ClawWorks.Delivery
