import ClawWorks.Delivery.Recovery

/-!
# Claims on entries

What a delivery knows of the queue while it holds a claim: nobody else touches its entry.
-/

namespace ClawWorks.Delivery

open Function Option List

/-! ## Views -/

/-- What the holder of a claim knows: its entry, what it has done, and whether nothing was accepted before. -/
structure Held where
  attempt : Attempt
  recovery : Bool
  entry : Option QueuedDelivery
  log : List Event
  fresh : Bool

abbrev View := Option Held

def Action.entry? : Action → Option EntryId
  | .release id | .loadPendingDelivery id | .update id _ | .ackDelivery id | .moveToFailed id => some id
  | _ => none

/-- One claim at a time, and nothing on an entry or for an attempt without it. -/
def Can : View → Action → Prop
  | none, action => action.attempt? = none ∧ action.entry? = none
  | some h, action =>
    (∀ attempt, action.attempt? = some attempt → attempt = h.attempt) ∧
    (∀ id, action.entry? = some id → id = h.attempt.id) ∧
    match action with
    | .enqueueDelivery _ _ | .claim _ => False
    | _ => True

def unmarked (entry : Option QueuedDelivery) : Bool :=
  entry.any fun e => e.recoveryState.isNone

def Held.logged (h : Held) (action : Action) (reply : Reply action) : Held :=
  { h with log := h.log ++ [⟨action, reply⟩] }

/-- How a view changes; an adapter that says that nothing was sent is believed. -/
def Next : View → (action : Action) → Reply action → View → Prop
  | none, .enqueueDelivery params now, reply, v' =>
    v' = reply.2.map fun number => ⟨⟨reply.1, number⟩, false, some (params.toEntry reply.1 now), [], true⟩
  | none, .claim id, reply, v' =>
    match reply with
    | none => v' = none
    | some number =>
      ∃ entry, v' = some ⟨⟨id, number⟩, true, entry, [], unmarked entry⟩ ∧ ∀ e, entry = some e → e.id = id
  | none, _, _, v' => v' = none
  | some _, .release _, _, v' => v' = none
  | some h, .loadPendingDelivery _, reply, v' => reply = h.entry ∧ v' = some h
  | some h, .update _ u, reply, v' => reply = h.entry.isSome ∧ v' = some { h with entry := h.entry.map u.apply }
  | some h, .ackDelivery _, _, v' => v' = some { h with entry := none }
  | some h, .moveToFailed _, reply, v' => reply = h.entry.isSome ∧ v' = some { h with entry := none }
  | some h, .reconcile attempt entry, reply, v' =>
    v' = some { h.logged (.reconcile attempt entry) reply with fresh := h.fresh || reply == some .not_sent }
  | some h, action, reply, v' => v' = some (if action.attempt?.isSome then h.logged action reply else h)

def discipline (Asks : Held → Action → Prop) (Learns : Held → (action : Action) → Reply action → Prop) :
    Discipline Action Reply View where
  Can v action := Can v action ∧ ∀ h, v = some h → Asks h action
  Next v action reply v' := Next v action reply v' ∧ ∀ h, v = some h → Learns h action reply

/-! ## Ownership -/

structure Fits (w : World) (h : Held) : Prop where
  claimed : w.entriesInProgress h.attempt.id = some ⟨h.attempt.number, h.recovery⟩
  entry : w.pending h.attempt.id = h.entry
  log : h.log = w.trace.filter fun event => event.action.attempt? = some h.attempt

def Apart (v v' : View) : Prop :=
  ∀ h h', v = some h → v' = some h' → h.attempt.id ≠ h'.attempt.id

structure Owned (w : World) (views : List View) : Prop where
  fits : ∀ h, some h ∈ views → Fits w h
  apart : views.Pairwise Apart
  ids : ∀ id e, w.pending id = some e → e.id = id
  claims : ∀ id c, w.entriesInProgress id = some c → c.number < w.nextNumber
  numbers : ∀ event ∈ w.trace, ∀ attempt, event.action.attempt? = some attempt → attempt.number < w.nextNumber

/-- The entry that an action changes, or whose claim it takes or gives back. -/
def touched : (action : Action) → Reply action → Option EntryId
  | .enqueueDelivery _ _, reply => some reply.1
  | .claim id, reply => reply.map fun _ => id
  | .release id, _ | .update id _, _ | .ackDelivery id, _ | .moveToFailed id, _ => some id
  | _, _ => none

theorem change_frame (w : World) (action : Action) (reply : Reply action) {id : EntryId}
    (h : touched action reply ≠ some id) : (w.change action reply).pending id = w.pending id ∧
      (w.change action reply).entriesInProgress id = w.entriesInProgress id := by
  cases action with
  | enqueueDelivery params now =>
    have hid : id ≠ reply.1 := fun heq => h (congrArg some heq.symm)
    exact ⟨update_of_ne hid _ _, update_of_ne hid _ _⟩
  | claim id' =>
    cases reply with
    | none => exact ⟨rfl, rfl⟩
    | some number =>
      have hid : id ≠ id' := fun heq => h (congrArg some heq.symm)
      exact ⟨rfl, update_of_ne hid _ _⟩
  | release id' =>
    have hid : id ≠ id' := fun heq => h (congrArg some heq.symm)
    exact ⟨rfl, update_of_ne hid _ _⟩
  | update id' u | ackDelivery id' | moveToFailed id' =>
    have hid : id ≠ id' := fun heq => h (congrArg some heq.symm)
    exact ⟨update_of_ne hid _ _, rfl⟩
  | _ => exact ⟨rfl, rfl⟩

theorem nextNumber_le_change (w : World) (action : Action) (reply : Reply action) :
    w.nextNumber ≤ (w.change action reply).nextNumber := by
  cases action with
  | enqueueDelivery params now => exact Nat.le_succ w.nextNumber
  | claim id =>
    cases reply with
    | none => exact le_refl w.nextNumber
    | some number => exact Nat.le_succ w.nextNumber
  | _ => exact le_refl w.nextNumber

variable {action : Action} {w : World} {before after : List View}

variable {reply : Reply action}

theorem Owned.replace {v v' : View} (h : Owned w (before ++ v :: after))
    (htouched : ∀ id, touched action reply = some id →
      (∃ own, v = some own ∧ own.attempt.id = id) ∨ w.entriesInProgress id = none)
    (hattempt : ∀ attempt, action.attempt? = some attempt → ∃ own, v = some own ∧ own.attempt = attempt)
    (hown : ∀ h', v' = some h' → Fits (queue.after w action reply) h' ∧
      ((∃ own, v = some own ∧ own.attempt.id = h'.attempt.id) ∨ w.entriesInProgress h'.attempt.id = none))
    (hids : ∀ id e, (w.change action reply).pending id = some e → e.id = id)
    (hclaims : ∀ id c, (w.change action reply).entriesInProgress id = some c →
      c.number < (w.change action reply).nextNumber) :
    Owned (queue.after w action reply) (before ++ v' :: after) := by
  obtain ⟨hbefore, hrest, hcross⟩ := pairwise_append.mp h.apart
  obtain ⟨hhead, hafter⟩ := pairwise_cons.mp hrest
  -- the others hold other entries
  have hother : ∀ h₂, some h₂ ∈ before ∨ some h₂ ∈ after →
      Fits w h₂ ∧ ∀ own, v = some own → own.attempt.id ≠ h₂.attempt.id := by
    rintro h₂ (hmem | hmem)
    · refine ⟨h.fits h₂ (mem_append_left _ hmem), fun own hv heq => ?_⟩
      exact hcross _ hmem _ mem_cons_self h₂ own rfl hv heq.symm
    · refine ⟨h.fits h₂ (mem_append_right _ (mem_cons_of_mem _ hmem)), fun own hv heq => ?_⟩
      exact hhead _ hmem own h₂ hv rfl heq
  have hclaimed : ∀ h₂, some h₂ ∈ before ∨ some h₂ ∈ after → w.entriesInProgress h₂.attempt.id ≠ none := by
    intro h₂ hmem
    rw [(hother h₂ hmem).1.claimed]
    exact some_ne_none _
  have hframe : ∀ h₂, some h₂ ∈ before ∨ some h₂ ∈ after → Fits (queue.after w action reply) h₂ := by
    intro h₂ hmem
    obtain ⟨hfits, hne⟩ := hother h₂ hmem
    have huntouched : touched action reply ≠ some h₂.attempt.id := by
      intro htouch
      rcases htouched _ htouch with ⟨own, hv, hid⟩ | hnone
      · exact hne own hv hid
      · exact hclaimed h₂ hmem hnone
    obtain ⟨hpending, hprogress⟩ := change_frame w action reply huntouched
    refine ⟨hprogress.trans hfits.claimed, hpending.trans hfits.entry, ?_⟩
    have hforeign : action.attempt? ≠ some h₂.attempt := by
      intro heq
      obtain ⟨own, hv, hown⟩ := hattempt _ heq
      exact hne own hv (congrArg Attempt.id hown)
    show h₂.log = (w.trace ++ [(⟨action, reply⟩ : Event)]).filter _
    rw [filter_append, filter_cons_of_neg (by simpa using hforeign), filter_nil, append_nil]
    exact hfits.log
  have happart : ∀ h₂, some h₂ ∈ before ∨ some h₂ ∈ after → Apart v' (some h₂) := by
    rintro h₂ hmem h' h₂' hv' heq
    obtain rfl := some.inj heq
    rcases (hown h' hv').2 with ⟨own, hv, hid⟩ | hnone
    · rw [← hid]
      exact (hother h₂ hmem).2 own hv
    · intro hid
      rw [hid] at hnone
      exact hclaimed h₂ hmem hnone
  refine ⟨?_, ?_, hids, hclaims, ?_⟩
  · intro h' hmem
    rcases mem_append.mp hmem with hmem | hmem
    · exact hframe h' (.inl hmem)
    · rcases mem_cons.mp hmem with heq | hmem
      · exact (hown h' heq.symm).1
      · exact hframe h' (.inr hmem)
  · refine pairwise_append.mpr ⟨hbefore, pairwise_cons.mpr ⟨?_, hafter⟩, ?_⟩
    · intro v₂ hmem h' h₂ hv' hv₂
      subst hv₂
      exact happart h₂ (.inr hmem) h' h₂ hv' rfl
    · intro v₂ hmem v₃ hv₃
      rcases mem_cons.mp hv₃ with rfl | hv₃
      · intro h₂ h' hv₂ hv'
        subst hv₂
        exact (happart h₂ (.inl hmem) h' h₂ hv' rfl).symm
      · exact hcross v₂ hmem v₃ (mem_cons_of_mem _ hv₃)
  · intro event hevent attempt hattempt'
    refine lt_of_lt_of_le ?_ (nextNumber_le_change w action reply)
    rcases mem_append.mp hevent with hevent | hevent
    · exact h.numbers event hevent attempt hattempt'
    · obtain rfl := mem_singleton.mp hevent
      obtain ⟨own, rfl, rfl⟩ := hattempt attempt hattempt'
      exact h.claims _ _ (h.fits own (mem_append_right _ mem_cons_self)).claimed

theorem Update.apply_id (u : Update) (e : QueuedDelivery) : (u.apply e).id = e.id := by
  cases u <;> rfl

theorem change_ids (h : ∀ id e, w.pending id = some e → e.id = id) (action : Action)
    (reply : Reply action) : ∀ id e, (w.change action reply).pending id = some e → e.id = id := by
  intro id e he
  by_cases htouched : touched action reply = some id
  · cases action with
    | enqueueDelivery params now =>
      obtain rfl := some.inj htouched
      simp only [World.change, update_self, some.injEq] at he
      rw [← he]
      rfl
    | claim id' =>
      cases reply with
      | none | some number => exact h id e he
    | update id' u =>
      obtain rfl := some.inj htouched
      simp only [World.change, update_self, map_eq_some_iff] at he
      obtain ⟨e₀, he₀, rfl⟩ := he
      rw [Update.apply_id]
      exact h id' e₀ he₀
    | ackDelivery id' | moveToFailed id' =>
      obtain rfl := some.inj htouched
      simp [World.change] at he
    | _ => exact h id e he
  · rw [(change_frame w action reply htouched).1] at he
    exact h id e he

theorem change_claims (h : ∀ id c, w.entriesInProgress id = some c → c.number < w.nextNumber)
    (hanswer : Answers w action reply) :
    ∀ id c, (w.change action reply).entriesInProgress id = some c → c.number < (w.change action reply).nextNumber := by
  intro id c hc
  by_cases htouched : touched action reply = some id
  · cases action with
    | enqueueDelivery params now =>
      obtain rfl := some.inj htouched
      simp only [World.change, update_self, map_eq_some_iff] at hc
      obtain ⟨number, hnumber, rfl⟩ := hc
      rcases hanswer.2 with hnone | hsome
      · rw [hnone] at hnumber
        cases hnumber
      · rw [hsome] at hnumber
        obtain rfl := some.inj hnumber
        exact Nat.lt_succ_self w.nextNumber
    | claim id' =>
      cases reply with
      | none => exact h id c hc
      | some number =>
        obtain rfl := some.inj htouched
        simp only [World.change, update_self, some.injEq] at hc
        subst hc
        have hnumber : some number = if (w.entriesInProgress id').isSome then none else some w.nextNumber := hanswer
        split at hnumber
        · cases hnumber
        · obtain rfl := some.inj hnumber
          exact Nat.lt_succ_self w.nextNumber
    | release id' =>
      obtain rfl := some.inj htouched
      simp [World.change] at hc
    | _ => exact h id c hc
  · rw [(change_frame w action reply htouched).2] at hc
    exact lt_of_lt_of_le (h id c hc) (nextNumber_le_change w action reply)

theorem touched_eq_none_of_attempt {attempt : Attempt} (h : action.attempt? = some attempt)
    (reply : Reply action) : touched action reply = none := by
  cases action <;> first | rfl | cases h

variable {own : Held}

theorem fits_logged (hfits : Fits w own) (hattempt : action.attempt? = some own.attempt) (reply : Reply action) :
    Fits (queue.after w action reply) (own.logged action reply) := by
  have huntouched : touched action reply ≠ some own.attempt.id := by
    rw [touched_eq_none_of_attempt hattempt]
    exact (some_ne_none _).symm
  obtain ⟨hpending, hprogress⟩ := change_frame w action reply huntouched
  refine ⟨hprogress.trans hfits.claimed, hpending.trans hfits.entry, ?_⟩
  show own.log ++ [(⟨action, reply⟩ : Event)] =
    (w.trace ++ [(⟨action, reply⟩ : Event)]).filter fun event => event.action.attempt? = some own.attempt
  rw [filter_append, filter_cons_of_pos (by simpa using hattempt), filter_nil, ← hfits.log]

theorem filter_trace (hattempt : action.attempt? = none) (reply : Reply action) (attempt : Attempt) :
    (queue.after w action reply).trace.filter (fun event => event.action.attempt? = some attempt) =
      w.trace.filter fun event => event.action.attempt? = some attempt := by
  show (w.trace ++ [(⟨action, reply⟩ : Event)]).filter _ = _
  rw [filter_append, filter_cons_of_neg (by rw [hattempt]; simp), filter_nil, append_nil]

theorem fits_quiet (hfits : Fits w own)
    (huntouched : touched action reply = none) (hattempt : action.attempt? = none) :
    Fits (queue.after w action reply) own := by
  have hother : touched action reply ≠ some own.attempt.id := by
    rw [huntouched]
    exact (some_ne_none _).symm
  obtain ⟨hpending, hprogress⟩ := change_frame w action reply hother
  exact ⟨hprogress.trans hfits.claimed, hpending.trans hfits.entry, hfits.log.trans (filter_trace hattempt reply _).symm⟩

theorem filter_fresh
    (h : ∀ event ∈ w.trace, ∀ attempt, event.action.attempt? = some attempt → attempt.number < w.nextNumber)
    (id : EntryId) : w.trace.filter (fun event => event.action.attempt? = some ⟨id, w.nextNumber⟩) = [] := by
  rw [filter_eq_nil_iff]
  intro event hevent heq
  exact absurd (h event hevent _ (of_decide_eq_true heq)) (lt_irrefl _)

theorem owned_act_idle
    (h : Owned w (before ++ none :: after)) (hcan : Can none action) (hanswer : Answers w action reply) :
    ∃ v', Next none action reply v' ∧ Owned (queue.after w action reply) (before ++ v' :: after) := by
  have hids := change_ids h.ids action reply
  have hclaims := change_claims h.claims hanswer
  have hattempt : ∀ attempt, action.attempt? = some attempt → ∃ own : Held, none = some own ∧ own.attempt = attempt := by
    intro attempt heq
    rw [hcan.1] at heq
    cases heq
  have hquiet : touched action reply = none → Owned (queue.after w action reply) (before ++ none :: after) := by
    intro huntouched
    refine h.replace (fun id htouch => ?_) hattempt (fun h' hv' => by cases hv') hids hclaims
    rw [huntouched] at htouch
    cases htouch
  cases action with
  | enqueueDelivery params now =>
    obtain ⟨⟨hpending, hfailed, hunclaimed, htrace⟩, hnumber⟩ := hanswer
    refine ⟨_, rfl, h.replace (fun id htouch => .inr ?_) hattempt (fun h' hv' => ?_) hids hclaims⟩
    · obtain rfl := some.inj htouch
      exact hunclaimed
    · obtain ⟨number, hreply, rfl⟩ := map_eq_some_iff.mp hv'
      refine ⟨⟨?_, ?_, ?_⟩, .inr hunclaimed⟩
      · show update _ reply.1 _ reply.1 = _
        rw [update_self, hreply]
        rfl
      · exact update_self reply.1 _ _
      · rw [filter_trace rfl]
        refine (filter_eq_nil_iff.mpr fun event hevent heq => ?_).symm
        exact htrace event hevent _ (of_decide_eq_true heq) rfl
  | claim id =>
    cases reply with
    | none => exact ⟨none, rfl, hquiet rfl⟩
    | some number =>
      have hunclaimed : w.entriesInProgress id = none ∧ number = w.nextNumber := by
        have hreply : some number = if (w.entriesInProgress id).isSome then none else some w.nextNumber := hanswer
        split at hreply
        · cases hreply
        · rename_i hnone
          exact ⟨by simpa using hnone, some.inj hreply⟩
      obtain ⟨hunclaimed, rfl⟩ := hunclaimed
      refine ⟨_, ⟨w.pending id, rfl, h.ids id⟩, h.replace (fun id' htouch => .inr ?_) hattempt (fun h' hv' => ?_) hids
        hclaims⟩
      · obtain rfl := some.inj htouch
        exact hunclaimed
      · obtain rfl := some.inj hv'
        refine ⟨⟨update_self id _ _, rfl, ?_⟩, .inr hunclaimed⟩
        rw [filter_trace rfl, filter_fresh h.numbers]
  | now | loadPendingDeliveries | enterDrain drainKey | leaveDrain drainKey => exact ⟨none, rfl, hquiet rfl⟩
  | _ => exact absurd hcan (by simp [Can, Action.attempt?, Action.entry?])

theorem owned_act_held
    (h : Owned w (before ++ some own :: after)) (hcan : Can (some own) action) (hanswer : Answers w action reply) :
    ∃ v', Next (some own) action reply v' ∧ Owned (queue.after w action reply) (before ++ v' :: after) := by
  obtain ⟨hattempts, hentries, hkind⟩ := hcan
  have hfits := h.fits own (mem_append_right _ mem_cons_self)
  have hattempt : ∀ attempt, action.attempt? = some attempt → ∃ own', some own = some own' ∧ own'.attempt = attempt :=
    fun attempt heq => ⟨own, rfl, (hattempts attempt heq).symm⟩
  -- what is touched is the claimed entry
  have hreplace : ∀ v', (∀ id, touched action reply = some id → id = own.attempt.id) →
      (∀ h', v' = some h' → Fits (queue.after w action reply) h' ∧ h'.attempt = own.attempt) →
      Owned (queue.after w action reply) (before ++ v' :: after) := by
    intro v' htouched hv'
    refine h.replace (fun id htouch => .inl ⟨own, rfl, (htouched id htouch).symm⟩) hattempt (fun h' heq => ?_)
      (change_ids h.ids action reply) (change_claims h.claims hanswer)
    obtain ⟨hfits', hsame⟩ := hv' h' heq
    exact ⟨hfits', .inl ⟨own, rfl, congrArg Attempt.id hsame.symm⟩⟩
  have hlogged : ∀ h', action.attempt?.isSome = true → h'.attempt = own.attempt →
      Fits (queue.after w action reply) h' → Owned (queue.after w action reply) (before ++ some h' :: after) := by
    intro h' hsome hsame hfits'
    obtain ⟨attempt, heq⟩ := isSome_iff_exists.mp hsome
    refine hreplace _ (fun id htouch => ?_) fun h₂ heq₂ => ?_
    · rw [touched_eq_none_of_attempt heq] at htouch
      cases htouch
    · obtain rfl := some.inj heq₂
      exact ⟨hfits', hsame⟩
  have hpart : ∀ attempt, action.attempt? = some attempt → Fits (queue.after w action reply) (own.logged action reply) := by
    intro attempt heq
    refine fits_logged hfits ?_ reply
    rw [heq, hattempts attempt heq]
  have hquiet : touched action reply = none → action.attempt? = none →
      Owned (queue.after w action reply) (before ++ some own :: after) := by
    intro huntouched hnone
    refine hreplace _ (fun id htouch => ?_) fun h₂ heq₂ => ?_
    · rw [huntouched] at htouch
      cases htouch
    · obtain rfl := some.inj heq₂
      exact ⟨fits_quiet hfits huntouched hnone, rfl⟩
  cases action with
  | enqueueDelivery params now => exact absurd hkind id
  | claim id => exact absurd hkind False.elim
  | release id =>
    obtain rfl := hentries id rfl
    exact ⟨none, rfl, hreplace none (fun id' htouch => (some.inj htouch).symm) fun h' heq => by cases heq⟩
  | loadPendingDelivery id =>
    obtain rfl := hentries id rfl
    refine ⟨some own, ⟨?_, rfl⟩, hquiet rfl rfl⟩
    rw [← hfits.entry]
    exact hanswer
  | update id u =>
    obtain rfl := hentries id rfl
    refine ⟨_, ⟨?_, rfl⟩, hreplace _ (fun id' htouch => (some.inj htouch).symm) fun h' heq => ?_⟩
    · rw [← hfits.entry]
      exact hanswer
    · obtain rfl := some.inj heq
      refine ⟨⟨hfits.claimed, ?_, hfits.log.trans (filter_trace rfl reply _).symm⟩, rfl⟩
      show update w.pending own.attempt.id _ own.attempt.id = _
      rw [update_self, hfits.entry]
  | ackDelivery id =>
    obtain rfl := hentries id rfl
    refine ⟨_, rfl, hreplace _ (fun id' htouch => (some.inj htouch).symm) fun h' heq => ?_⟩
    obtain rfl := some.inj heq
    exact ⟨⟨hfits.claimed, update_self _ _ _, hfits.log.trans (filter_trace rfl reply _).symm⟩, rfl⟩
  | moveToFailed id =>
    obtain rfl := hentries id rfl
    refine ⟨_, ⟨?_, rfl⟩, hreplace _ (fun id' htouch => (some.inj htouch).symm) fun h' heq => ?_⟩
    · rw [← hfits.entry]
      exact hanswer
    · obtain rfl := some.inj heq
      exact ⟨⟨hfits.claimed, update_self _ _ _, hfits.log.trans (filter_trace rfl reply _).symm⟩, rfl⟩
  | loadPendingDeliveries | now | enterDrain drainKey | leaveDrain drainKey => exact ⟨_, rfl, hquiet rfl rfl⟩
  | reconcile attempt entry =>
    obtain ⟨hclaimed, hentry, hlog⟩ := hpart attempt rfl
    exact ⟨_, rfl, hlogged _ rfl rfl ⟨hclaimed, hentry, hlog⟩⟩
  | normalize attempt payloads | abortSignal attempt | prepare attempt index | beforeSend attempt index
  | send attempt index unit | afterSend attempt index | record attempt index outcome =>
    exact ⟨_, rfl, hlogged _ rfl rfl (hpart attempt rfl)⟩

theorem owned_act {v : View}
    (h : Owned w (before ++ v :: after)) (hcan : Can v action) (hanswer : Answers w action reply) :
    ∃ v', Next v action reply v' ∧ Owned (queue.after w action reply) (before ++ v' :: after) := by
  cases v with
  | none => exact owned_act_idle h hcan hanswer
  | some own => exact owned_act_held h hcan hanswer

theorem owned_spawn {views : List View} (h : Owned w views) : Owned w (none :: views) := by
  refine ⟨fun held hmem => ?_, pairwise_cons.mpr ⟨fun v hv held h' heq => ?_, h.apart⟩, h.ids, h.claims, h.numbers⟩
  · rcases mem_cons.mp hmem with heq | hmem
    · cases heq
    · exact h.fits held hmem
  · cases heq

theorem owned_crash {views : List View} (h : Owned w views) : Owned (queue.crash w) [] :=
  ⟨fun _ hmem => absurd hmem not_mem_nil, List.Pairwise.nil, h.ids, (fun _ _ hc => by cases hc), h.numbers⟩

theorem owned_empty : Owned World.empty [] :=
  ⟨fun _ hmem => absurd hmem not_mem_nil, List.Pairwise.nil, (fun _ _ he => by cases he),
    (fun _ _ hc => by cases hc), fun _ hmem => absurd hmem not_mem_nil⟩

/-! ## Rules -/

section Rules

open Prog

variable {Asks : Held → Action → Prop} {Learns : Held → (action : Action) → Reply action → Prop} {α : Type}
  {post : α → View → Prop} {h : Held}

theorem meets_perform {action : Action} {f : Reply action → Run α} (hcan : Can (some h) action) (hasks : Asks h action)
    (hnext : ∀ reply v', Next (some h) action reply v' → Learns h action reply →
      (f reply).Meets (discipline Asks Learns) post v') :
    (perform action >>= f).Meets (discipline Asks Learns) post (some h) := by
  refine ⟨⟨hcan, ?_⟩, fun reply v' hv' => hnext reply v' hv'.1 (hv'.2 h rfl)⟩
  rintro own heq
  obtain rfl := some.inj heq
  exact hasks

theorem meets_perform_idle {action : Action} {f : Reply action → Run α} (hcan : Can none action)
    (hnext : ∀ reply v', Next none action reply v' → (f reply).Meets (discipline Asks Learns) post v') :
    (perform action >>= f).Meets (discipline Asks Learns) post none :=
  ⟨⟨hcan, fun _ heq => by cases heq⟩, fun reply v' hv' => hnext reply v' hv'.1⟩

theorem meets_now {v : View} {f : Nat → Run α} (hasks : ∀ own, Asks own .now)
    (hnext : ∀ now, (f now).Meets (discipline Asks Learns) post v) :
    (perform Action.now >>= f).Meets (discipline Asks Learns) post v := by
  cases v with
  | none =>
    refine meets_perform_idle ⟨rfl, rfl⟩ fun reply v' hv' => ?_
    obtain rfl : v' = none := hv'
    exact hnext reply
  | some own =>
    refine meets_perform ⟨(fun _ heq => by cases heq), (fun _ heq => by cases heq), trivial⟩ (hasks own)
      fun reply v' hv' _ => ?_
    obtain rfl : v' = some own := hv'
    exact hnext reply

variable {id : EntryId}

theorem meets_update {u : Update} {f : Bool → Run α} (hid : id = h.attempt.id) (hasks : Asks h (.update id u))
    (hnext : Learns h (.update id u) h.entry.isSome →
      (f h.entry.isSome).Meets (discipline Asks Learns) post (some { h with entry := h.entry.map u.apply })) :
    (perform (Action.update id u) >>= f).Meets (discipline Asks Learns) post (some h) := by
  refine meets_perform ⟨(fun _ heq => by cases heq), ?_, trivial⟩ hasks fun reply v' hv' hlearns => ?_
  · intro id' heq
    rw [← some.inj heq]
    exact hid
  · obtain ⟨rfl, rfl⟩ := hv'
    exact hnext hlearns

theorem meets_ack {f : Unit → Run α} (hid : id = h.attempt.id) (hasks : Asks h (.ackDelivery id))
    (hnext : (f ()).Meets (discipline Asks Learns) post (some { h with entry := none })) :
    (perform (Action.ackDelivery id) >>= f).Meets (discipline Asks Learns) post (some h) := by
  refine meets_perform ⟨(fun _ heq => by cases heq), ?_, trivial⟩ hasks fun reply v' hv' _ => ?_
  · intro id' heq
    rw [← some.inj heq]
    exact hid
  · obtain rfl := hv'
    exact hnext

theorem meets_move {f : Bool → Run α} (hid : id = h.attempt.id) (hasks : Asks h (.moveToFailed id))
    (hnext : ∀ reply, (f reply).Meets (discipline Asks Learns) post (some { h with entry := none })) :
    (perform (Action.moveToFailed id) >>= f).Meets (discipline Asks Learns) post (some h) := by
  refine meets_perform ⟨(fun _ heq => by cases heq), ?_, trivial⟩ hasks fun reply v' hv' _ => ?_
  · intro id' heq
    rw [← some.inj heq]
    exact hid
  · obtain ⟨-, rfl⟩ := hv'
    exact hnext reply

/-- The actions of a delivery that hand nothing over. -/
def Action.quiet (attempt : Attempt) : Action → Prop
  | .normalize attempt' _ | .abortSignal attempt' | .prepare attempt' _ | .beforeSend attempt' _
  | .afterSend attempt' _ | .record attempt' _ _ => attempt' = attempt
  | _ => False

theorem meets_quiet {action : Action} {f : Reply action → Run α} (hquiet : action.quiet h.attempt)
    (hasks : Asks h action)
    (hnext : ∀ reply, Learns h action reply → (f reply).Meets (discipline Asks Learns) post (some (h.logged action reply))) :
    (perform action >>= f).Meets (discipline Asks Learns) post (some h) := by
  have hattempt : action.attempt? = some h.attempt ∧ action.entry? = none := by
    cases action <;> first | exact ⟨congrArg some hquiet, rfl⟩ | exact absurd hquiet id
  refine meets_perform ⟨?_, ?_, ?_⟩ hasks fun reply v' hv' hlearns => ?_
  · intro attempt heq
    rw [hattempt.1] at heq
    exact (some.inj heq).symm
  · intro id heq
    rw [hattempt.2] at heq
    cases heq
  · cases action <;> trivial
  · cases action with
    | normalize attempt payloads | abortSignal attempt | prepare attempt index | beforeSend attempt index
    | afterSend attempt index | record attempt index outcome => exact hv' ▸ hnext reply hlearns
    | _ => exact absurd hquiet id

end Rules

/-! ## Programs -/

section Programs

open Prog

variable {Asks : Held → Action → Prop} {Learns : Held → (action : Action) → Reply action → Prop}
  {Ends : Attempt → View → Prop}

/-- Nothing is claimed. -/
def Idle {β : Type} (_ : β) (v : View) : Prop :=
  v = none

/-- The holder of a new claim that has read its entry. -/
structure JustClaimed (target : Attempt) (current : QueuedDelivery) (h : Held) : Prop where
  attempt : h.attempt = target
  id : current.id = target.id
  entry : h.entry = some current
  recovery : h.recovery = true
  fresh : h.fresh = unmarked (some current)
  log : h.log = []

/-- What is done with an entry under its claim may end. -/
def EndsClaim (Asks : Held → Action → Prop) (Learns : Held → (action : Action) → Reply action → Prop)
    (Ends : Attempt → View → Prop) (use : Attempt → QueuedDelivery → Run Unit) : Prop :=
  ∀ attempt entry h, JustClaimed attempt entry h →
    (use attempt entry).Meets (discipline Asks Learns) (fun _ v => Ends attempt v) (some h)

/-- What recoveries need of a discipline; `Ends` is what holds when a claim is released. -/
structure Recovers (Asks : Held → Action → Prop) (Learns : Held → (action : Action) → Reply action → Prop)
    (Ends : Attempt → View → Prop) : Prop where
  now : ∀ h, Asks h .now
  load : ∀ h id, Asks h (.loadPendingDelivery id)
  release : ∀ {attempt v}, Ends attempt v → ∃ h, v = some h ∧ h.attempt = attempt ∧ Asks h (.release attempt.id)
  gone : ∀ attempt, Ends attempt (some ⟨attempt, true, none, [], unmarked none⟩)
  unused : ∀ {attempt entry h}, JustClaimed attempt entry h → Ends attempt (some h)
  giveUp : EndsClaim Asks Learns Ends fun _ entry => Delivery.giveUp entry.id
  drain : ∀ {attempt entry h}, JustClaimed attempt entry h →
    (drainQueuedEntry attempt entry).Meets (discipline Asks Learns) (fun _ v => Ends attempt v) (some h)

namespace Recovers

variable (hr : Recovers Asks Learns Ends)
include hr

theorem meets_release {α : Type} {post : α → View → Prop} {f : Unit → Run α} {attempt : Attempt} {v : View}
    (h : Ends attempt v) (hnext : (f ()).Meets (discipline Asks Learns) post none) :
    (perform (Action.release attempt.id) >>= f).Meets (discipline Asks Learns) post v := by
  obtain ⟨held, rfl, rfl, hasks⟩ := hr.release h
  refine meets_perform ⟨(fun _ heq => by cases heq), fun id heq => (some.inj heq).symm, trivial⟩ hasks
    fun reply v' hv' _ => ?_
  obtain rfl : v' = none := hv'
  exact hnext

theorem withClaimedEntry {α : Type} {post : α → View → Prop} {f : Unit → Run α} {id : EntryId}
    {use : Attempt → QueuedDelivery → Run Unit} (huse : EndsClaim Asks Learns Ends use)
    (hnext : (f ()).Meets (discipline Asks Learns) post none) :
    (Delivery.withClaimedEntry id use >>= f).Meets (discipline Asks Learns) post none := by
  refine Meets.bind ?_
  unfold Delivery.withClaimedEntry
  refine meets_perform_idle ⟨rfl, rfl⟩ fun reply v' hv' => ?_
  cases reply with
  | none =>
    obtain rfl : v' = none := hv'
    exact hnext
  | some number =>
    obtain ⟨entry, rfl, hid⟩ := hv'
    refine meets_perform ⟨(fun _ heq => by cases heq), fun id heq => (some.inj heq).symm, trivial⟩ (hr.load _ _)
      fun current v' hv' _ => ?_
    obtain ⟨rfl, rfl⟩ := hv'
    have hrelease : ∀ {v'' : View}, Ends ⟨id, number⟩ v'' →
        (perform (Action.release id)).Meets (discipline Asks Learns)
          (fun a v' => (f a).Meets (discipline Asks Learns) post v') v'' := by
      intro v'' hends
      show (perform (Action.release id) >>= pure).Meets (discipline Asks Learns) _ v''
      exact hr.meets_release hends hnext
    cases current with
    | none => exact hrelease (hr.gone _)
    | some currentEntry =>
      exact (huse ⟨id, number⟩ currentEntry _ ⟨rfl, hid currentEntry rfl, rfl, rfl, rfl, rfl⟩).seq
        fun _ v' hends => hrelease hends

theorem retryIfEligible : EndsClaim Asks Learns Ends Delivery.retryIfEligible := by
  intro attempt entry h hclaimed
  refine meets_now hr.now fun now => ?_
  split
  · exact (hr.drain hclaimed).seq fun _ v' hends => hends
  · exact hr.unused hclaimed

theorem recoverEntry : EndsClaim Asks Learns Ends Delivery.recoverEntry := by
  intro attempt entry h hclaimed
  unfold Delivery.recoverEntry
  split
  · exact hr.giveUp attempt entry h hclaimed
  · exact hr.retryIfEligible attempt entry h hclaimed

variable (selectEntry : QueuedDelivery → Nat → Decision)

theorem drainSelected : EndsClaim Asks Learns Ends (Delivery.drainSelected selectEntry) := by
  intro attempt entry h hclaimed
  refine meets_now hr.now fun now => ?_
  split
  · exact hr.unused hclaimed
  split
  · exact hr.giveUp attempt entry h hclaimed
  split
  · exact (hr.drain hclaimed).seq fun _ v' hends => hends
  · exact hr.retryIfEligible attempt entry h hclaimed

theorem drainEntries (entries : List QueuedDelivery) :
    (Delivery.drainEntries selectEntry entries).Meets (discipline Asks Learns) Idle none := by
  induction entries with
  | nil => exact rfl
  | cons entry rest ih => exact hr.withClaimedEntry (hr.drainSelected selectEntry) ih

theorem recoverEntries (deadline : Nat) (entries : List QueuedDelivery) :
    (Delivery.recoverEntries deadline entries).Meets (discipline Asks Learns) Idle none := by
  induction entries with
  | nil => exact rfl
  | cons entry rest ih =>
    refine meets_now hr.now fun now => ?_
    split
    · exact rfl
    · exact hr.withClaimedEntry hr.recoverEntry ih

theorem starts (hlive : ∀ params,
    (deliverOutboundPayloadsInternal params none).Meets (discipline Asks Learns) Idle none)
    {p : Run Unit} (h : Starts p) : p.Meets (discipline Asks Learns) (fun _ _ => True) none := by
  cases h with
  | live params => exact (hlive params).seq fun _ _ _ => trivial
  | recovery maxRecoveryMs =>
    refine meets_perform_idle ⟨rfl, rfl⟩ fun pending v' hv' => ?_
    obtain rfl : v' = none := hv'
    refine meets_now hr.now fun now => ?_
    exact (hr.recoverEntries _ _).mono fun _ _ _ => trivial
  | drain drainKey selectEntry =>
    refine meets_perform_idle ⟨rfl, rfl⟩ fun entered v' hv' => ?_
    obtain rfl : v' = none := hv'
    split
    · trivial
    refine meets_now hr.now fun now => ?_
    refine meets_perform_idle ⟨rfl, rfl⟩ fun pending v' hv' => ?_
    obtain rfl : v' = none := hv'
    refine (hr.drainEntries _ _).seq fun _ v' hidle => ?_
    obtain rfl : v' = none := hidle
    show (perform (Action.leaveDrain drainKey) >>= pure).Meets (discipline Asks Learns) _ none
    exact meets_perform_idle ⟨rfl, rfl⟩ fun _ _ _ => trivial

end Recovers

end Programs

theorem unused_empty (hpending : w.pending = fun _ => none) (hfailed : w.failed = fun _ => none)
    (hprogress : w.entriesInProgress = fun _ => none) {now : Nat} (htrace : w.trace = [⟨.now, now⟩]) : w.Unused 0 := by
  refine ⟨congrFun hpending 0, congrFun hfailed 0, congrFun hprogress 0, fun event hevent attempt heq => ?_⟩
  rw [htrace] at hevent
  obtain rfl := mem_singleton.mp hevent
  cases heq

theorem byEnqueuedAt_singleton (entry : QueuedDelivery) : byEnqueuedAt [entry] = [entry] := by
  simp [byEnqueuedAt]

theorem loads_single {only : QueuedDelivery} (hid : only.id = 0)
    (h : w.pending = update (fun _ => none) 0 (some only)) :
    ∀ entry, entry ∈ [only] ↔ w.pending entry.id = some entry := by
  intro entry
  rw [h, mem_singleton]
  constructor
  · rintro rfl
    rw [hid]
    exact update_self 0 _ _
  · intro heq
    by_cases hzero : entry.id = 0
    · rw [hzero, update_self] at heq
      exact (some.inj heq).symm
    · rw [update_of_ne hzero] at heq
      cases heq

end ClawWorks.Delivery
