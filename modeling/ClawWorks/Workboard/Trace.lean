import ClawWorks.Workboard.Writes

/-!
# The writes of a run

Every operation is a sequence of transitions (`Transition`, `Steps`): a card is updated, recorded, created, removed or
written back as it was, or only the tables beside the cards change. An update is one of a few (`Amendment`): what a
caller of `update` passes, or a change that the store makes itself, which spreads the metadata of the card it found and
leaves its links, its schedule, its lifecycle mark and its attachments alone (`Amends`).

What holds of every card at the start, and of every card that a transition writes if it held before, holds of every
card after a run (`Steps.forall_cards`).
-/

namespace ClawWorks.Workboard

/-- What an operation may do: the cards it may touch and claim, the patches its caller passes, whether it is forced. -/
structure Extent where
  touches : CardId → Prop := fun _ => True
  claims : CardId → Prop := fun _ => False
  patches : WorkboardCardPatch → Prop := fun _ => False
  forced : Bool := false

/-- Work that has begun or may begin. -/
def WorkboardStatus.isActive : WorkboardStatus → Bool
  | .ready | .running | .review | .done => true
  | _ => false

structure Numbered (w w' : World) (n : WorkboardNotification) : Prop where
  numbered : ∃ sequence ∈ n.sequence, w.lastNotificationSequence < sequence.val ∧ n.createdAt * 1000 ≤ sequence.val ∧
    sequence.val ≤ w'.lastNotificationSequence

/-- Metadata that the store makes out of a card's, from the state `w` on; the update starts in `w'`. -/
structure Amends (w w' : World) (c : WorkboardCard) (m : WorkboardMetadata) : Prop where
  links : m.links = c.metadata.links
  claim : m.claim = c.metadata.claim ∨ m.claim = none ∨
    ∃ held now, c.metadata.claim = some held ∧ held.lastHeartbeatAt.val < now.val ∧ m.claim = some (beat held now)
  lifecycle : m.lifecycleStatusSourceUpdatedAt = c.metadata.lifecycleStatusSourceUpdatedAt
  stale : m.stale = c.metadata.stale ∨ m.stale = none
  scheduledAt : m.scheduledAt = c.metadata.scheduledAt
  attachments : m.attachments = c.metadata.attachments
  notifications : m.notifications = c.metadata.notifications ∨
    ∃ n, Numbered w w' n ∧ m.notifications = (c.metadata.notifications ++ [n]).rtake MAX_CARD_NOTIFICATIONS

theorem Amends.refl (w w' : World) (c : WorkboardCard) : Amends w w' c c.metadata where
  links := rfl
  claim := .inl rfl
  lifecycle := rfl
  stale := .inl rfl
  scheduledAt := rfl
  attachments := rfl
  notifications := .inl rfl

variable [Platform]

/-- The patches that operations make for a card `c`, beginning in `w`; the update starts in `w'`. -/
inductive Amendment (e : Extent) (w w' : World) (c : WorkboardCard) : WorkboardCardPatch → UpdateOptions → Prop
  | updated {patch : WorkboardCardPatch} (h : e.patches patch) :
    Amendment e w w' c patch { allowMetadataDependencyLinks := false, enforceStatusHolds := true }
  | amended {patch : WorkboardCardPatch} (hold : Bool) {m : WorkboardMetadata} (archivedAt : Option Unknown)
      (metadata : patch.metadata = .object { m.raw with archivedAt }) (amends : Amends w w' c m)
      (automation : patch.automation = .none ∨ patch.status = some (.member .todo))
      (status : ∀ value ∈ patch.status, ∃ status, value = .member status ∧
        (hold = true ∨ e.forced = true ∨ status = c.status ∨ status.isActive = false)) :
    Amendment e w w' c patch { enforceStatusHolds := hold }
  | linked {link : WorkboardLink} {links : List WorkboardLink} (ordinary : link.isDependencyLink = false)
      (appended : appendLinkPreservingDependencies c.metadata.links link = .ok links) :
    Amendment e w w' c (withLinks c links) {}
  | dependency {type : WorkboardLinkType} {snapshot other : WorkboardCard} {links : List WorkboardLink}
      (same : snapshot.core = c.core) (isDependency : type = .parent ∨ type = .child)
      (linked : links = c.metadata.links ∨ ∃ id now,
        appendLinkPreservingDependencies c.metadata.links (dependencyLink id type other.id now) = .ok links) :
    Amendment e w w' c (withLinks snapshot links) {}
  | unreferenced {snapshot : WorkboardCard} (same : snapshot.core = c.core) (id : JsString) : Amendment e w w' c
      (withLinks snapshot (c.metadata.links.filter fun link => !link.targetCardId.any (·.val.text = id))) {}
  | attached (attachment : WorkboardAttachment) :
    Amendment e w w' c { metadata := .object (withAttachment c.metadata attachment).raw } {}
  | claimed (may : e.claims c.id) (ownerId : Bounded 120) (token : Bounded 160) (now : Positive) (durationMs : ℕ) :
    Amendment e w w' c { metadata := .object { clearDiagnostics c.metadata [.strandedReady] with
      claim := some (newClaim ownerId token now durationMs) }.raw } {}
  | started (may : e.claims c.id) (agentId : NonBlank) :
    Amendment e w w' c { status := some (.member (statusOnClaim c.status)), agentId := agentId.raw } {}
  | promoted (now : ℕ) : Amendment e w w' c { status := some (.member (dependencyTargetStatus w' c now)) } {}

/-- A write that leaves the status and what the store keeps apart; the entry it logs is no move. -/
structure Records (c next : WorkboardCard) : Prop where
  id : next.id = c.id
  status : next.status = c.status
  position : next.position = c.position
  createdAt : next.createdAt = c.createdAt
  lifecycle : next.metadata.lifecycleStatusSourceUpdatedAt = c.metadata.lifecycleStatusSourceUpdatedAt
  scheduledAt : next.metadata.scheduledAt = c.metadata.scheduledAt
  claim : (∀ claim ∈ c.metadata.claim, claim.expiresAt.isSome = true) → next.metadata.claim = c.metadata.claim
  stale : next.metadata.stale = c.metadata.stale
  dependencies : c.metadata.links.length ≤ MAX_CARD_LINKS →
    next.metadata.links.filter (·.isDependencyLink) = c.metadata.links.filter (·.isDependencyLink)
  links : next.metadata.links.Sublist c.metadata.links
  attachments : next.metadata.attachments <:+ c.metadata.attachments
  notifications : next.metadata.notifications <:+ c.metadata.notifications
  events : next.events = c.events ∨ ∃ entry id now, next.events = appendEvent c entry id now ∧
    entry.kind ≠ .moved ∧ entry.kind ≠ .created

/-- A card that `create` made, before its parents are linked. -/
structure Created (e : Extent) (w : World) (card : WorkboardCard) : Prop where
  id : ∃ n, w.minted ≤ n ∧ card.id = uuid n
  made : ∃ cards input status automation held draw now, e.patches input ∧
    newCard cards input status automation held card.id draw now = .ok card

inductive Transition (e : Extent) : World → World → Prop
  | calm {w w' : World} (h : Calm w w') : Transition e w w'
  | amended {w w' left : World} {c next : WorkboardCard} {patch : WorkboardCardPatch} {options : UpdateOptions}
      (touched : e.touches c.id) (calm : Calm w w') (amendment : Amendment e w w' c patch options)
      (updated : Updated w' c patch options next left) : Transition e w left
  | recorded {w : World} {c next : WorkboardCard} (touched : e.touches c.id) (found : w.cards.get? c.id = some c)
      (records : Records c next) : Transition e w { w with cards := w.cards.put next }
  | created {w w' : World} {card : WorkboardCard} (touched : e.touches card.id) (calm : Calm w w')
      (new : Created e w card) : Transition e w { w' with cards := w'.cards.put card }
  | removed {w : World} {id : JsString} (touched : ∀ k : CardId, k.val.text = id → e.touches k) :
    Transition e w (deleteCardRow id w).2
  | registered {w : World} (id : NonBlank) (content : JsString) : Transition e w (registerAttachment id content w).2
  | dropped {w : World} (ids : List NonBlank) : Transition e w (w.without ids)
  | subscribed {w : World} (subscriptions : KeyedTable WorkboardNotificationSubscription.id) :
    Transition e w { w with subscriptions }

/-- A sequence of transitions; a card may also be written back as it was at some point since the start. -/
inductive Steps (e : Extent) (start : World) : World → Prop
  | refl : Steps e start start
  | step {w w' : World} (before : Steps e start w) (transition : Transition e w w') : Steps e start w'
  | restored {earlier w : World} {card : WorkboardCard} (then_ : Steps e start earlier) (known : card ∈ earlier.cards)
      (before : Steps e start w) : Steps e start { w with cards := w.cards.put card }

variable {e : Extent} {start w w' : World}

theorem Steps.calm (h : Steps e start w) (hcalm : Calm w w') : Steps e start w' := .step h (.calm hcalm)

theorem Steps.trans (h : Steps e start w) (h' : Steps e w w') : Steps e start w' := by
  induction h' with
  | refl => exact h
  | step _ transition ih => exact .step ih transition
  | restored _ known _ ihthen ih => exact .restored ihthen known ih

structure Invariant (e : Extent) (P : WorkboardCard → Prop) : Prop where
  updated : ∀ {w w' left : World} {c next : WorkboardCard} {patch : WorkboardCardPatch} {options : UpdateOptions},
    e.touches c.id → Calm w w' → Amendment e w w' c patch options → Updated w' c patch options next left → P c →
      P next
  recorded : ∀ {c next : WorkboardCard}, Records c next → P c → P next
  created : ∀ {w : World} {card : WorkboardCard}, Created e w card → P card
  dropped : ∀ {c : WorkboardCard} (ids : List NonBlank), P c → P (dropAttachments ids c)

theorem Steps.forall_cards {P : WorkboardCard → Prop} (hP : Invariant e P) (h : Steps e start w)
    (hstart : ∀ c ∈ start.cards, P c) : ∀ c ∈ w.cards, P c := by
  induction h with
  | refl => exact hstart
  | restored _ known _ ihthen ih => exact mem_put_of_forall ih (ihthen _ known)
  | step _ transition ih =>
    cases transition with
    | calm hcalm =>
      rw [hcalm.cards]
      exact ih
    | amended touched calm amendment updated =>
      obtain ⟨minted, -, rfl⟩ := updated.left
      have hfound := updated.found
      rw [calm.cards] at hfound
      have hnext := hP.updated touched calm amendment updated (ih _ (KeyedTable.get?_eq_some_iff.mp hfound).1)
      intro c hc
      obtain ⟨card, hcard, rfl⟩ := World.mem_without.mp hc
      refine hP.dropped _ (mem_put_of_forall ?_ hnext card hcard)
      rw [calm.cards]
      exact ih
    | recorded touched found records =>
      exact mem_put_of_forall ih (hP.recorded records (ih _ (KeyedTable.get?_eq_some_iff.mp found).1))
    | created touched calm new =>
      refine mem_put_of_forall ?_ (hP.created new)
      rw [calm.cards]
      exact ih
    | removed touched => exact fun c hc => ih c (mem_deleteCardRow hc)
    | registered id content => exact ih
    | dropped ids =>
      intro c hc
      obtain ⟨card, hcard, rfl⟩ := World.mem_without.mp hc
      exact hP.dropped ids (ih card hcard)
    | subscribed subscriptions => exact ih

variable {patch : WorkboardCardPatch} {options : UpdateOptions}

theorem Updated.board_of_ne {c next : WorkboardCard}
    (h : Updated w c patch options next w') {k : CardId} (hk : c.id ≠ k) : w'.board k = w.board k := by
  obtain ⟨minted, -, rfl⟩ := h.left
  obtain ⟨effective, draw, -, hnext, -⟩ := h.patched
  rw [board_without]
  exact board_put.trans (if_neg ((patchCard_spec hnext).id ▸ hk))

theorem Steps.frame (h : Steps e start w) {k : CardId} (hk : ¬e.touches k) : w.board k = start.board k := by
  have hne : ∀ {id : CardId}, e.touches id → id ≠ k := fun htouched heq => hk (heq ▸ htouched)
  induction h with
  | refl => rfl
  | @restored earlier w card _ known _ ihthen ih =>
    rw [board_put]
    split
    · rename_i hid
      rw [← ihthen, ← hid]
      exact (World.board_of_mem known).symm
    · exact ih
  | step _ transition ih =>
    cases transition with
    | calm hcalm => rw [hcalm.board, ih]
    | amended touched calm amendment updated =>
      rw [updated.board_of_ne (hne touched), calm.board, ih]
    | recorded touched found records => rw [board_put, if_neg (records.id ▸ hne touched), ih]
    | created touched calm new =>
      exact board_put.trans ((if_neg (hne touched)).trans ((congrFun calm.board k).trans ih))
    | removed touched => rw [board_deleteCardRow fun hid => hk (touched k hid), ih]
    | registered id content => exact ih
    | dropped ids => rw [board_without, ih]
    | subscribed subscriptions => exact ih

theorem Updated.written {c next : WorkboardCard}
    (h : Updated w c patch options next w') : next ∈ w'.cards ∧ next.id = c.id := by
  obtain ⟨minted, -, rfl⟩ := h.left
  obtain ⟨effective, draw, -, hnext, -⟩ := h.patched
  exact ⟨World.mem_without.mpr ⟨next, KeyedTable.mem_put.mpr (.inl rfl), dropAttachments_detached c next⟩,
    (patchCard_spec hnext).id⟩

theorem steps_updateCard {w1 : World} {id : JsString} (hsteps : Steps e start w) (hcalm : Calm w w1)
    (hamend : ∀ c, w1.card id = some c → e.touches c.id ∧ Amendment e w w1 c patch options) :
    (updateCard id patch options).Ensures w1
      (fun next left => Steps e start left ∧ left.card id = some next ∧ ∃ c, w1.card id = some c ∧
        ((effectivePatch c patch = none ∧ next = c ∧ left = w1) ∨ Updated w1 c patch options next left))
      (Steps e start) := by
  refine ensures_updateCard (fun _ => hsteps.calm hcalm) (fun c hc hnone => ?_) (fun w' h => ?_)
    (fun c next w' hc hupdated => ?_)
  · exact ⟨hsteps.calm hcalm, hc, c, hc, .inl ⟨hnone, rfl, rfl⟩⟩
  · exact hsteps.calm (hcalm.trans h)
  · obtain ⟨htouched, hamendment⟩ := hamend c hc
    obtain ⟨hmem, hid⟩ := hupdated.written
    refine ⟨.step hsteps (.amended htouched hcalm hamendment hupdated), ?_, c, hc, .inr hupdated⟩
    exact World.card_eq_some_iff.mpr ⟨hmem, hid ▸ (World.card_eq_some_iff.mp hc).2⟩

end ClawWorks.Workboard
