import ClawWorks.Workboard.Trace

/-!
# The operations as sequences of transitions

Every operation of the store is a sequence of transitions within its extent: what it may touch, whether it claims, which
patches its caller passes. An operation on behalf of a scope touches only cards that the scope may change, the cards it
makes and the cards that refer to these (`Reach`).
-/

namespace ClawWorks.Workboard

open Except World Mutation List

variable {α β : Type} {w : World}

/-! ## Steps that touch no table -/

/-- A step that touches no table; what it gives has `Q`. -/
def Quiet (p : Step α) (w : World) (Q : α → World → Prop) : Prop :=
  p.Ensures w (fun a w' => Calm w w' ∧ Q a w') (Calm w)

theorem Calm.ticked (w : World) : Calm w { w with reads := w.reads + 1 } := { Calm.refl w with reads := Nat.le_succ _ }

theorem Calm.drawn (w : World) (count : ℕ) : Calm w { w with minted := w.minted + count } :=
  { Calm.refl w with minted := Nat.le_add_right _ _ }

variable {Q : α → World → Prop}

theorem quiet_pure {a : α} (h : Q a w) : Quiet (pure a) w Q := ⟨.refl w, h⟩

variable {error : JsString}

theorem quiet_fail : Quiet (fail error) w Q := Calm.refl w

variable {result : Except JsString α}

theorem quiet_lift : Quiet (lift result) w fun a w' => result = .ok a ∧ w' = w :=
  ensures_lift_iff.mpr ⟨fun _ ha => ⟨.refl w, ha, rfl⟩, fun _ _ => .refl w⟩

theorem quiet_monadLift : Quiet (monadLift result : Step α) w fun a w' => result = .ok a ∧ w' = w := quiet_lift

theorem quiet_view {f : World → α} : Quiet (view f) w fun a w' => a = f w ∧ w' = w := ⟨.refl w, rfl, rfl⟩

variable {id : JsString}

theorem quiet_requireCard : Quiet (requireCard id) w fun c w' => w.card id = some c ∧ w' = w :=
  ensures_requireCard.mpr ⟨fun _ hc => ⟨.refl w, hc, rfl⟩, fun _ => .refl w⟩

variable {next : α → Step β} {p : Step α}

theorem Quiet.bind {P : α → World → Prop} {Q : β → World → Prop} (hp : Quiet p w P)
    (hnext : ∀ a w', Calm w w' → P a w' → Quiet (next a) w' Q) : Quiet (p >>= next) w Q :=
  ensures_bind_iff.mpr (hp.mono
    (fun a w' h => (hnext a w' h.1 h.2).mono (fun _ _ h' => ⟨h.1.trans h'.1, h'.2⟩) fun _ h' => h.1.trans h')
    fun _ h => h)

variable {scope : Option WorkboardMutationScope}

theorem quiet_requireMine : Quiet (requireMine id scope) w fun c w' =>
      w.card id = some c ∧ assertCanMutateClaimedCard c scope = .ok () ∧ w' = w :=
  quiet_requireCard.bind fun _ _ _ hc => quiet_lift.bind fun _ _ _ hmine =>
    quiet_pure ⟨hc.1, hmine.1, hmine.2.trans hc.2⟩

theorem quiet_nextNotificationSequence {now : ℕ} : Quiet (nextNotificationSequence now) w fun sequence w' =>
      w.lastNotificationSequence < sequence.val ∧ now * 1000 ≤ sequence.val ∧
        sequence.val ≤ w'.lastNotificationSequence :=
  ⟨{ Calm.refl w with sequence := (Nat.le_succ _).trans (le_max_left _ _) },
    lt_of_lt_of_le (Nat.lt_succ_self _) (le_max_left _ _), le_max_right _ _, le_rfl⟩

theorem Numbered.mono {w w' v v' : World} {n : WorkboardNotification} (h : Numbered w w' n) (hcalm : Calm v w)
    (hcalm' : Calm w' v') : Numbered v v' n := by
  obtain ⟨sequence, hmem, hlast, htime, hnext⟩ := h.numbered
  exact ⟨sequence, hmem, hcalm.sequence.trans_lt hlast, htime, hnext.trans hcalm'.sequence⟩

variable {e : Extent} {start w1 : World}

/-! ## Amendments -/

variable {now : Positive}

theorem normalizeLinkInput_ordinary {input : WorkboardLinkInput} {id : NonBlank} {link : WorkboardLink}
    (h : normalizeLinkInput input id now = .ok link) : link.isDependencyLink = false := by
  simp only [normalizeLinkInput, bind_eq_ok] at h
  obtain ⟨targetCardId, -, url, -, title, -, h⟩ := h
  split at h
  · split at h
    · cases h
    · rename_i hordinary
      obtain rfl := ok.inj h
      simpa [WorkboardLink.isDependencyLink] using hordinary
  · cases h

theorem bind_scheduledAt_present (a : WorkboardAutomation) : a.present.bind (·.scheduledAt) = a.scheduledAt := by
  unfold WorkboardAutomation.present
  split
  · rename_i hempty
    rw [hempty]
    rfl
  · rfl

theorem scheduledAt_normalizeAutomation [LowerCase] {record : RawAutomation}
    {old automation : Option WorkboardAutomation} (h : normalizeAutomation (some record) old = .ok automation)
    (hrecord : record.scheduledAt = (old.getD .empty).raw.scheduledAt) :
    automation.bind (·.scheduledAt) = old.bind (·.scheduledAt) := by
  simp only [normalizeAutomation, bind_eq_ok] at h
  obtain ⟨tenant, -, boardId, -, createdByCardId, -, idempotencyKey, -, summary, -, skills, -, createdCardIds, -,
    maxRuntimeSeconds, -, maxRetries, -, workspace, -, h⟩ := h
  obtain rfl := ok.inj h
  rw [bind_scheduledAt_present]
  dsimp only
  rw [hrecord]
  cases old with
  | none => rfl
  | some a =>
    show ownTimestamp (a.scheduledAt.map (rawNumber ·.val)) a.scheduledAt = a.scheduledAt
    cases a.scheduledAt with
    | none => rfl
    | some scheduledAt => simp [ownTimestamp, positive?, scheduledAt.property.ne']

def MayTouch (e : Extent) (w : World) (id : JsString) (scope : Option WorkboardMutationScope) : Prop :=
  ∀ c, w.card id = some c → assertCanMutateClaimedCard c scope = .ok () → e.touches c.id

variable {m : WorkboardMetadata} {c : WorkboardCard} {w' : World}

theorem amendment_of_metadata (hm : Amends w w' c m) : Amendment e w w' c { metadata := .object m.raw } {} :=
  .amended false m.raw.archivedAt rfl hm (.inl rfl) nofun

variable {patch : WorkboardCardPatch}

theorem amendment_of_status (hold : Bool) {status : WorkboardStatus} (hstatus : patch.status = some (.member status))
    (hmetadata : patch.metadata = .object m.raw) (hautomation : patch.automation = .none) (hm : Amends w w' c m)
    (hmay : hold ∨ e.forced ∨ status = c.status ∨ status.isActive = false) :
    Amendment e w w' c patch { enforceStatusHolds := hold } := by
  refine .amended hold m.raw.archivedAt hmetadata hm (.inl hautomation) fun value hvalue => ?_
  rw [hstatus] at hvalue
  exact ⟨status, (Option.some.inj hvalue).symm, hmay⟩

theorem Records.logged (c : WorkboardCard) {kind : WorkboardEventKind} (id : NonBlank) (now : ℕ)
    (hkind : kind ≠ .moved ∧ kind ≠ .created) : Records c (logged c kind id now) where
  id := rfl
  status := rfl
  position := rfl
  createdAt := rfl
  lifecycle := rfl
  scheduledAt := rfl
  claim _ := rfl
  stale := rfl
  dependencies _ := rfl
  links := List.Sublist.refl _
  attachments := suffix_rfl
  notifications := suffix_rfl
  events := .inr ⟨{ kind }, id, now, rfl, hkind⟩

theorem linkRefused_eq_ok {v : World} {parent child : WorkboardCard} {options : LinkOptions}
    (h : linkRefused v parent child options = .ok ()) :
    assertCanMutateClaimedCard parent options.scope = .ok () ∧
      assertCanMutateClaimedCard child options.scope = .ok () := by
  simp only [linkRefused, bind_eq_ok] at h
  obtain ⟨_, hparent, _, hchild, -⟩ := h
  exact ⟨hparent, hchild⟩

variable {card : WorkboardCard} {automation : Option WorkboardAutomation} {cards : List WorkboardCard}

theorem mem_of_idempotentMatch (h : idempotentMatch cards automation = some card) : card ∈ cards := by
  unfold idempotentMatch at h
  split at h
  · cases h
  · split at h
    · cases h
    · exact mem_of_find?_eq_some h

theorem mayTouch_of_touches (scope : Option WorkboardMutationScope) {k : CardId} (h : e.touches k) :
    MayTouch e w k.val.text scope := by
  intro c hc _
  obtain rfl : c.id = k := CardId.ext_text (by rw [(card_eq_some_iff.mp hc).2, k.val.trimmed])
  exact h

theorem rtake_eq_self {α : Type} {l : List α} {n : ℕ} (h : l.length ≤ n) : l.rtake n = l := by
  rw [rtake, Nat.sub_eq_zero_of_le h, drop_zero]

theorem ensures_discard {P : World → Prop} (h : p.Ensures w (fun _ => P) P) : p.discard.Ensures w (fun _ => P) P :=
  ensures_bind_iff.mpr h

variable [Platform]

theorem Records.trimmed (c : WorkboardCard) (diagnostics : List WorkboardDiagnostic) :
    Records c { c with metadata := trimMetadataToBudget { c.metadata with diagnostics } } :=
  let agrees := agrees_trim { c.metadata with diagnostics }
  { id := rfl
    status := rfl
    position := rfl
    createdAt := rfl
    lifecycle := agrees.lifecycle
    scheduledAt := congrArg (·.bind (·.scheduledAt)) agrees.automation
    claim := fun _ => agrees.claim
    stale := agrees.stale
    dependencies := fun _ => agrees.dependencies
    links := agrees.links
    attachments := agrees.attachments
    notifications := agrees.notifications
    events := .inl rfl }

theorem records_orchestration {logId : NonBlank} {protocol : WorkboardWorkerProtocol} {eventId : NonBlank} {now : ℕ}
    (hm : m = { withWorkerLog c.metadata (orchestrationLog logId now) with workerProtocol := some protocol }) :
    Records c (logged { c with metadata := trimMetadataToBudget m } .orchestration eventId now) := by
  subst hm
  have agrees := agrees_trim
    { withWorkerLog c.metadata (orchestrationLog logId now) with workerProtocol := some protocol }
  exact {
    id := rfl
    status := rfl
    position := rfl
    createdAt := rfl
    lifecycle := agrees.lifecycle
    scheduledAt := congrArg (·.bind (·.scheduledAt)) agrees.automation
    claim := fun _ => agrees.claim
    stale := agrees.stale
    dependencies := fun _ => agrees.dependencies
    links := agrees.links
    attachments := agrees.attachments
    notifications := agrees.notifications
    events := .inr ⟨{ kind := .orchestration }, eventId, now, rfl, by decide⟩ }

theorem records_dispatch {metadata : WorkboardMetadata} {draw : ℕ → NonBlank} {read now : ℕ} {eventId : NonBlank}
    (hautomation : dispatched c.metadata.automation now = .ok automation) (hmetadata :
      normalizeMetadata (.object { c.metadata with automation }.raw) c.metadata true draw read = .ok metadata) :
    Records c (logged { c with metadata := trimMetadataToBudget metadata } .dispatch eventId now) := by
  obtain ⟨base, hread, rfl⟩ := normalizeMetadata_object hmetadata
  have hspread := hread.spread
  have agrees := (agrees_trim base).trans (agrees_trim (trimMetadataToBudget base))
  have hsuffix : ∀ {β : Type} (l : List β) (n : ℕ), l.rtake n <:+ l := fun l n => drop_suffix _ l
  exact {
    id := rfl
    status := rfl
    position := rfl
    createdAt := rfl
    lifecycle := agrees.lifecycle.trans (hspread.lifecycle.trans Option.or_self)
    scheduledAt := by
      refine (congrArg (·.bind (·.scheduledAt)) agrees.automation).trans ?_
      have hkept := scheduledAt_normalizeAutomation hautomation rfl
      have hbase := hspread.automation
      cases automation with
      | none =>
        exact congrArg (fun automation : Option WorkboardAutomation => automation.bind (·.scheduledAt))
          (ok.inj hbase).symm
      | some a =>
        refine scheduledAt_normalizeAutomation hbase ?_
        have hsame : a.scheduledAt = (c.metadata.automation.getD .empty).scheduledAt := by
          cases hold : c.metadata.automation with
          | none | some old =>
            rw [hold] at hkept
            exact hkept
        exact congrArg (fun t : Option Positive => t.map (rawNumber ·.val)) hsame
    claim := fun hends => agrees.claim.trans (hspread.claim hends)
    stale := agrees.stale.trans hspread.stale
    dependencies := fun hlength => agrees.dependencies.trans (by rw [hspread.links, rtake_eq_self hlength])
    links := agrees.links.trans (hspread.links ▸ (hsuffix _ _).sublist)
    attachments := agrees.attachments.trans (hspread.attachments ▸ hsuffix _ _)
    notifications := agrees.notifications.trans (hspread.notifications ▸ hsuffix _ _)
    events := .inr ⟨{ kind := .dispatch }, eventId, now, rfl, by decide⟩ }


theorem quiet_dateNow : Quiet dateNow w fun now _ => now.val = clock w.reads := ⟨Calm.ticked w, rfl⟩

theorem quiet_randomUUID : Quiet randomUUID w fun id w' => id = uuid w.minted ∧ w.minted < w'.minted :=
  ⟨Calm.drawn w 1, rfl, Nat.lt_succ_self _⟩

theorem quiet_drawIds {count : ℕ} : Quiet (drawIds count) w fun _ _ => True := ⟨Calm.drawn w count, trivial⟩

theorem quiet_withNote {note : Option (Bounded 2000)} :
    Quiet (withNote m note now) w fun noted _ => ∃ comments, noted = { m with comments } := by
  unfold withNote
  split
  · exact quiet_pure ⟨m.comments, rfl⟩
  · exact quiet_randomUUID.bind fun id _ _ _ => quiet_pure ⟨_, rfl⟩

theorem quiet_notify {kind : WorkboardNotificationKind} {message : Bounded 240} {sessionKey runId : Option NonBlank}
    {now : ℕ} : Quiet (notify kind message sessionKey runId now) w fun n w' => Numbered w w' n :=
  quiet_randomUUID.bind fun _ _ hcalm _ => quiet_nextNotificationSequence.bind fun sequence _ _ h =>
    quiet_pure ⟨sequence, rfl, hcalm.sequence.trans_lt h.1, h.2⟩

theorem quiet_inputProof {input : Option WorkboardProofInput} : Quiet (inputProof input now) w fun _ _ => True := by
  unfold inputProof
  split
  · exact quiet_pure trivial
  · exact quiet_randomUUID.bind fun _ _ _ _ => quiet_monadLift.bind fun _ _ _ _ => quiet_pure trivial

theorem quiet_claimToken {token : Unknown} : Quiet (claimToken token) w fun _ w' => w'.reads = w.reads := by
  refine quiet_monadLift.bind fun given w' _ h => ?_
  obtain rfl := h.2
  cases given with
  | some token => exact quiet_pure rfl
  | none => exact ⟨Calm.drawn w' 1, rfl⟩

/-! ## Rules -/

/-- What an update leaves: the card under the id is the one it returned. -/
def Wrote (e : Extent) (start : World) (id : JsString) (next : WorkboardCard) (left : World) : Prop :=
  Steps e start left ∧ left.card id = some next

theorem Steps.bind {ok : β → World → Prop} (hsteps : Steps e start w) (hcalm : Calm w w1) (hp : Quiet p w1 Q)
    (hnext : ∀ a w2, Calm w w2 → Q a w2 → (next a).Ensures w2 ok (Steps e start)) :
    (p >>= next).Ensures w1 ok (Steps e start) :=
  ensures_bind_iff.mpr (hp.mono (fun a w2 h => hnext a w2 (hcalm.trans h.1) h.2)
    fun _ h => hsteps.calm (hcalm.trans h))

theorem Calm.steps (hcalm : Calm w w1) : Steps e w w1 := Steps.refl.calm hcalm

theorem Calm.bind {ok : β → World → Prop} (hcalm : Calm w w1) (hp : Quiet p w1 Q)
    (hnext : ∀ a w2, Calm w w2 → Q a w2 → (next a).Ensures w2 ok (Steps e w)) :
    (p >>= next).Ensures w1 ok (Steps e w) :=
  Steps.refl.bind hcalm hp hnext

section

variable (hsteps : Steps e start w)

include hsteps

section

variable (hcalm : Calm w w1)

include hcalm

variable {options : UpdateOptions}

theorem steps_update_board (hamend : ∀ c, w.card id = some c → e.touches c.id ∧ Amendment e w w1 c patch options) :
    (updateCard id patch options).Ensures w1 (fun next left => Wrote e start id next left ∧
      ∀ k : CardId, k.val.text ≠ trim id → left.board k = w.board k) (Steps e start) := by
  refine (steps_updateCard hsteps hcalm fun c hc => hamend c ((hcalm.card id).symm.trans hc)).mono
    (fun next left h => ⟨⟨h.1, h.2.1⟩, fun k hk => ?_⟩) fun _ h => h
  obtain ⟨c, hc, ⟨-, -, rfl⟩ | hupdated⟩ := h.2.2
  · rw [hcalm.board]
  · have hne : c.id ≠ k := fun hid => hk (by rw [← hid, (card_eq_some_iff.mp hc).2])
    rw [hupdated.board_of_ne hne, hcalm.board]

theorem steps_update (hamend : ∀ c, w.card id = some c → e.touches c.id ∧ Amendment e w w1 c patch options) :
    (updateCard id patch options).Ensures w1 (Wrote e start id) (Steps e start) :=
  (steps_update_board hsteps hcalm hamend).mono (fun _ _ h => h.1) fun _ h => h

theorem steps_updateFound
    (hcard : w.card id = some c) (htouch : e.touches c.id) (hamend : Amendment e w w1 c patch options) :
    (updateCard id patch options).Ensures w1 (Wrote e start id) (Steps e start) := by
  refine steps_update hsteps hcalm fun c' hc' => ?_
  obtain rfl := Option.mem_unique hcard hc'
  exact ⟨htouch, hamend⟩

theorem steps_updateOwn
    (hcard : w.card id = some c) (htouch : e.touches c.id) (hamend : Amendment e w w1 c patch options) :
    (updateCard c.id.val.text patch options).Ensures w1 (Wrote e start id) (Steps e start) :=
  (steps_updateFound hsteps hcalm ((card_of_card hcard).trans hcard) htouch hamend).mono
    (fun _ _ h => ⟨h.1, (card_of_card hcard).symm.trans h.2⟩) fun _ h => h

theorem steps_updateMetadata {mutate : WorkboardCard → Step RawMetadata}
    (hmutate : ∀ c w2, Calm w w2 → w.card id = some c → Quiet (mutate c) w2 fun record w3 =>
      e.touches c.id ∧ Amendment e w w3 c { metadata := .object record } {}) :
    (updateMetadata id mutate).Ensures w1 (Wrote e start id) (Steps e start) := by
  refine hsteps.bind hcalm quiet_requireCard fun c w2 hcalm2 hc => ?_
  have hcard : w.card id = some c := (hcalm.card id).symm.trans hc.1
  refine hsteps.bind hcalm2 (hmutate c w2 hcalm2 hcard) fun record w3 hcalm3 hamend => ?_
  refine steps_update hsteps hcalm3 fun c' hc' => ?_
  obtain rfl := Option.mem_unique hcard hc'
  exact hamend

theorem steps_addRecord {record : WorkboardCard → WorkboardMetadata}
    (hmay : MayTouch e w id scope) (hamends : ∀ c w', Amends w w' c (record c)) : (updateMetadata id fun c => do
      lift (assertCanMutateClaimedCard c scope)
      return (record c).raw).Ensures w1 (Wrote e start id) (Steps e start) :=
  steps_updateMetadata hsteps hcalm fun c _ _ hc => quiet_lift.bind fun _ _ _ hmine => quiet_pure
    ⟨hmay c hc hmine.1, amendment_of_metadata (hamends c _)⟩

end

end

theorem steps_addComment {body : Unknown}
    (hmay : MayTouch e w id scope) : (addComment id body scope).Ensures w (Wrote e w id) (Steps e w) := by
  refine (Calm.refl w).bind quiet_dateNow fun now w1 hcalm _ => ?_
  refine hcalm.bind quiet_monadLift fun body w2 hcalm _ => ?_
  cases body with
  | none => exact hcalm.steps
  | some body =>
    refine hcalm.bind quiet_randomUUID fun commentId w3 hcalm _ => ?_
    exact steps_addRecord .refl hcalm hmay fun c _ => { Amends.refl _ _ c with links := rfl }

theorem steps_addLink {input : WorkboardLinkInput} (htouch : ∀ c, w.card id = some c → e.touches c.id) :
    (addLink id input).Ensures w (Wrote e w id) (Steps e w) := by
  refine (Calm.refl w).bind quiet_dateNow fun now w1 hcalm _ => ?_
  refine hcalm.bind quiet_randomUUID fun linkId w2 hcalm _ => ?_
  refine hcalm.bind quiet_monadLift fun link w3 hcalm hlink => ?_
  refine steps_updateMetadata .refl hcalm fun c w4 _ hc => ?_
  refine quiet_monadLift.bind fun links w5 _ hlinks => quiet_pure ⟨htouch c hc, ?_⟩
  exact .linked (normalizeLinkInput_ordinary hlink.1) hlinks.1

section

variable (hmay : MayTouch e w id scope)

include hmay

theorem steps_addProof {input : WorkboardProofInput} : (addProof id input scope).Ensures w (Wrote e w id)
    (Steps e w) := by
  refine (Calm.refl w).bind quiet_dateNow fun now w1 hcalm _ => ?_
  refine hcalm.bind quiet_randomUUID fun proofId w2 hcalm _ => ?_
  refine hcalm.bind quiet_monadLift fun proof w3 hcalm _ => ?_
  exact steps_addRecord .refl hcalm hmay fun c _ => { Amends.refl _ _ c with links := rfl }

theorem steps_addProofWithArtifact {proof : WorkboardProofInput} {artifact : RawArtifact} :
    (addProofWithArtifact id proof artifact scope).Ensures w (Wrote e w id) (Steps e w) := by
  refine (Calm.refl w).bind quiet_dateNow fun now w1 hcalm _ => ?_
  refine hcalm.bind quiet_randomUUID fun proofId w2 hcalm _ => ?_
  refine hcalm.bind quiet_monadLift fun proof w3 hcalm _ => ?_
  refine hcalm.bind quiet_randomUUID fun artifactId w4 hcalm _ => ?_
  refine hcalm.bind quiet_monadLift fun artifact w5 hcalm _ => ?_
  exact steps_addRecord .refl hcalm hmay fun c _ => { Amends.refl _ _ c with links := rfl }

theorem steps_addArtifact {input : RawArtifact} : (addArtifact id input scope).Ensures w (Wrote e w id)
    (Steps e w) := by
  refine (Calm.refl w).bind quiet_dateNow fun now w1 hcalm _ => ?_
  refine hcalm.bind quiet_randomUUID fun artifactId w2 hcalm _ => ?_
  refine hcalm.bind quiet_monadLift fun artifact w3 hcalm _ => ?_
  exact steps_addRecord .refl hcalm hmay fun c _ => { Amends.refl _ _ c with links := rfl }

theorem steps_addWorkerLog {input : WorkboardWorkerLogInput} :
    (addWorkerLog id input scope).Ensures w (Wrote e w id) (Steps e w) := by
  refine (Calm.refl w).bind quiet_dateNow fun now w1 hcalm _ => ?_
  refine hcalm.bind quiet_monadLift fun message w2 hcalm _ => ?_
  cases message with
  | none => exact hcalm.steps
  | some message =>
    refine hcalm.bind quiet_lift fun sessionKey w3 hcalm _ => ?_
    refine hcalm.bind quiet_lift fun runId w4 hcalm _ => ?_
    refine hcalm.bind quiet_randomUUID fun logId w5 hcalm _ => ?_
    exact steps_addRecord .refl hcalm hmay fun c _ => { Amends.refl _ _ c with links := rfl }

end

variable {ok : WorkboardCard → World → Prop}

theorem steps_deleteAndFail {id : NonBlank}
    (hsteps : Steps e start w) : (deleteAndFail id error).Ensures w ok (Steps e start) :=
  ensures_bind_iff.mpr (.step hsteps (.dropped [id]))

theorem steps_addAttachment {input : WorkboardAttachmentInput} (hmay : MayTouch e w id scope) :
    (addAttachment id input scope).Ensures w (fun _ => Steps e w) (Steps e w) := by
  refine (Calm.refl w).bind quiet_requireMine fun existing w1 hcalm hmine => ?_
  refine hcalm.bind quiet_dateNow fun now w2 hcalm _ => ?_
  refine hcalm.bind quiet_randomUUID fun attachmentId w3 hcalm _ => ?_
  refine hcalm.bind quiet_monadLift fun stored w4 hcalm _ => ?_
  refine ensures_bind_iff.mpr ?_
  show (recover _ _).Ensures (registerAttachment stored.1.id stored.2 w4).2 _ _
  have hregistered : Steps e w (registerAttachment stored.1.id stored.2 w4).2 := .step hcalm.steps (.registered _ _)
  refine ensures_recover (C := Steps e w) ?_ fun error w5 hsteps5 => steps_deleteAndFail hsteps5
  refine ensures_bind (steps_update hregistered (.refl _) fun c hc => ?_) fun updated w5 hwrote => ?_
  · obtain rfl := Option.some.inj ((hcalm.card id).symm.trans hc |>.symm.trans hmine.1)
    exact ⟨hmay _ hmine.1 hmine.2.1, .attached _⟩
  · split
    · exact hwrote.1
    · exact steps_deleteAndFail hwrote.1

theorem steps_deleteAttachment {cardId attachmentId : JsString} (hmay : MayTouch e w cardId scope) :
    (deleteAttachment cardId attachmentId scope).Ensures w (fun _ => Steps e w) (Steps e w) := by
  refine (Calm.refl w).bind quiet_requireMine fun existing w1 hcalm hmine => ?_
  obtain ⟨hexisting, hassert, rfl⟩ := hmine
  cases existing.metadata.attachments.find? (·.id.text = attachmentId) with
  | none => exact .refl
  | some attachment =>
    refine ensures_bind_iff.mpr ?_
    show (updateCard _ _ _).Ensures (w1.without [attachment.id]) _ _
    refine (steps_update (.step .refl (.dropped [attachment.id])) (.refl _) fun c hc => ?_).mono
      (fun _ _ h => h.1) fun _ h => h
    have hsame : c = dropAttachments [attachment.id] existing := by
      obtain ⟨hmem, hid⟩ := card_eq_some_iff.mp hc
      obtain ⟨card, hcard, rfl⟩ := mem_without.mp hmem
      rw [Option.mem_unique (card_eq_some_iff.mpr ⟨hcard, hid⟩) hexisting]
    rw [hsame]
    exact ⟨hmay existing hexisting hassert, amendment_of_metadata (.refl _ _ _)⟩

theorem steps_promoteDependencyReady {now : ℕ} (hsteps : Steps e start w) (hcalm : Calm w w1)
    (htouch : ∀ c, w.card id = some c → e.touches c.id) :
    (promoteDependencyReady id now).Ensures w1 (Wrote e start id) (Steps e start) := by
  refine hsteps.bind hcalm quiet_requireCard fun card w2 hcalm2 hcard => ?_
  obtain ⟨hcard, rfl⟩ := hcard
  refine hsteps.bind hcalm2 quiet_view fun target w3 hcalm3 htarget => ?_
  obtain ⟨rfl, rfl⟩ := htarget
  split
  · exact ⟨hsteps.calm hcalm, hcard⟩
  · have hcard := (hcalm.card id).symm.trans hcard
    exact steps_updateOwn hsteps hcalm hcard (htouch _ hcard) (.promoted now)

theorem steps_claim {input : WorkboardClaimInput}
    (htouch : ∀ k : CardId, k.val.text = trim id → e.touches k ∧ e.claims k) :
    (claim id input).Ensures w (fun result => Wrote e w id result.1) (Steps e w) := by
  refine (Calm.refl w).bind quiet_monadLift fun ownerId w1 hcalm _ => ?_
  cases ownerId with
  | none => exact hcalm.steps
  | some ownerId =>
    refine hcalm.bind quiet_claimToken fun token w2 hcalm _ => ?_
    refine hcalm.bind quiet_dateNow fun now w3 hcalm _ => ?_
    refine ensures_bind (steps_promoteDependencyReady .refl hcalm fun c hc =>
      (htouch c.id (card_eq_some_iff.mp hc).2).1) fun guarded w4 hguarded => ?_
    have htouched : ∀ {w : World} {c : WorkboardCard}, w.card id = some c → e.touches c.id ∧ e.claims c.id :=
      fun hc => htouch _ (card_eq_some_iff.mp hc).2
    refine hguarded.1.bind (.refl w4) quiet_lift fun _ w5 hcalm5 _ => ?_
    refine ensures_bind (steps_updateFound hguarded.1 hcalm5 hguarded.2 (htouched hguarded.2).1
      (.claimed (htouched hguarded.2).2 _ _ _ _)) fun card w6 hcard => ?_
    exact ensures_bind (steps_updateOwn hcard.1 (.refl w6) hcard.2 (htouched hcard.2).1
      (.started (htouched hcard.2).2 _)) fun next w7 hnext => hnext

theorem steps_heartbeat {input : WorkboardHeartbeatInput} (htouch : ∀ c, w.card id = some c → e.touches c.id) :
    (heartbeat id input).Ensures w (Wrote e w id) (Steps e w) := by
  refine (Calm.refl w).bind quiet_monadLift fun note w1 hcalm _ => ?_
  refine steps_updateMetadata .refl hcalm fun c w2 _ hc => ?_
  cases hclaim : c.metadata.claim with
  | none => exact quiet_fail
  | some held =>
    refine quiet_dateNow.bind fun read w3 _ _ => quiet_lift.bind fun _ w4 _ _ =>
      quiet_withNote.bind fun noted w5 _ h => ?_
    obtain ⟨comments, rfl⟩ := h
    have hlater : held.lastHeartbeatAt.val < (beatTime held read).val :=
      lt_of_lt_of_le (Nat.lt_succ_self _) (le_max_right _ _)
    exact quiet_pure ⟨htouch c hc, amendment_of_metadata
      { Amends.refl _ _ c with claim := .inr (.inr ⟨held, _, hclaim, hlater, rfl⟩) }⟩

theorem steps_releaseClaim {input : WorkboardReleaseInput} (htouch : ∀ c, w.card id = some c → e.touches c.id) :
    (releaseClaim id input).Ensures w (Wrote e w id) (Steps e w) := by
  refine (Calm.refl w).bind quiet_requireCard fun existing w1 hcalm hexisting => ?_
  refine hcalm.bind quiet_monadLift fun status w2 hcalm hstatus => ?_
  refine hcalm.bind quiet_lift fun _ w3 hcalm _ => ?_
  refine steps_updateFound .refl hcalm hexisting.1 (htouch _ hexisting.1)
    (amendment_of_status _ rfl rfl rfl { Amends.refl _ _ _ with claim := .inr (.inl rfl) } ?_)
  cases hinput : input.status with
  | some value => exact .inl rfl
  | none =>
    rw [hinput] at hstatus
    exact .inr (.inr (.inl (ok.inj hstatus.1).symm))

theorem steps_recordProtocolViolation {input : WorkboardProtocolViolationInput} (hmay : MayTouch e w id scope) :
    (recordProtocolViolation id input scope).Ensures w (Wrote e w id) (Steps e w) := by
  refine (Calm.refl w).bind quiet_requireMine fun card w1 hcalm hmine => ?_
  refine hcalm.bind quiet_dateNow fun now w2 hcalm _ => ?_
  refine hcalm.bind quiet_monadLift fun detail w3 hcalm _ => ?_
  refine hcalm.bind quiet_monadLift fun sessionKey w4 hcalm _ => ?_
  refine hcalm.bind quiet_monadLift fun runId w5 hcalm _ => ?_
  refine hcalm.bind quiet_randomUUID fun logId w6 hcalm6 _ => ?_
  refine hcalm6.bind quiet_notify fun notification w7 hcalm hnumbered => ?_
  refine steps_updateOwn .refl hcalm hmine.1 (hmay _ hmine.1 hmine.2.1) (amendment_of_status false rfl rfl rfl
    { Amends.refl w w7 card with
      claim := .inr (.inl rfl)
      notifications := .inr ⟨_, hnumbered.mono hcalm6 (.refl _), rfl⟩ } ?_)
  split
  · exact .inr (.inr (.inl rfl))
  · exact .inr (.inr (.inr rfl))

theorem steps_completeDirect {input : WorkboardCompleteInput}
    {scope : Option (Option WorkboardMutationScope)} (hsteps : Steps e start w)
    (hmay : MayTouch e w id (scopeOr scope ⟨input.ownerId, input.token⟩)) :
    (completeDirect id input scope).Ensures w (Wrote e start id) (Steps e start) := by
  refine hsteps.bind (.refl w) quiet_requireMine fun existing w1 hcalm hmine => ?_
  refine hsteps.bind hcalm quiet_dateNow fun now w2 hcalm _ => ?_
  refine hsteps.bind hcalm quiet_lift fun createdCardIds w3 hcalm _ => ?_
  refine hsteps.bind hcalm quiet_view fun created w4 hcalm _ => ?_
  refine hsteps.bind hcalm quiet_lift fun _ w5 hcalm _ => ?_
  refine hsteps.bind hcalm quiet_monadLift fun summary w6 hcalm _ => ?_
  refine hsteps.bind hcalm quiet_inputProof fun proof w7 hcalm _ => ?_
  refine hsteps.bind hcalm quiet_drawIds fun draw w8 hcalm _ => ?_
  refine hsteps.bind hcalm quiet_lift fun artifacts w9 hcalm9 _ => ?_
  refine hsteps.bind hcalm9 quiet_notify fun notification w10 hcalm hnumbered => ?_
  have hnumbered := hnumbered.mono hcalm9 (.refl w10)
  refine ensures_bind_iff.mpr (quiet_lift.mono (fun automation w11 hautomation => ?_)
    fun _ h => hsteps.calm (hcalm.trans h))
  refine ensures_bind_iff.mpr (quiet_withNote.mono (fun noted w12 hnoted => ?_)
    fun _ h => hsteps.calm ((hcalm.trans hautomation.1).trans h))
  obtain ⟨comments, rfl⟩ := hnoted.2
  refine steps_updateFound hsteps ((hcalm.trans hautomation.1).trans hnoted.1) hmine.1 (hmay _ hmine.1 hmine.2.1)
    (amendment_of_status _ rfl rfl rfl ?_ (.inl rfl))
  cases proof with
  | none | some proof =>
    exact { Amends.refl w w12 existing with
      claim := .inr (.inl rfl)
      scheduledAt := scheduledAt_normalizeAutomation hautomation.2.1 rfl
      notifications := .inr ⟨_, hnumbered.mono (.refl w) (hautomation.1.trans hnoted.1), rfl⟩ }

theorem steps_block {input : WorkboardBlockInput} {scope : Option (Option WorkboardMutationScope)}
    (hmay : MayTouch e w id (scopeOr scope ⟨input.ownerId, input.token⟩)) :
    (block id input scope).Ensures w (Wrote e w id) (Steps e w) := by
  refine (Calm.refl w).bind quiet_requireMine fun existing w1 hcalm hmine => ?_
  refine hcalm.bind quiet_dateNow fun now w2 hcalm _ => ?_
  refine hcalm.bind quiet_monadLift fun reason w3 hcalm3 _ => ?_
  refine hcalm3.bind quiet_notify fun notification w4 hcalm4 hnumbered => ?_
  have hnumbered := hnumbered.mono hcalm3 (.refl w4)
  refine ensures_bind_iff.mpr (quiet_withNote.mono (fun noted w5 hnoted => ?_) fun _ h => Calm.steps (hcalm4.trans h))
  obtain ⟨comments, rfl⟩ := hnoted.2
  exact steps_updateFound .refl (hcalm4.trans hnoted.1) hmine.1 (hmay _ hmine.1 hmine.2.1)
    (amendment_of_status false rfl rfl rfl
      { Amends.refl w w5 existing with
        claim := .inr (.inl rfl)
        notifications := .inr ⟨_, hnumbered.mono (.refl w) hnoted.1, rfl⟩ } (.inr (.inr (.inr rfl))))

section

variable (hmay : MayTouch e w id scope)

include hmay

theorem steps_unblock : (unblock id scope).Ensures w (Wrote e w id) (Steps e w) := by
  refine (Calm.refl w).bind quiet_requireMine fun existing w1 hcalm hmine => ?_
  exact steps_updateFound .refl hcalm hmine.1 (hmay _ hmine.1 hmine.2.1) (amendment_of_status _ rfl rfl rfl
    { Amends.refl _ _ existing with stale := .inr rfl } (.inr (.inr (.inr rfl))))

theorem steps_promote {force : Bool} {reason : Unknown} (hforce : force → e.forced) :
    (promote id force reason scope).Ensures w (Wrote e w id) (Steps e w) := by
  refine (Calm.refl w).bind quiet_requireMine fun existing w1 hcalm hmine => ?_
  refine hcalm.bind quiet_monadLift fun reason w2 hcalm _ => ?_
  refine hcalm.bind quiet_dateNow fun now w3 hcalm _ => ?_
  refine hcalm.bind quiet_withNote fun noted w4 hcalm hnoted => ?_
  obtain ⟨comments, rfl⟩ := hnoted
  refine steps_updateFound .refl hcalm hmine.1 (hmay _ hmine.1 hmine.2.1) (amendment_of_status _ rfl rfl rfl
    { Amends.refl _ _ existing with stale := .inr rfl } ?_)
  cases force with
  | false => exact .inl rfl
  | true => exact .inr (.inl (hforce rfl))

theorem steps_reassign {input : WorkboardReassignInput} : (reassign id input scope).Ensures w (Wrote e w id)
    (Steps e w) := by
  refine (Calm.refl w).bind quiet_requireMine fun existing w1 hcalm hmine => ?_
  refine hcalm.bind quiet_monadLift fun status w2 hcalm _ => ?_
  refine hcalm.bind quiet_monadLift fun reason w3 hcalm _ => ?_
  refine hcalm.bind quiet_dateNow fun now w4 hcalm _ => ?_
  refine hcalm.bind quiet_withNote fun noted w5 hcalm hnoted => ?_
  obtain ⟨comments, rfl⟩ := hnoted
  refine steps_updateFound .refl hcalm hmine.1 (hmay _ hmine.1 hmine.2.1)
    (amendment_of_status _ rfl rfl rfl ?_ (.inl rfl))
  split
  · exact { Amends.refl _ _ existing with links := rfl }
  · exact { Amends.refl _ _ existing with links := rfl }

theorem steps_reclaim {input : WorkboardReclaimInput} : (reclaim id input scope).Ensures w (fun _ => Steps e w)
    (Steps e w) := by
  refine (Calm.refl w).bind quiet_requireMine fun existing w1 hcalm hmine => ?_
  refine hcalm.bind quiet_dateNow fun now w2 hcalm _ => ?_
  refine hcalm.bind quiet_monadLift fun reason w3 hcalm _ => ?_
  refine hcalm.bind quiet_lift fun targetStatus w4 hcalm _ => ?_
  refine hcalm.bind quiet_withNote fun noted w5 hcalm hnoted => ?_
  obtain ⟨comments, rfl⟩ := hnoted
  refine ensures_bind (steps_updateFound .refl hcalm hmine.1 (hmay _ hmine.1 hmine.2.1) ?_)
    fun reclaimed w6 hreclaimed => ?_
  · exact amendment_of_status _ rfl rfl rfl
      { Amends.refl _ _ existing with claim := .inr (.inl rfl), stale := .inr rfl } (.inl rfl)
  · refine (steps_promoteDependencyReady hreclaimed.1 (.refl w6) fun c hc => ?_).mono (fun _ _ h => h.1) fun _ h => h
    have hid : c.id = existing.id := CardId.ext_text (by
      rw [card_of_card hreclaimed.2] at hc
      rw [(card_eq_some_iff.mp hc).2, (card_eq_some_iff.mp hmine.1).2])
    rw [hid]
    exact hmay _ hmine.1 hmine.2.1

end

theorem steps_archive {shouldArchive : Bool} (hsteps : Steps e start w)
    (htouch : ∀ c, w.card id = some c → e.touches c.id) :
    (archive id shouldArchive).Ensures w (Wrote e start id) (Steps e start) :=
  steps_updateMetadata hsteps (.refl w) fun c _ _ hc => quiet_dateNow.bind fun _ _ _ _ =>
    quiet_pure ⟨htouch c hc, .amended false _ rfl (.refl _ _ c) (.inl rfl) nofun⟩

theorem steps_registerCard {c next : WorkboardCard} (hsteps : Steps e start w)
    (hcard : w.card id = some c) (htouch : e.touches c.id) (records : Records c next) :
    (registerCard next).Ensures w (fun _ left => Steps e start left ∧ left.card id = some next) (Steps e start) := by
  obtain ⟨hmem, hid⟩ := card_eq_some_iff.mp hcard
  refine ensures_registerCard.mpr ⟨fun _ => ⟨.step hsteps (.recorded htouch (KeyedTable.mem_iff_get?.mp hmem) records),
    card_eq_some_iff.mpr ⟨KeyedTable.mem_put.mpr (.inl rfl), ?_⟩⟩, fun _ => hsteps⟩
  rw [records.id, hid]

variable {input : WorkboardCardPatch}

theorem steps_specify {summary : Unknown} (hmay : MayTouch e w id scope) :
    (specify id input summary scope).Ensures w (Wrote e w id) (Steps e w) := by
  refine (Calm.refl w).bind quiet_requireMine fun existing w1 hcalm hmine => ?_
  split
  · exact hcalm.steps
  refine hcalm.bind quiet_lift fun requestedStatus w2 hcalm _ => ?_
  split
  · exact hcalm.steps
  refine hcalm.bind quiet_dateNow fun now w3 hcalm _ => ?_
  refine hcalm.bind quiet_monadLift fun summary w4 hcalm _ => ?_
  refine hcalm.bind quiet_withNote fun noted w5 hcalm hnoted => ?_
  obtain ⟨comments, rfl⟩ := hnoted
  refine hcalm.bind quiet_lift fun automation w6 hcalm hautomation => ?_
  refine ensures_bind (steps_update .refl hcalm fun c hc => ?_) fun updated w7 hupdated => ?_
  · obtain rfl := Option.mem_unique hmine.1 hc
    refine ⟨hmay _ hmine.1 hmine.2.1, .amended true existing.metadata.raw.archivedAt
      (m := { existing.metadata with comments, automation }) rfl
      { Amends.refl _ _ existing with scheduledAt := ?_ } (.inr rfl) fun value hvalue => ?_⟩
    · exact scheduledAt_normalizeAutomation hautomation.1 rfl
    · exact ⟨.todo, (Option.some.inj hvalue).symm, .inl rfl⟩
  · have htouched : e.touches updated.id := by
      have hid : updated.id = existing.id := CardId.ext_text (by
        rw [(card_eq_some_iff.mp hupdated.2).2, (card_eq_some_iff.mp hmine.1).2])
      rw [hid]
      exact hmay _ hmine.1 hmine.2.1
    refine hupdated.1.bind (.refl w7) quiet_randomUUID fun eventId w8 hcalm8 _ => ?_
    exact ensures_bind (steps_registerCard (hupdated.1.calm hcalm8) ((hcalm8.card id).trans hupdated.2)
      htouched (.logged updated _ _ (by decide))) fun _ w9 h => h

theorem quiet_linkedTo {card other : WorkboardCard} {type : WorkboardLinkType} :
    Quiet (linkedTo card other type now) w fun links _ => links = card.metadata.links ∨
      ∃ id now, appendLinkPreservingDependencies card.metadata.links (dependencyLink id type other.id now) =
        .ok links := by
  unfold linkedTo
  split
  · exact quiet_pure (.inl rfl)
  · refine quiet_randomUUID.bind fun id _ _ _ => ?_
    exact quiet_monadLift.mono (fun _ _ h => ⟨h.1, .inr ⟨_, _, h.2.1⟩⟩) fun _ h => h

variable {parentId childId : JsString}

theorem steps_linkCardsDirect {options : LinkOptions}
    (hsteps : Steps e start w) (hparent : MayTouch e w parentId options.scope)
    (hchild : MayTouch e w childId options.scope) :
    (linkCardsDirect parentId childId now options).Ensures w (Wrote e start childId) (Steps e start) := by
  unfold linkCardsDirect
  split
  · exact hsteps
  rename_i hdiffer
  refine hsteps.bind (.refl w) quiet_requireCard fun parent w1 hcalm hp => ?_
  obtain ⟨hp, rfl⟩ := hp
  refine hsteps.bind hcalm quiet_requireCard fun child w2 hcalm hc => ?_
  obtain ⟨hc, rfl⟩ := hc
  refine hsteps.bind hcalm quiet_view fun refused w3 hcalm hrefused => ?_
  refine hsteps.bind hcalm quiet_lift fun _ w4 hcalm hok => ?_
  obtain ⟨hmineParent, hmineChild⟩ := linkRefused_eq_ok (hrefused.1.symm.trans hok.1)
  refine hsteps.bind hcalm quiet_linkedTo fun nextParentLinks w5 hcalm hparentLinks => ?_
  refine hsteps.bind hcalm quiet_linkedTo fun nextChildLinks w6 hcalm hchildLinks => ?_
  refine ensures_bind (steps_update_board hsteps hcalm fun c hfound => ?_) fun nextParent w7 hw7 => ?_
  · obtain rfl := Option.mem_unique hp ((card_of_card hp).symm.trans hfound)
    exact ⟨hparent _ hp hmineParent, .dependency rfl (.inr rfl) hparentLinks⟩
  obtain ⟨hparentWrote, hothers⟩ := hw7
  have hne : child.id.val.text ≠ trim parent.id.val.text := by
    rw [parent.id.val.trimmed, (card_eq_some_iff.mp hp).2, (card_eq_some_iff.mp hc).2]
    exact fun h => hdiffer h.symm
  refine ensures_bind (steps_update hparentWrote.1 (.refl w7) fun c hfound => ?_) fun nextChild w8 hw8 => ?_
  · have hsame := core_of_board ((hothers child.id hne).trans (board_of_card hc)) hfound
    have hlinks : child.metadata.links = c.metadata.links := congrArg (·.metadata.links) hsame
    have hid : child.id = c.id := congrArg (·.id) hsame
    rw [hlinks] at hchildLinks
    exact ⟨hid ▸ hchild _ hc hmineChild, .dependency hsame (.inl rfl) hchildLinks⟩
  have hwrote : w8.card childId = some nextChild := (card_of_card hc).symm.trans hw8.2
  refine hw8.1.bind (.refl w8) quiet_dateNow fun promotedAt w9 hcalm _ => ?_
  refine (steps_promoteDependencyReady hw8.1 hcalm fun c hfound => ?_).mono (fun _ _ h =>
    ⟨h.1, (card_of_card hwrote).symm.trans h.2⟩) fun _ h => h
  have hid : c.id = child.id := CardId.ext_text (by
    rw [(card_eq_some_iff.mp ((card_of_card hwrote).symm.trans hfound)).2, (card_eq_some_iff.mp hc).2])
  rw [hid]
  exact hchild _ hc hmineChild

def Refers (card : WorkboardCard) (id : JsString) : Prop :=
  ∃ link ∈ card.metadata.links, ∃ target ∈ link.targetCardId, target.val.text = id

theorem steps_removeReferences (hnodup : (cards.map (·.id)).Nodup)
    (hboard : ∀ card ∈ cards, w.board card.id = some card.core)
    (htouch : ∀ card ∈ cards, Refers card id → e.touches card.id) (hsteps : Steps e start w) :
    (forEach (removeReferences id) cards).Ensures w (fun _ => Steps e start) (Steps e start) := by
  induction cards generalizing w with
  | nil => exact hsteps
  | cons card cards ih =>
    obtain ⟨hcard, hcards⟩ := forall_mem_cons.mp hboard
    obtain ⟨hmay, hmays⟩ := forall_mem_cons.mp htouch
    rw [map_cons, nodup_cons] at hnodup
    refine ensures_bind (Q := fun _ left => Steps e start left ∧
      ∀ c ∈ cards, left.board c.id = some c.core) ?_ fun _ w1 h => ih hnodup.2 h.2 hmays h.1
    unfold removeReferences
    split
    · rename_i hrefers
      have hrefers : Refers card id := by
        simp only [any_eq_true, Option.any_eq_true, decide_eq_true_eq] at hrefers
        exact hrefers
      refine ensures_bind (steps_update_board hsteps (.refl w) fun c hc => ?_) fun _ w1 h => ⟨h.1.1, fun c hc => ?_⟩
      · have hsame := core_of_board hcard hc
        have hlinks : card.metadata.links = c.metadata.links := congrArg (·.metadata.links) hsame
        have hid : card.id = c.id := congrArg (·.id) hsame
        rw [hlinks]
        exact ⟨hid ▸ hmay hrefers, .unreferenced hsame id⟩
      · rw [h.2 c.id, hcards c hc]
        rw [card.id.val.trimmed]
        exact fun hid => hnodup.1 (CardId.ext_text hid ▸ mem_map_of_mem hc)
    · exact ⟨hsteps, hcards⟩

theorem steps_removeReferencesToCard (htouch : ∀ card ∈ w.cards, Refers card id → e.touches card.id)
    (hsteps : Steps e start w) : (removeReferencesToCard id).Ensures w (fun _ => Steps e start) (Steps e start) := by
  refine hsteps.bind (.refl w) quiet_view fun cards w1 hcalm hcards => ?_
  obtain ⟨rfl, rfl⟩ := hcards
  have hmem : ∀ card ∈ w1.list none, card ∈ w1.cards := fun card hcard => w1.list_none_perm.mem_iff.mp hcard
  refine steps_removeReferences ?_ (fun card hcard => board_of_mem (hmem card hcard))
    (fun card hcard => htouch card (hmem card hcard)) hsteps
  exact (w1.list_none_perm.map _).nodup_iff.mpr w1.cards.nodup

/-! ## Creation and deletion -/

theorem steps_deleteCardRow (hremoved : ∀ k : CardId, k.val.text = id → e.touches k) (hsteps : Steps e start w) :
    (deleteCardRow id).Ensures w (fun _ left => Steps e start left ∧ ∀ c ∈ left.cards, c ∈ w.cards)
      (Steps e start) := by
  have hdeleted : Steps e start (deleteCardRow id w).2 := .step hsteps (.removed hremoved)
  refine (ensures_of_after (P := fun left => Steps e start left ∧ ∀ c ∈ left.cards, c ∈ w.cards)
    ⟨hdeleted, fun c hc => mem_deleteCardRow hc⟩).mono (fun _ _ h => h) fun _ h => h.1

theorem steps_deleteDirect (hremoved : ∀ k : CardId, k.val.text = trim id → e.touches k)
    (htouch : ∀ card ∈ w.cards, Refers card (trim id) → e.touches card.id) (hsteps : Steps e start w) :
    (deleteDirect id).Ensures w (fun _ => Steps e start) (Steps e start) := by
  refine ensures_bind (steps_deleteCardRow hremoved hsteps) fun deleted w1 hdeleted => ?_
  cases deleted with
  | false => exact hdeleted.1
  | true =>
    refine ensures_bind_iff.mpr (ensures_change_iff.mpr ?_)
    exact ensures_bind (steps_removeReferencesToCard (fun card hcard => htouch card (hdeleted.2 card hcard))
      (.step hdeleted.1 (.subscribed _))) fun _ _ h => h

/-- What an operation on behalf of a scope may touch. -/
structure Reach (e : Extent) (start : World) (scope : Option WorkboardMutationScope) : Prop where
  mine : ∀ {w : World}, Steps e start w → ∀ id, MayTouch e w id scope
  fresh : ∀ n, start.minted ≤ n → e.touches (uuid n)
  linked : ∀ {w : World} {n : ℕ}, Steps e start w → start.minted ≤ n → ∀ card ∈ w.cards,
    Refers card (uuid n).val.text → e.touches card.id

theorem steps_linkCards (hreach : Reach e w scope) :
    (linkCards parentId childId scope).Ensures w (Wrote e w childId) (Steps e w) := by
  refine (Calm.refl w).bind quiet_dateNow fun now w1 hcalm _ => ?_
  exact steps_linkCardsDirect hcalm.steps (hreach.mine hcalm.steps _) (hreach.mine hcalm.steps _)

theorem Steps.minted_le (h : Steps e start w) : start.minted ≤ w.minted := by
  induction h with
  | refl => exact le_rfl
  | restored _ _ _ _ ih => exact ih
  | step _ transition ih =>
    refine ih.trans ?_
    cases transition with
    | calm hcalm => exact hcalm.minted
    | amended touched calm amendment updated =>
      obtain ⟨minted, hminted, rfl⟩ := updated.left
      exact calm.minted.trans hminted
    | recorded touched found records => exact le_rfl
    | created touched calm new => exact calm.minted
    | removed touched =>
      unfold deleteCardRow
      split
      · exact le_rfl
      · exact le_rfl
    | registered id content => exact le_rfl
    | dropped ids => exact le_rfl
    | subscribed subscriptions => exact le_rfl

theorem newCard_id {status : WorkboardStatus} {held : Bool} {id : CardId} {draw : ℕ → NonBlank} {now : ℕ}
    (h : newCard cards input status automation held id draw now = .ok card) : card.id = id := by
  simp only [newCard, bind_eq_ok] at h
  obtain ⟨notes, -, metadata, -, title, -, priority, -, labels, -, h⟩ := h
  obtain rfl := ok.inj h
  rfl

theorem steps_linkParents {parents : List WorkboardCard} (hreach : Reach e start scope) (hsteps : Steps e start w)
    (hcard : card ∈ w.cards) :
    (linkParents card parents now scope).Ensures w (fun next left => Steps e start left ∧ next ∈ left.cards)
      (Steps e start) :=
  ensures_foldlM (I := fun next left => Steps e start left ∧ next ∈ left.cards)
    (fun _ _ _ _ h => (steps_linkCardsDirect h.1 (hreach.mine h.1 _) (hreach.mine h.1 _)).mono
      (fun _ _ h => ⟨h.1, (card_eq_some_iff.mp h.2).1⟩) fun _ h => h) ⟨hsteps, hcard⟩

theorem steps_undoCreate {id : CardId}
    (hremoved : e.touches id) (htouch : ∀ card ∈ w.cards, Refers card id.val.text → e.touches card.id)
    (hsteps : Steps e start w) : (undoCreate id.val.text error).Ensures w ok (Steps e start) := by
  refine ensures_bind (steps_deleteCardRow (fun k hk => CardId.ext_text hk ▸ hremoved) hsteps) fun _ w1 h => ?_
  exact ensures_bind (steps_removeReferencesToCard (fun card hcard => htouch card (h.2 card hcard)) h.1)
    fun _ _ h => h

theorem steps_createDirect (hreach : Reach e start scope) (hpatch : e.patches input) (hsteps : Steps e start w) :
    (createDirect input scope).Ensures w (fun card left => Steps e start left ∧ card ∈ left.cards) (Steps e start) := by
  refine hsteps.bind (.refl w) quiet_dateNow fun now w1 hcalm _ => ?_
  refine hsteps.bind hcalm quiet_lift fun requestedStatus w2 hcalm _ => ?_
  refine hsteps.bind hcalm quiet_view fun cards w3 hcalm hcards => ?_
  obtain ⟨rfl, rfl⟩ := hcards
  refine hsteps.bind hcalm quiet_monadLift fun parents w4 hcalm h4 => ?_
  obtain rfl := h4.2
  refine hsteps.bind hcalm quiet_monadLift fun automation w5 hcalm h5 => ?_
  obtain rfl := h5.2
  cases hmatch : idempotentMatch (w5.list none) automation with
  | some existing =>
    refine ⟨hsteps.calm hcalm, w5.list_none_perm.mem_iff.mp ?_⟩
    exact mem_of_idempotentMatch hmatch
  | none =>
    refine hsteps.bind hcalm quiet_monadLift fun parentCards w6 hcalm _ => ?_
    refine hsteps.bind hcalm quiet_monadLift fun automation w7 hcalm7 _ => ?_
    refine hsteps.bind hcalm7 quiet_randomUUID fun id w8 hcalm hid => ?_
    refine hsteps.bind hcalm quiet_drawIds fun draw w9 hcalm _ => ?_
    refine hsteps.bind hcalm quiet_monadLift fun card w10 hcalm hcard => ?_
    have hfresh : start.minted ≤ w7.minted := hsteps.minted_le.trans hcalm7.minted
    obtain rfl : id = card.id := (newCard_id hcard.1).symm
    have htouched : e.touches card.id := hid.1 ▸ hreach.fresh _ hfresh
    refine ensures_bind_iff.mpr (ensures_registerCard.mpr ⟨fun _ => ?_, fun _ => hsteps.calm hcalm⟩)
    refine ensures_recover (C := Steps e start) (steps_linkParents hreach
      (.step hsteps (.created htouched hcalm ⟨⟨_, hcalm7.minted, hid.1⟩, _, _, _, _, _, _, _, hpatch, hcard.1⟩))
      (KeyedTable.mem_put.mpr (.inl rfl))) fun error w11 hsteps11 => ?_
    refine steps_undoCreate htouched (fun other hother hrefers => ?_) hsteps11
    exact hreach.linked hsteps11 hfresh other hother (hid.1 ▸ hrefers)

/-! ## Decomposition -/

theorem Steps.id_known (h : Steps e start w) : ∀ c ∈ w.cards,
    c.id ∈ start.cards.rows.map (·.id) ∨ ∃ n, start.minted ≤ n ∧ c.id = uuid n := by
  induction h with
  | refl => exact fun c hc => .inl (mem_map_of_mem hc)
  | restored _ known _ ihthen ih => exact mem_put_of_forall ih (ihthen _ known)
  | @step w w' before transition ih =>
    cases transition with
    | calm hcalm =>
      rw [hcalm.cards]
      exact ih
    | amended touched calm amendment updated =>
      obtain ⟨minted, -, rfl⟩ := updated.left
      have hfound := updated.found
      rw [calm.cards] at hfound
      intro c' hc'
      obtain ⟨card, hcard, rfl⟩ := mem_without.mp hc'
      refine mem_put_of_forall
        (P := fun c => c.id ∈ start.cards.rows.map (·.id) ∨ ∃ n, start.minted ≤ n ∧ c.id = uuid n)
        ?_ ?_ card hcard
      · rw [calm.cards]
        exact ih
      · rw [updated.written.2]
        exact ih _ (KeyedTable.get?_eq_some_iff.mp hfound).1
    | recorded touched found records =>
      refine mem_put_of_forall ih ?_
      rw [records.id]
      exact ih _ (KeyedTable.get?_eq_some_iff.mp found).1
    | created touched calm new =>
      refine mem_put_of_forall ?_ ?_
      · rw [calm.cards]
        exact ih
      · obtain ⟨n, hn, hid⟩ := new.id
        exact .inr ⟨n, before.minted_le.trans hn, hid⟩
    | removed touched => exact fun c hc => ih c (mem_deleteCardRow hc)
    | registered id content => exact ih
    | dropped ids =>
      intro c hc
      obtain ⟨card, hcard, rfl⟩ := mem_without.mp hc
      exact ih card hcard
    | subscribed subscriptions => exact ih

structure Decomposition.Within (e : Extent) (start : World) (done : Decomposition) : Prop where
  children : ∀ child ∈ done.children,
    child.id ∈ start.cards.rows.map (·.id) ∨ ∃ n, start.minted ≤ n ∧ child.id = uuid n
  reused : ∀ card ∈ done.reused, ∃ earlier, Steps e start earlier ∧ card ∈ earlier.cards

variable {parent : WorkboardCard} {existed : List CardId} {sofar : Decomposition}

theorem steps_decomposeChild {child : Option WorkboardCardPatch} (hreach : Reach e start scope)
    (hpatch : ∀ input ∈ child, ∀ index, e.patches (childInput parent input index)) (hsteps : Steps e start w)
    (hsofar : sofar.Within e start) : (decomposeChild parent existed scope sofar child).Ensures w
      (fun result left => Steps e start left ∧ result.1.Within e start) (Steps e start) := by
  cases child with
  | none => exact ⟨hsteps, hsofar⟩
  | some child =>
    refine ensures_recover (C := Steps e start) ?_ fun error w1 h => ⟨h, hsofar⟩
    refine ensures_bind (steps_createDirect hreach (hpatch child rfl _) hsteps) fun created w1 hcreated => ?_
    obtain ⟨hsteps1, hmem⟩ := hcreated
    have hknown := hsteps1.id_known created hmem
    split
    · refine ⟨hsteps1, fun c hc => ?_, hsofar.reused⟩
      rcases mem_append.mp hc with hc | hc
      · exact hsofar.children c hc
      · rw [mem_singleton.mp hc]
        exact hknown
    · have hreused : ∀ card ∈ (if created.id ∈ existed then sofar.reused.filter (·.id ≠ created.id) ++ [created]
          else sofar.reused), ∃ earlier, Steps e start earlier ∧ card ∈ earlier.cards := by
        split
        · intro card hcard
          rcases mem_append.mp hcard with hcard | hcard
          · exact hsofar.reused card (mem_of_mem_filter hcard)
          · rw [mem_singleton.mp hcard]
            exact ⟨w1, hsteps1, hmem⟩
        · exact hsofar.reused
      refine ensures_recover (C := Steps e start) ?_ fun error w2 h => ⟨h, hsofar.children, hreused⟩
      refine hsteps1.bind (.refl w1) quiet_dateNow fun now w2 hcalm _ => ?_
      have hsteps2 := hsteps1.calm hcalm
      refine ensures_bind (steps_linkCardsDirect hsteps2 (hreach.mine hsteps2 _) (hreach.mine hsteps2 _))
        fun linked w3 hlinked => ⟨hlinked.1, fun c hc => ?_, hreused⟩
      rcases mem_append.mp hc with hc | hc
      · exact hsofar.children c hc
      · rw [mem_singleton.mp hc]
        exact hlinked.1.id_known linked (card_eq_some_iff.mp hlinked.2).1

theorem steps_decomposeChildren {children : List (Option WorkboardCardPatch)} (hreach : Reach e start scope)
    (hpatch : ∀ child ∈ children, ∀ input ∈ child, ∀ index, e.patches (childInput parent input index)) (hsteps : Steps e start w) (hsofar : sofar.Within e start) :
    (decomposeChildren parent existed scope sofar children).Ensures w
      (fun result left => Steps e start left ∧ result.1.Within e start) (Steps e start) := by
  induction children generalizing sofar w with
  | nil => exact ⟨hsteps, hsofar⟩
  | cons child children ih =>
    obtain ⟨hchild, hchildren⟩ := forall_mem_cons.mp hpatch
    refine ensures_bind (steps_decomposeChild hreach hchild hsteps hsofar) fun result w1 h => ?_
    split
    · exact h
    · exact ih hchildren h.1 h.2

theorem steps_restore {earlier : World} (hknown : Steps e start earlier ∧ card ∈ earlier.cards)
    (hsteps : Steps e start w) : (registerCard card).Ensures w (fun _ => Steps e start) (Steps e start) :=
  ensures_registerCard.mpr ⟨fun _ => .restored hknown.1 hknown.2 hsteps, fun _ => hsteps⟩

theorem steps_undoDecompose {done : Decomposition} {ok : WorkboardCard × List WorkboardCard → World → Prop}
    (hreach : Reach e start scope)
    (hparent : parent ∈ start.cards) (hdone : done.Within e start) (hsteps : Steps e start w) :
    (undoDecompose parent (start.cards.rows.map (·.id)) done error).Ensures w ok (Steps e start) := by
  refine ensures_bind (ensures_forEach (I := Steps e start) (fun child hchild w1 hsteps1 => ?_) hsteps)
    fun _ w1 hsteps1 => ?_
  · split
    · exact hsteps1
    · rename_i hnew
      obtain ⟨n, hn, hid⟩ := (hdone.children child (mem_reverse.mp hchild)).resolve_left hnew
      refine ensures_bind (steps_deleteDirect (fun k hk => ?_) (fun card hcard hrefers => ?_) hsteps1) fun _ _ h => h
      · rw [child.id.val.trimmed] at hk
        rw [CardId.ext_text hk, hid]
        exact hreach.fresh n hn
      · rw [child.id.val.trimmed, hid] at hrefers
        exact hreach.linked hsteps1 hn card hcard hrefers
  refine ensures_bind (ensures_forEach (I := Steps e start) (fun card hcard w2 hsteps2 => ?_) hsteps1)
    fun _ w2 hsteps2 => ?_
  · obtain ⟨earlier, hearlier⟩ := hdone.reused card hcard
    exact steps_restore hearlier hsteps2
  · exact ensures_bind (steps_restore ⟨.refl, hparent⟩ hsteps2) fun _ _ h => h

theorem steps_summarizeParent {childIds : Unknown} {summary : Option (Bounded 2000)}
    (hparent : e.touches parent.id) (hsteps : Steps e start w) :
    (summarizeParent parent childIds summary).Ensures w (Wrote e start parent.id.val.text) (Steps e start) := by
  refine hsteps.bind (.refl w) quiet_view fun latest w1 hcalm hlatest => ?_
  refine hsteps.bind hcalm quiet_lift fun createdCardIds w2 hcalm _ => ?_
  refine hsteps.bind hcalm quiet_lift fun automation w3 hcalm hautomation => ?_
  refine steps_update hsteps hcalm fun c hc => ?_
  have hsame : latest = c := by rw [hlatest.1, hc, Option.getD_some]
  subst hsame
  refine ⟨mayTouch_of_touches none hparent _ hc rfl, amendment_of_status _ rfl rfl rfl
    { Amends.refl w w3 latest with scheduledAt := ?_ } (.inl rfl)⟩
  exact scheduledAt_normalizeAutomation hautomation.1 rfl

theorem steps_finishParent {children : List WorkboardCard} {input : WorkboardDecomposeInput}
    {scope : Option (Option WorkboardMutationScope)} (hparent : e.touches parent.id) (hsteps : Steps e start w) :
    (finishParent parent children input scope).Ensures w (fun _ => Steps e start) (Steps e start) := by
  refine hsteps.bind (.refl w) quiet_monadLift fun summary w1 hcalm _ => ?_
  have hsteps1 := hsteps.calm hcalm
  refine ensures_bind (Q := Wrote e start parent.id.val.text) ?_ fun updated w2 hupdated => ?_
  · split
    · exact steps_completeDirect hsteps1 (mayTouch_of_touches _ hparent)
    · exact steps_summarizeParent hparent hsteps1
  refine hupdated.1.bind (.refl w2) quiet_randomUUID fun eventId w3 hcalm3 _ => ?_
  refine hupdated.1.bind hcalm3 quiet_dateNow fun now w4 hcalm4 _ => ?_
  refine ensures_bind (steps_registerCard (hupdated.1.calm hcalm4) ((hcalm4.card _).trans hupdated.2)
    (mayTouch_of_touches none hparent _ hupdated.2 rfl) (.logged updated _ _ (by decide))) fun _ _ h => h.1

theorem Decomposition.Within.empty : Decomposition.Within e start {} :=
  ⟨fun _ h => absurd h not_mem_nil, fun _ h => absurd h not_mem_nil⟩

theorem steps_decompose {input : WorkboardDecomposeInput}
    {scope : Option (Option WorkboardMutationScope)} (hreach : Reach e w (scope.getD none))
    (hpatch : ∀ parent, ∀ child ∈ input.children, ∀ patch ∈ child, ∀ index, e.patches (childInput parent patch index)) :
    (decompose id input scope).Ensures w (fun _ => Steps e w) (Steps e w) := by
  refine (Calm.refl w).bind quiet_requireMine fun parent w1 hcalm hmine => ?_
  obtain ⟨hfound, hassert, rfl⟩ := hmine
  have hparent : parent ∈ w1.cards := (card_eq_some_iff.mp hfound).1
  have htouched : e.touches parent.id := hreach.mine .refl id parent hfound hassert
  split
  · exact .refl
  split
  · exact .refl
  refine (Calm.refl w1).bind quiet_view fun existed w2 hcalm hexisted => ?_
  obtain ⟨rfl, rfl⟩ := hexisted
  refine ensures_bind (steps_decomposeChildren hreach (hpatch parent) .refl .empty) fun result w3 hresult => ?_
  split
  · exact steps_undoDecompose hreach hparent hresult.2 hresult.1
  · refine ensures_recover (C := Steps e w2) ?_
      fun error w4 hsteps4 => steps_undoDecompose hreach hparent hresult.2 hsteps4
    exact ensures_bind (steps_finishParent htouched hresult.1) fun _ _ h => h

/-! ## Passes over the board -/

section

variable (hall : ∀ k, e.touches k)

include hall

theorem steps_promoteReady {now : Option ℕ} : (promoteReady now).Ensures w (fun _ => Steps e w) (Steps e w) := by
  refine (Calm.refl w).bind quiet_dateNow fun read w1 hcalm _ => ?_
  refine hcalm.bind quiet_view fun cards w2 hcalm _ => ?_
  refine ensures_forEach (I := Steps e w) (fun card _ w3 hsteps3 => ?_) hcalm.steps
  exact ensures_bind (steps_promoteDependencyReady hsteps3 (.refl w3) fun c _ => hall c.id) fun _ _ h => h.1

section

variable (h : Wrote e start id card w)

include h

theorem steps_blockRun {now : ℕ} {reason : Bounded 240} :
    (blockRun card now reason).Ensures w (Wrote e start id) (Steps e start) := by
  refine h.1.bind (.refl w) quiet_notify fun notification w1 hcalm hnumbered => ?_
  exact steps_updateOwn h.1 hcalm h.2 (hall _) (amendment_of_status false rfl rfl rfl
    { Amends.refl w w1 card with
      claim := .inr (.inl rfl)
      notifications := .inr ⟨_, hnumbered, rfl⟩ } (.inr (.inr (.inr rfl))))

theorem steps_endRun {now : ℕ} : (endRun card now).Ensures w (Wrote e start id) (Steps e start) := by
  unfold endRun
  split
  · exact steps_blockRun hall h
  split
  · exact steps_updateOwn h.1 (.refl w) h.2 (hall _)
      (amendment_of_metadata { Amends.refl w w card with claim := .inr (.inl rfl) })
  · exact h

theorem steps_giveUp {retriesExhausted : Bool} {now : ℕ} :
    (giveUp card retriesExhausted now).Ensures w (Wrote e start id) (Steps e start) := by
  unfold giveUp
  split
  · refine h.1.bind (.refl w) quiet_notify fun notification w1 hcalm hnumbered => ?_
    exact steps_updateOwn h.1 hcalm h.2 (hall _) (amendment_of_status false rfl rfl rfl
      { Amends.refl w w1 card with notifications := .inr ⟨_, hnumbered, rfl⟩ } (.inr (.inr (.inr rfl))))
  · exact h

theorem steps_recordOn {metadata : WorkboardMetadata} {kind : WorkboardEventKind} {now : ℕ} (hcalm : Calm w w1)
    (records : ∀ eventId, Records card (logged { card with metadata } kind eventId now)) :
    (recordOn card metadata kind now).Ensures w1 (Wrote e start id) (Steps e start) := by
  refine h.1.bind hcalm quiet_randomUUID fun eventId w2 hcalm2 _ => ?_
  exact ensures_bind (steps_registerCard (h.1.calm hcalm2) ((hcalm2.card id).trans h.2) (hall _)
    (records eventId.val)) fun _ _ h => h

theorem steps_recordDispatch {now : ℕ} : (recordDispatch card now).Ensures w (Wrote e start id) (Steps e start) := by
  refine h.1.bind (.refl w) quiet_dateNow fun read w1 hcalm _ => ?_
  refine h.1.bind hcalm quiet_lift fun automation w2 hcalm hautomation => ?_
  refine h.1.bind hcalm quiet_drawIds fun draw w3 hcalm _ => ?_
  refine h.1.bind hcalm quiet_lift fun metadata w4 hcalm hmetadata => ?_
  exact steps_recordOn hall h hcalm fun eventId => records_dispatch hautomation.1 hmetadata.1

theorem steps_orchestrate {counts : OrchestratedByBoard} {now : ℕ} :
    (orchestrate counts card now).Ensures w (fun _ => Steps e start) (Steps e start) := by
  refine h.1.bind (.refl w) quiet_view fun cap w1 hcalm _ => ?_
  split
  · refine ensures_bind (Q := Wrote e start id) ?_ fun _ w2 h2 => h2.1
    refine h.1.bind hcalm quiet_randomUUID fun logId w2 hcalm _ => ?_
    exact steps_recordOn hall h hcalm fun eventId => records_orchestration rfl
  · exact h.1.calm hcalm

end

theorem steps_dispatch {now boardId : Unknown} : (dispatch now boardId).Ensures w (fun _ => Steps e w) (Steps e w) := by
  refine (Calm.refl w).bind quiet_dateNow fun read w1 hcalm _ => ?_
  refine hcalm.bind quiet_monadLift fun boardId w2 hcalm _ => ?_
  refine hcalm.bind quiet_view fun cards w3 hcalm _ => ?_
  refine ensures_bind (ensures_foldlM (I := fun _ => Steps e w) (fun counts card _ w4 hsteps4 => ?_)
    hcalm.steps) fun _ _ h => h
  refine ensures_bind (steps_promoteDependencyReady hsteps4 (.refl w4) fun c _ => hall c.id) fun promoted w5 h5 => ?_
  refine ensures_bind (steps_endRun hall h5) fun ended w6 h6 => ?_
  refine ensures_bind (steps_giveUp hall h6) fun latest w7 h7 => ?_
  refine ensures_bind (Q := Wrote e w card.id.val.text) ?_ fun latest w8 h8 => steps_orchestrate hall h8
  split
  · exact steps_recordDispatch hall h7
  · exact h7

theorem steps_refreshDiagnostics {now : Option ℕ} :
    (refreshDiagnostics now).Ensures w (fun _ => Steps e w) (Steps e w) := by
  refine (Calm.refl w).bind quiet_dateNow fun read w1 hcalm _ => ?_
  refine hcalm.bind quiet_view fun cards w2 hcalm _ => ?_
  refine ensures_forEach (I := Steps e w) (fun card _ w3 hsteps3 => ?_) hcalm.steps
  refine hsteps3.bind (.refl w3) quiet_view fun latest w4 hcalm hlatest => ?_
  obtain ⟨rfl, rfl⟩ := hlatest
  cases hcard : w4.card card.id.val.text with
  | none => exact hsteps3
  | some latest =>
    dsimp only
    split
    · exact hsteps3
    · exact (steps_registerCard hsteps3 hcard (hall _) (.trimmed latest _)).mono (fun _ _ h => h.1) fun _ h => h

theorem steps_bulkUpdate {ids : List JsString} {archived : Option Bool} (hpatch : e.patches patch) :
    (bulkUpdate ids patch archived).Ensures w (fun _ => Steps e w) (Steps e w) := by
  unfold bulkUpdate
  dsimp only
  split
  · exact .refl
  refine ensures_forEach (I := Steps e w) (fun id _ w1 hsteps1 => ?_) .refl
  refine ensures_bind (Q := Wrote e w id) ?_ fun _ _ h => h.1
  cases archived with
  | none => exact steps_update hsteps1 (.refl w1) fun c _ => ⟨hall _, .updated hpatch⟩
  | some archived => exact steps_archive hsteps1 fun c _ => hall c.id

end

theorem steps_subscribeNotifications {input : WorkboardNotificationSubscribeInput} :
    (subscribeNotifications input).Ensures w (fun _ => Steps e w) (Steps e w) := by
  refine (Calm.refl w).bind quiet_dateNow fun now w1 hcalm _ => ?_
  refine hcalm.bind quiet_randomUUID fun id w2 hcalm _ => ?_
  refine hcalm.bind quiet_monadLift fun subscription w3 hcalm _ => ?_
  exact ensures_bind_iff.mpr (.step hcalm.steps (.subscribed _))

theorem steps_deleteNotificationSubscription :
    (deleteNotificationSubscription id).Ensures w (fun _ => Steps e w) (Steps e w) := by
  refine (Calm.refl w).bind quiet_view fun subscription w1 hcalm _ => ?_
  exact ensures_bind_iff.mpr (.step hcalm.steps (.subscribed _))

theorem steps_advanceNotificationEvents {input : WorkboardNotificationEventsInput} :
    (advanceNotificationEvents input).Ensures w (fun _ => Steps e w) (Steps e w) := by
  refine (Calm.refl w).bind quiet_monadLift fun subscriptionId w1 hcalm _ => ?_
  cases subscriptionId with
  | none => exact hcalm.steps
  | some subscriptionId =>
    refine hcalm.bind quiet_lift fun cardId w2 hcalm _ => ?_
    refine hcalm.bind quiet_view fun subscription w3 hcalm _ => ?_
    cases subscription with
    | none => exact hcalm.steps
    | some subscription =>
      refine hcalm.bind quiet_view fun events w4 hcalm _ => ?_
      cases events.getLast? with
      | none => exact hcalm.steps
      | some last =>
        refine hcalm.bind quiet_dateNow fun now w5 hcalm _ => ?_
        exact ensures_bind_iff.mpr (.step hcalm.steps (.subscribed _))

theorem steps_upsertBoard {input : WorkboardBoardInput} :
    (upsertBoard input).Ensures w (fun _ => Steps e w) (Steps e w) := by
  refine (Calm.refl w).bind quiet_monadLift fun id w1 hcalm _ => ?_
  refine hcalm.bind quiet_view fun existing w2 hcalm _ => ?_
  refine hcalm.bind quiet_dateNow fun now w3 hcalm _ => ?_
  refine hcalm.bind quiet_monadLift fun board w4 hcalm _ => ?_
  exact ensures_bind_iff.mpr (Calm.steps (hcalm.trans { Calm.refl w4 with cards := rfl }))

theorem steps_deleteBoard {id : Unknown} : (deleteBoard id).Ensures w (fun _ => Steps e w) (Steps e w) := by
  refine (Calm.refl w).bind quiet_monadLift fun boardId w1 hcalm _ => ?_
  dsimp only
  split
  · exact hcalm.steps
  refine hcalm.bind quiet_view fun cards w2 hcalm _ => ?_
  split
  · exact hcalm.steps
  refine hcalm.bind quiet_view fun board w3 hcalm _ => ?_
  have hboards : Calm w3 { w3 with boards := w3.boards.deleteWhere (·.id = boardId.getD .default) } :=
    { Calm.refl w3 with cards := rfl }
  exact ensures_bind_iff.mpr (.step (Calm.steps (hcalm.trans hboards)) (.subscribed _))

def Operation.Within (e : Extent) : Operation → Prop
  | .create input _ => e.patches input
  | .update _ patch => e.patches patch
  | .move _ status position => e.patches { status, position }
  | .claim id _ => ∀ k : CardId, k.val.text = trim id → e.claims k
  | .promote _ force _ _ => force = true → e.forced = true
  | .decompose _ input _ =>
    ∀ parent, ∀ child ∈ input.children, ∀ patch ∈ child, ∀ index, e.patches (childInput parent patch index)
  | .bulkUpdate _ patch _ => e.patches patch
  | _ => True

theorem Wrote.discard {p : Step WorkboardCard} (h : p.Ensures w (Wrote e start id) (Steps e start)) :
    p.discard.Ensures w (fun _ => Steps e start) (Steps e start) :=
  ensures_discard (h.mono (fun _ _ h => h.1) fun _ h => h)

open Wrote (discard)

theorem Operation.ensures_steps (hall : ∀ k, e.touches k) {op : Operation} (h : op.Within e) :
    op.run.Ensures w (fun _ => Steps e w) (Steps e w) := by
  have hmay : ∀ {w id scope}, MayTouch e w id scope := fun c _ _ => hall c.id
  have hreach : ∀ {start scope}, Reach e start scope := ⟨fun _ _ => hmay, fun _ _ => hall _, fun _ _ _ _ _ => hall _⟩
  have htouch : ∀ {w : World} {id : JsString}, ∀ c, w.card id = some c → e.touches c.id := fun c _ => hall c.id
  cases op with
  | create input scope =>
    exact ensures_discard ((steps_createDirect hreach h .refl).mono (fun _ _ h => h.1) fun _ h => h)
  | update id patch | move id status position =>
    exact discard (steps_update .refl (.refl w) fun c _ => ⟨hall _, .updated h⟩)
  | delete id => exact ensures_discard (steps_deleteDirect (fun k _ => hall k) (fun card _ _ => hall _) .refl)
  | linkCards parentId childId scope => exact discard (steps_linkCards hreach)
  | addComment id body scope => exact discard (steps_addComment hmay)
  | addLink id input => exact discard (steps_addLink htouch)
  | addProof id input scope => exact discard (steps_addProof hmay)
  | addProofWithArtifact id proof artifact scope => exact discard (steps_addProofWithArtifact hmay)
  | addArtifact id input scope => exact discard (steps_addArtifact hmay)
  | addAttachment id input scope => exact ensures_discard (steps_addAttachment hmay)
  | deleteAttachment cardId attachmentId scope => exact ensures_discard (steps_deleteAttachment hmay)
  | addWorkerLog id input scope => exact discard (steps_addWorkerLog hmay)
  | recordProtocolViolation id input scope => exact discard (steps_recordProtocolViolation hmay)
  | claim id input =>
    exact ensures_discard ((steps_claim fun k hk => ⟨hall k, h k hk⟩).mono (fun _ _ h => h.1) fun _ h => h)
  | heartbeat id input => exact discard (steps_heartbeat htouch)
  | releaseClaim id input => exact discard (steps_releaseClaim htouch)
  | complete id input scope => exact discard (steps_completeDirect .refl hmay)
  | block id input scope => exact discard (steps_block hmay)
  | unblock id scope => exact discard (steps_unblock hmay)
  | promote id force reason scope => exact discard (steps_promote hmay h)
  | reassign id input scope => exact discard (steps_reassign hmay)
  | reclaim id input scope => exact ensures_discard (steps_reclaim hmay)
  | archive id shouldArchive => exact discard (steps_archive .refl htouch)
  | specify id input summary scope => exact discard (steps_specify hmay)
  | decompose id input scope => exact ensures_discard (steps_decompose hreach h)
  | promoteReady now => exact steps_promoteReady hall
  | dispatch now boardId => exact steps_dispatch hall
  | refreshDiagnostics now => exact steps_refreshDiagnostics hall
  | bulkUpdate ids patch archived => exact steps_bulkUpdate hall h
  | subscribeNotifications input => exact ensures_discard steps_subscribeNotifications
  | deleteNotificationSubscription id => exact ensures_discard steps_deleteNotificationSubscription
  | advanceNotificationEvents input => exact ensures_discard steps_advanceNotificationEvents
  | upsertBoard input => exact ensures_discard steps_upsertBoard
  | deleteBoard id => exact ensures_discard steps_deleteBoard

theorem steps_after (hall : ∀ k, e.touches k) {run : List Operation} (h : ∀ op ∈ run, op.Within e) :
    Steps e w (w.after run) := by
  induction run generalizing w with
  | nil => exact .refl
  | cons op run ih =>
    obtain ⟨hop, hrun⟩ := forall_mem_cons.mp h
    exact Steps.trans (Operation.ensures_steps hall hop).after (ih hrun)

end ClawWorks.Workboard
