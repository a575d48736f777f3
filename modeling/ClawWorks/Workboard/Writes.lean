import ClawWorks.Workboard.Run

/-!
# What an update writes

`updateCard` in terms of what it did: the card it found, the card it wrote and the state it left (`Updated`,
`ensures_updateCard`), and which fields of the metadata follow the patch (`Patched`).

The entries of a card in the index of attachments may go with contents that another card indexes too, so what holds of
every card is said of its `core`, the card without that index.
-/

namespace ClawWorks.Workboard

open KeyedTable Mutation List

open KeyedTable (deleteWhere ext updateWhere)

/-! ## Cards by id -/

theorem NonBlank.ext_text {t u : NonBlank} (h : t.text = u.text) : t = u := by
  cases t
  cases u
  cases h
  rfl

theorem CardId.ext_text {a b : CardId} (h : a.val.text = b.val.text) : a = b := Subtype.ext (NonBlank.ext_text h)

/-- The card without its index of attachments. -/
def WorkboardCard.core (card : WorkboardCard) : WorkboardCard :=
  { card with metadata := { card.metadata with attachments := [] } }

def World.board (w : World) (id : CardId) : Option WorkboardCard :=
  (w.cards.get? id).map (·.core)

open World

variable {c : WorkboardCard}

variable {id : JsString} {w : World}

theorem World.card_eq_some_iff : w.card id = some c ↔ c ∈ w.cards ∧ c.id.val.text = trim id := by
  constructor
  · intro h
    exact ⟨mem_of_find?_eq_some h, by simpa using find?_some h⟩
  · rintro ⟨hmem, hid⟩
    cases hfound : w.card id with
    | none =>
      rw [card, find?_eq_none] at hfound
      exact absurd hid (by simpa using hfound c hmem)
    | some d =>
      have hd : d ∈ w.cards ∧ d.id.val.text = trim id := ⟨mem_of_find?_eq_some hfound, by simpa using find?_some hfound⟩
      rw [eq_of_key hd.1 hmem (CardId.ext_text (hd.2.trans hid.symm))]

theorem World.card_text {id : CardId} : w.card id.val.text = some c ↔ w.cards.get? id = some c := by
  rw [card_eq_some_iff, get?_eq_some_iff, id.val.trimmed]
  exact and_congr_right fun _ => ⟨CardId.ext_text, fun h => by rw [h]⟩

variable {v : World}

theorem World.card_of_card (h : v.card id = some c) {u : World} : u.card c.id.val.text = u.card id := by
  unfold card
  rw [c.id.val.trimmed, (card_eq_some_iff.mp h).2]

theorem World.card_congr {w w' : World} (h : w'.cards = w.cards) (id : JsString) : w'.card id = w.card id := by
  unfold card
  rw [h]

theorem World.board_of_mem {card : WorkboardCard} (h : card ∈ w.cards) : w.board card.id = some card.core := by
  rw [board, mem_iff_get?.mp h]
  rfl

theorem core_of_board {card c : WorkboardCard} (hboard : v.board card.id = some card.core)
    (hc : v.card card.id.val.text = some c) : card.core = c.core := by
  rw [board, card_text.mp hc] at hboard
  exact (Option.some.inj hboard).symm

theorem World.board_of_card (h : v.card id = some c) : v.board c.id = some c.core :=
  board_of_mem (card_eq_some_iff.mp h).1

theorem World.list_none_perm (v : World) : (v.list none).Perm v.cards.rows := by
  have hall : v.cards.rows.filter (fun card => (none : Option BoardId).all (cardBoardId card = ·)) = v.cards.rows :=
    filter_eq_self.mpr fun _ _ => rfl
  rw [list, hall]
  exact perm_insertionSort _ _

theorem World.mem_without {ids : List NonBlank} :
    c ∈ (w.without ids).cards ↔ ∃ card ∈ w.cards, dropAttachments ids card = c := by
  unfold without
  rw [mem_updateWhere]
  simp only [if_true]

theorem World.without_without (w : World) (ids ids' : List NonBlank) :
    (w.without ids).without ids' = w.without (ids ++ ids') := by
  refine World.ext (ext ?_) (ext ?_) rfl rfl rfl rfl rfl
  · simp [World.without, updateWhere, dropAttachments, Function.comp_def, filter_filter, Bool.and_comm]
  · simp [World.without, deleteWhere, filter_filter, Bool.and_comm]

theorem World.without_nil (w : World) : w.without [] = w := by
  refine World.ext (ext ?_) (ext ?_) rfl rfl rfl rfl rfl
  · simp [World.without, updateWhere, dropAttachments]
  · simp [World.without, deleteWhere]

theorem forEach_deleteAttachmentRow (ids : List NonBlank) (w : World) :
    forEach deleteAttachmentRow ids w = (.ok (), w.without ids) := by
  induction ids generalizing w with
  | nil => rw [without_nil]; rfl
  | cons id ids ih =>
    show forEach deleteAttachmentRow ids (w.without [id]) = _
    rw [ih, without_without]
    rfl

theorem mem_put_of_forall {P : WorkboardCard → Prop} (h : ∀ c ∈ w.cards, P c) {card : WorkboardCard}
    (hcard : P card) :
    ∀ c ∈ w.cards.put card, P c := by
  intro c hc
  rcases mem_put.mp hc with rfl | ⟨hmem, -⟩
  · exact hcard
  · exact h c hmem

theorem mem_deleteCardRow (h : c ∈ (deleteCardRow id w).2.cards) : c ∈ w.cards := by
  unfold deleteCardRow at h
  split at h
  · exact h
  · exact (mem_deleteWhere.mp h).1

theorem board_put {card : WorkboardCard} {k : CardId} :
    ({ w with cards := w.cards.put card } : World).board k = if card.id = k then some card.core else w.board k := by
  by_cases h : card.id = k
  · rw [if_pos h, ← h]
    exact board_of_mem (w := { w with cards := w.cards.put card }) (mem_put.mpr (Or.inl rfl))
  · rw [if_neg h, board, board]
    congr 1
    refine Option.ext fun c => ?_
    rw [get?_eq_some_iff, get?_eq_some_iff]
    show c ∈ w.cards.put card ∧ c.id = k ↔ _
    rw [mem_put]
    constructor
    · rintro ⟨rfl | ⟨hmem, -⟩, hid⟩
      · exact absurd hid h
      · exact ⟨hmem, hid⟩
    · rintro ⟨hmem, hid⟩
      exact ⟨Or.inr ⟨hmem, fun hsame => h (hsame.symm.trans hid)⟩, hid⟩

theorem board_without (ids : List NonBlank) : (w.without ids).board = w.board := by
  funext k
  rw [board, board]
  cases hfound : w.cards.get? k with
  | none =>
    have hnone : (w.without ids).cards.get? k = none := by
      rw [get?_eq_none_iff] at hfound ⊢
      intro c hc
      obtain ⟨card, hcard, rfl⟩ := mem_without.mp hc
      exact hfound card hcard
    rw [hnone]
  | some card =>
    obtain ⟨hmem, hid⟩ := get?_eq_some_iff.mp hfound
    have hsome : (w.without ids).cards.get? k = some (dropAttachments ids card) :=
      get?_eq_some_iff.mpr ⟨mem_without.mpr ⟨card, hmem, rfl⟩, hid⟩
    rw [hsome]
    rfl

theorem board_deleteCardRow {k : CardId} (h : k.val.text ≠ id) : (deleteCardRow id w).2.board k = w.board k := by
  unfold deleteCardRow
  split
  · rfl
  rw [board, board]
  congr 1
  refine Option.ext fun c => ?_
  rw [get?_eq_some_iff, get?_eq_some_iff]
  show c ∈ w.cards.deleteWhere _ ∧ _ ↔ _
  rw [mem_deleteWhere]
  constructor
  · exact fun hc => ⟨hc.1.1, hc.2⟩
  · rintro ⟨hmem, rfl⟩
    exact ⟨⟨hmem, by simpa using h⟩, rfl⟩

/-! ## The steps that touch no table -/

/-- Nothing happened but that the clock was read, ids were drawn or a notification was numbered. -/
structure Calm (w w' : World) : Prop where
  cards : w'.cards = w.cards
  blobs : w'.blobs = w.blobs
  subscriptions : w'.subscriptions = w.subscriptions
  reads : w.reads ≤ w'.reads
  minted : w.minted ≤ w'.minted
  sequence : w.lastNotificationSequence ≤ w'.lastNotificationSequence

theorem Calm.refl (w : World) : Calm w w := ⟨rfl, rfl, rfl, le_rfl, le_rfl, le_rfl⟩

theorem Calm.trans {a b c : World} (h : Calm a b) (h' : Calm b c) : Calm a c where
  cards := h'.cards.trans h.cards
  blobs := h'.blobs.trans h.blobs
  subscriptions := h'.subscriptions.trans h.subscriptions
  reads := h.reads.trans h'.reads
  minted := h.minted.trans h'.minted
  sequence := h.sequence.trans h'.sequence

theorem Calm.card {w w' : World} (h : Calm w w') (id : JsString) : w'.card id = w.card id := card_congr h.cards id

theorem Calm.board {w w' : World} (h : Calm w w') : w'.board = w.board := by
  unfold World.board
  rw [h.cards]

variable {ok : WorkboardCard → World → Prop}

@[simp] theorem ensures_requireCard {failed : World → Prop} :
    (requireCard id).Ensures w ok failed ↔ (∀ c, w.card id = some c → ok c w) ∧ (w.card id = none → failed w) := by
  unfold Mutation.Ensures requireCard
  cases w.card id <;> simp

/-- The entries of the index that an update dropped. -/
def detached (c next : WorkboardCard) : List NonBlank :=
  (c.metadata.attachments.map (·.id)).filter (· ∉ next.metadata.attachments.map (·.id))

theorem dropAttachments_detached (c next : WorkboardCard) : dropAttachments (detached c next) next = next := by
  have hkept : next.metadata.attachments.filter (·.id ∉ detached c next) = next.metadata.attachments := by
    refine filter_eq_self.mpr fun a ha => ?_
    simp only [detached, mem_filter, not_and, decide_eq_true_eq, mem_map]
    exact fun _ hdropped => hdropped ⟨a, ha, rfl⟩
  unfold dropAttachments
  rw [hkept]

variable [Platform] {w : World} {failed : World → Prop}

@[simp] theorem ensures_dateNow {ok : Positive → World → Prop} :
    dateNow.Ensures w ok failed ↔ ok ⟨clock w.reads, Platform.clock_pos _⟩ { w with reads := w.reads + 1 } := Iff.rfl

@[simp] theorem ensures_drawIds {count : ℕ} {ok : (ℕ → NonBlank) → World → Prop} :
    (drawIds count).Ensures w ok failed ↔
      ok (fun i => (uuid (w.minted + i)).val) { w with minted := w.minted + count } := Iff.rfl

@[simp] theorem ensures_registerCard {card : WorkboardCard} {ok : Unit → World → Prop} :
    (registerCard card).Ensures w ok failed ↔ (accepts w.cards card → ok () { w with cards := w.cards.put card }) ∧
        (accepts w.cards card = false → failed w) := by
  unfold Mutation.Ensures registerCard
  cases h : accepts w.cards card <;> simp

/-- What an update of the card `c` made of it, and of the state. -/
structure Updated (w : World) (c : WorkboardCard) (patch : WorkboardCardPatch) (options : UpdateOptions)
    (next : WorkboardCard) (w' : World) : Prop where
  found : w.cards.get? c.id = some c
  patched : ∃ effective draw, effectivePatch c patch = some effective ∧
    patchCard c effective (hasFreshLifecycleStatusSource c patch) options.allowMetadataDependencyLinks draw
      (clock w.reads) = .ok next ∧
    (options.enforceStatusHolds = true → effective.status.isSome = true →
      assertActiveStatusAllowed w c next (clock w.reads) = .ok ())
  left : ∃ minted, w.minted ≤ minted ∧ w' =
    World.without { w with cards := w.cards.put next, reads := w.reads + 1, minted } (detached c next)

variable {patch : WorkboardCardPatch}

theorem ensures_updateCard {options : UpdateOptions} (hnone : w.card id = none → failed w)
    (hsame : ∀ c, w.card id = some c → effectivePatch c patch = none → ok c w) (hfailed : ∀ w', Calm w w' → failed w')
    (hok : ∀ c next w', w.card id = some c → Updated w c patch options next w' → ok next w') :
    (updateCard id patch options).Ensures w ok failed := by
  unfold updateCard
  rw [ensures_bind_iff, ensures_requireCard]
  refine ⟨fun c hc => ?_, hnone⟩
  have hfound : w.cards.get? c.id = some c := mem_iff_get?.mp (card_eq_some_iff.mp hc).1
  split
  · rename_i heffective
    exact hsame c hc heffective
  · rename_i effective heffective
    simp only [ensures_bind_iff, ensures_dateNow, ensures_drawIds, ensures_monadLift_iff,
      ensures_view_iff, ensures_lift_iff, ensures_registerCard, ensures_pure_iff]
    have hcalm : ∀ minted, w.minted ≤ minted → Calm w { w with reads := w.reads + 1, minted } := fun minted h =>
      ⟨rfl, rfl, rfl, Nat.le_succ _, h, le_rfl⟩
    refine ⟨fun next hnext => ⟨fun _ hallowed => ⟨fun _ => ?_, fun _ => hfailed _ (hcalm _ (Nat.le_add_right _ _))⟩,
      fun _ _ => hfailed _ (hcalm _ (Nat.le_add_right _ _))⟩, fun _ _ => hfailed _ (hcalm _ (Nat.le_add_right _ _))⟩
    unfold deleteDetachedAttachments Mutation.Ensures
    rw [forEach_deleteAttachmentRow]
    refine hok c next _ hc ⟨hfound, ⟨effective, _, heffective, hnext, fun henforce hstatus => ?_⟩,
      _, Nat.le_add_right _ _, rfl⟩
    rw [if_pos ⟨henforce, hstatus⟩] at hallowed
    exact hallowed

theorem patchAutomation_spec {m m' : WorkboardMetadata} (h : patchAutomation patch m = .ok m') :
    Follows m m' ∧ m'.lifecycleStatusSourceUpdatedAt = m.lifecycleStatusSourceUpdatedAt ∧
      (patch.automation = .none → m' = m) := by
  unfold patchAutomation at h
  split at h
  · obtain rfl := Except.ok.inj h
    exact ⟨.refl m, rfl, fun _ => rfl⟩
  · rename_i hsome
    obtain ⟨automation, -, hm⟩ := Except.bind_eq_ok.mp h
    obtain rfl := Except.ok.inj hm
    have hagrees := agrees_trim { m with automation }
    have hstart : Follows m { m with automation } := { Follows.refl m with claim := rfl }
    exact ⟨hstart.trans hagrees.follows, hagrees.lifecycle, fun h => absurd h hsome⟩

variable {existing : WorkboardCard} {draw : ℕ → NonBlank} {fresh allow : Bool}

theorem patchMetadata_spec {status : WorkboardStatus} {now : ℕ} {m' : WorkboardMetadata}
    (h : patchMetadata existing patch status fresh allow draw now = .ok m') :
    ∃ m, normalizeMetadata patch.metadata existing.metadata allow draw now = .ok m ∧ Follows m m' ∧
      m'.lifecycleStatusSourceUpdatedAt =
        (if status ≠ existing.status ∧ ¬fresh then none else m.lifecycleStatusSourceUpdatedAt) ∧
      (patch.automation = .none → m'.automation = m.automation) := by
  obtain ⟨m, hm, hrest⟩ := Except.bind_eq_ok.mp h
  obtain ⟨automated, hautomated, hm'⟩ := Except.bind_eq_ok.mp hrest
  obtain ⟨hfollows, hlifecycle, hsame⟩ := patchAutomation_spec hautomated
  have htemplate : Follows automated m' ∧ m'.lifecycleStatusSourceUpdatedAt = automated.lifecycleStatusSourceUpdatedAt ∧
      m'.automation = automated.automation := by
    obtain rfl := Except.ok.inj hm'
    cases patch.templateId with
    | none => exact ⟨.refl _, rfl, rfl⟩
    | some templateId => exact ⟨{ Follows.refl automated with claim := rfl }, rfl, rfl⟩
  obtain ⟨hfollows', hlifecycle', hautomation⟩ := htemplate
  refine ⟨m, hm, ?_, ?_, fun hnone => ?_⟩
  · refine Follows.trans (Follows.trans ?_ hfollows) hfollows'
    split
    · exact { Follows.refl m with claim := rfl }
    · exact .refl m
  · rw [hlifecycle', hlifecycle]
    split <;> rfl
  · rw [hautomation, hsame hnone]
    split <;> rfl

/-- What an update makes of a card. -/
structure PatchedCard (existing : WorkboardCard) (patch : WorkboardCardPatch) (fresh allow : Bool) (now : ℕ)
    (next : WorkboardCard) : Prop where
  id : next.id = existing.id
  createdAt : next.createdAt = existing.createdAt
  updatedAt : next.updatedAt = now
  status : patchStatus existing patch = .ok next.status
  metadata : ∃ m draw, normalizeMetadata patch.metadata existing.metadata allow draw now = .ok m ∧
    Follows m next.metadata ∧
    next.metadata.lifecycleStatusSourceUpdatedAt =
      (if next.status ≠ existing.status ∧ ¬fresh then none else m.lifecycleStatusSourceUpdatedAt) ∧
    (patch.automation = .none → next.metadata.automation = m.automation)
  position : next.position = normalizePosition patch.position existing.position
  events : ∃ id, next.events = appendEvent existing (updateEvent existing next) id now

theorem patchCard_spec {now : ℕ} {next : WorkboardCard}
    (h : patchCard existing patch fresh allow draw now = .ok next) :
    PatchedCard existing patch fresh allow now next := by
  simp only [patchCard, Except.bind_eq_ok] at h
  obtain ⟨status, hstatus, metadata, hmetadata, title, -, notes, -, priority, -, labels, -, hnext⟩ := h
  obtain ⟨m, hm, hfollows, hlifecycle, hautomation⟩ := patchMetadata_spec hmetadata
  have hsync := follows_syncExecutionAttemptMetadata metadata (patchExecution existing patch (draw 0) now) now
  have htrim := agrees_trim (syncExecutionAttemptMetadata metadata (patchExecution existing patch (draw 0) now) now)
  have hkept : (syncExecutionAttemptMetadata metadata (patchExecution existing patch (draw 0) now)
      now).lifecycleStatusSourceUpdatedAt = metadata.lifecycleStatusSourceUpdatedAt ∧
      (syncExecutionAttemptMetadata metadata (patchExecution existing patch (draw 0) now) now).automation =
        metadata.automation := by
    cases patchExecution existing patch (draw 0) now <;> exact ⟨rfl, rfl⟩
  obtain rfl := Except.ok.inj hnext
  exact {
    id := rfl
    createdAt := rfl
    updatedAt := rfl
    status := hstatus
    position := rfl
    metadata := ⟨m, _, hm, (hfollows.trans hsync).trans htrim.follows,
      htrim.lifecycle.trans (hkept.1.trans hlifecycle),
      fun hnone => htrim.automation.trans (hkept.2.trans (hautomation hnone))⟩
    events := ⟨_, rfl⟩ }

end ClawWorks.Workboard
