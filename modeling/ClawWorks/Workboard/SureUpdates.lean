import ClawWorks.Workboard.Reread

/-!
# Updates that succeed

An update that spreads metadata reads it anew, and then follows the execution record with a run that nothing checks
(`WorkboardExecution.Fits`).
-/

namespace ClawWorks.Workboard

open Mutation Option

/-- What the run of an execution record takes from it is within the limits, and dated. -/
structure WorkboardExecution.Fits (e : WorkboardExecution) : Prop where
  model : e.model.text.length ≤ 160
  started : e.startedAt ≠ 0

variable {m : WorkboardMetadata} {now : ℕ}

theorem clean_syncExecutionAttemptMetadata (h : m.Clean)
    {execution : Option WorkboardExecution} (hfits : ∀ e ∈ execution, e.Fits) (hnow : 0 < now) :
    (syncExecutionAttemptMetadata m execution now).Clean := by
  cases execution with
  | none => exact h
  | some e =>
    have hexisting : ∀ a ∈ m.attempts.find? (attemptOf e), a.Clean := fun a ha =>
      h.attempts a (List.mem_of_find?_eq_some ha)
    have hstarted : ((m.attempts.find? (attemptOf e)).map (·.startedAt)).getD e.startedAt ≠ 0 := by
      cases hfind : m.attempts.find? (attemptOf e) with
      | none => exact (hfits e rfl).started
      | some a => exact (hexisting a hfind).started
    have herror : ∀ t ∈ (if executionAttemptStatus e = .succeeded then none
        else (m.attempts.find? (attemptOf e)).bind (·.error)), t.text.length ≤ 800 := by
      intro t ht
      split_ifs at ht with hsucceeded
      · cases ht
      · obtain ⟨a, ha, hat⟩ := bind_eq_some_iff.mp ht
        exact (hexisting a ha).error t hat
    have hended : (if executionAttemptStatus e = .running then none
        else some (if e.updatedAt = 0 then now else e.updatedAt)) ≠ some 0 := by
      split_ifs with hrunning hupdated
      · nofun
      · exact fun hzero => hnow.ne' (some.inj hzero)
      · exact fun hzero => hupdated (some.inj hzero)
    refine { h with
      fits := { h.fits with attempts := length_rtake_le _ _ }
      attempts := fun b hb => ?_ }
    have hmem := (rtake_suffix _ _).subset hb
    have hnext : b ∈ m.attempts ∨ b.Clean := by
      cases hindex : m.attempts.findIdx? (attemptOf e) with
      | some index =>
        rw [hindex] at hmem
        rcases List.mem_or_eq_of_mem_set hmem with hold | rfl
        · exact .inl hold
        · exact .inr ⟨⟨herror, fun t ht => some.inj ht ▸ (hfits e rfl).model⟩, hstarted, hended⟩
      | none =>
        rw [hindex] at hmem
        rcases List.mem_append.mp hmem with hold | hnew
        · exact .inl hold
        · obtain rfl := List.mem_singleton.mp hnew
          exact .inr ⟨⟨herror, fun t ht => some.inj ht ▸ (hfits e rfl).model⟩, hstarted, hended⟩
    exact hnext.elim (h.attempts b) id

/-! ## Updates that succeed -/

/-- A patch of the status, the execution record and the metadata. -/
structure WorkboardCardPatch.Plain (patch : WorkboardCardPatch) : Prop where
  title : patch.title = .undefined := by rfl
  notes : patch.notes = .undefined := by rfl
  labels : patch.labels = .undefined := by rfl
  priority : patch.priority = none := by rfl
  templateId : patch.templateId = none := by rfl
  automation : patch.automation = .none := by rfl
  status : patch.status = none ∨ ∃ status, patch.status = some (.member status)

variable [Platform] {w w' : World} {id : JsString} {c : WorkboardCard} {patch : WorkboardCardPatch}
  {options : UpdateOptions}

theorem exists_patchCard (hplain : patch.Plain) (fresh : Bool) {allow : Bool} {draw : ℕ → NonBlank}
    {base : WorkboardMetadata}
    (hread : normalizeMetadata patch.metadata c.metadata allow (fun i => draw (i + 2)) now = .ok base) :
    ∃ next, patchCard c patch fresh allow draw now = .ok next ∧ next.execution = patchExecution c patch (draw 0) now ∧
      ∃ marked, (marked = base ∨ marked = { base with lifecycleStatusSourceUpdatedAt := none }) ∧
        next.metadata = trimMetadataToBudget
          (syncExecutionAttemptMetadata marked (patchExecution c patch (draw 0) now) now) := by
  obtain ⟨status, hstatus⟩ : ∃ status, patchStatus c patch = .ok status := by
    rcases hplain.status with hnone | ⟨status, hsome⟩
    · exact ⟨c.status, by rw [patchStatus, hnone]; rfl⟩
    · exact ⟨status, by rw [patchStatus, hsome]; rfl⟩
  have hmetadata : patchMetadata c patch status fresh allow (fun i => draw (i + 2)) now =
      .ok (if status ≠ c.status ∧ ¬fresh then { base with lifecycleStatusSourceUpdatedAt := none } else base) := by
    simp only [patchMetadata, hread, patchAutomation, if_pos hplain.automation, hplain.templateId, pure, Except.pure,
      bind, Except.bind, elim_none]
  simp only [patchCard, hstatus, hmetadata, if_pos hplain.title, if_pos hplain.notes, if_pos hplain.labels,
    hplain.priority, elim_none, pure, Except.pure, bind, Except.bind]
  refine ⟨_, rfl, rfl, _, ?_, rfl⟩
  split_ifs
  · exact .inr rfl
  · exact .inl rfl

def TakesWrites : Prop :=
  ∀ cards card, accepts cards card = true

theorem sure_updateCard (htakes : TakesWrites) (hc : w.card id = some c)
    (heffective : effectivePatch c patch = some patch) {P : WorkboardCard → Prop}
    (hpatched : ∀ draw : ℕ → NonBlank, ∃ next,
      patchCard c patch (hasFreshLifecycleStatusSource c patch) options.allowMetadataDependencyLinks draw
        (clock w.reads) = .ok next ∧ P next ∧ (options.enforceStatusHolds → patch.status.isSome →
        assertActiveStatusAllowed w c next (clock w.reads) = .ok ())) :
    (updateCard id patch options).Ensures w (fun next left => left.card id = some next ∧ P next) fun _ => False := by
  have hsucceeds : (updateCard id patch options).Ensures w (fun next _ => P next) fun _ => False := by
    unfold updateCard
    rw [ensures_bind_iff, ensures_requireCard]
    refine ⟨fun c' hc' => ?_, fun hnone => by rw [hc] at hnone; cases hnone⟩
    obtain rfl := mem_unique hc hc'
    simp only [heffective, ensures_bind_iff, ensures_dateNow, ensures_drawIds,
      ensures_monadLift_iff, ensures_view_iff, ensures_lift_iff, ensures_registerCard,
      ensures_pure_iff]
    obtain ⟨next, hnext, hP, hallowed⟩ := hpatched fun i => (uuid (w.minted + i)).val
    refine ⟨fun a ha => ?_, fun e he => by rw [hnext] at he; cases he⟩
    obtain rfl := Except.ok.inj (hnext.symm.trans ha)
    have hcheck : (if options.enforceStatusHolds ∧ patch.status.isSome then
        assertActiveStatusAllowed w c next (clock w.reads) else .ok ()) = .ok () := by
      split_ifs with hboth
      · exact hallowed hboth.1 hboth.2
      · rfl
    refine ⟨fun _ _ => ⟨fun _ => ?_, fun hrejected => ?_⟩, fun e he => ?_⟩
    · unfold deleteDetachedAttachments Mutation.Ensures
      rw [forEach_deleteAttachmentRow]
      exact hP
    · rw [htakes] at hrejected
      cases hrejected
    · cases hcheck.symm.trans he
  exact (hsucceeds.and (updateCard_spec id patch options)).mono (fun next left h => ⟨h.2.1, h.1⟩) fun _ h => h.1

theorem legible_of_updateCard (hc : w.card id = some c) (heffective : effectivePatch c patch = some patch)
    (hmetadata : patch.metadata = .object m.raw) {ok : WorkboardCard → World → Prop}
    (h : (updateCard id patch options).Ensures w ok fun _ => False) : m.Legible := by
  unfold updateCard at h
  rw [ensures_bind_iff, ensures_requireCard] at h
  have hupdate := h.1 c hc
  simp only [heffective, ensures_bind_iff, ensures_dateNow, ensures_drawIds, ensures_monadLift_iff]
    at hupdate
  obtain ⟨next, hnext⟩ : ∃ next, patchCard c patch (hasFreshLifecycleStatusSource c patch)
      options.allowMetadataDependencyLinks (fun i => (uuid (w.minted + i)).val) (clock w.reads) = .ok next := by
    cases hresult : patchCard c patch (hasFreshLifecycleStatusSource c patch) options.allowMetadataDependencyLinks
      (fun i => (uuid (w.minted + i)).val) (clock w.reads) with
    | ok next => exact ⟨next, rfl⟩
    | error e => exact (hupdate.2 e hresult).elim
  obtain ⟨base, draw, hread, -⟩ := (patchCard_spec hnext).metadata
  rw [hmetadata] at hread
  exact legible_of_normalizeMetadata hread

/-- A card that the next write reads as it is. -/
structure Keeps (c : WorkboardCard) : Prop where
  clean : c.metadata.Clean
  trimmed : trimMetadataToBudget c.metadata = c.metadata
  execution : ∀ e ∈ c.execution, e.Fits

theorem sure_update (htakes : TakesWrites) (hsizes : SizesShrink) (hc : w.card id = some c) (hplain : patch.Plain)
    (heffective : effectivePatch c patch = some patch)
    (hread : ∀ fresh : ℕ → NonBlank, ∃ base, normalizeMetadata patch.metadata c.metadata
      options.allowMetadataDependencyLinks fresh (clock w.reads) = .ok base ∧ base.Clean)
    (hfits : ∀ fresh, ∀ e ∈ patchExecution c patch fresh (clock w.reads), e.Fits)
    (hallowed : options.enforceStatusHolds → patch.status.isSome → ∀ next,
      PatchedCard c patch (hasFreshLifecycleStatusSource c patch) options.allowMetadataDependencyLinks (clock w.reads)
        next → assertActiveStatusAllowed w c next (clock w.reads) = .ok ()) :
    (updateCard id patch options).Ensures w (fun next left => left.card id = some next ∧ Keeps next)
      fun _ => False := by
  refine sure_updateCard htakes hc heffective fun draw => ?_
  obtain ⟨base, hbase, hclean⟩ := hread fun i => draw (i + 2)
  obtain ⟨next, hnext, hexecution, marked, hmarked, hmetadata⟩ := exists_patchCard hplain
    (hasFreshLifecycleStatusSource c patch) hbase
  have hmarkedClean : marked.Clean := by
    rcases hmarked with rfl | rfl
    · exact hclean
    · exact ⟨⟨hclean.fits.1, hclean.fits.2, hclean.fits.3, hclean.fits.4, hclean.fits.5, hclean.fits.6, hclean.fits.7,
        hclean.fits.8, hclean.fits.9⟩, hclean.attempts, hclean.notifications, hclean.workerLogs, hclean.automation⟩
  refine ⟨next, hnext, ⟨?_, ?_, ?_⟩, fun henforce hstatus => hallowed henforce hstatus next (patchCard_spec hnext)⟩
  · rw [hmetadata]
    exact (agrees_trim _).clean
      (clean_syncExecutionAttemptMetadata hmarkedClean (hfits (draw 0)) (Platform.clock_pos _))
  · rw [hmetadata]
    exact trim_trimMetadataToBudget hsizes _
  · rw [hexecution]
    exact hfits (draw 0)

def Allowed (w : World) (c : WorkboardCard) (status : WorkboardStatus) (now : ℕ) : Prop :=
  assertActiveStatusAllowed w c { c with status } now = .ok ()

omit [Platform] in
theorem Allowed.next {status : WorkboardStatus} (h : Allowed w c status now) (hcards : w'.cards = w.cards)
    {next : WorkboardCard} (hstatus : next.status = status) (hlinks : next.metadata.links ⊆ c.metadata.links)
    (hscheduled : status = .done ∨ next.metadata.scheduledAt = c.metadata.scheduledAt) :
    assertActiveStatusAllowed w' c next now = .ok () := by
  have hparents : ∀ parentId ∈ cardParentIds next, parentId ∈ cardParentIds c := by
    intro parentId hparent
    simp only [cardParentIds, linkTargets, List.mem_eraseDups, List.mem_filterMap, List.mem_filter] at hparent ⊢
    obtain ⟨link, ⟨hlink, htype⟩, htarget⟩ := hparent
    exact ⟨link, ⟨hlinks hlink, htype⟩, htarget⟩
  unfold Allowed assertActiveStatusAllowed at h
  unfold assertActiveStatusAllowed
  rw [hstatus]
  dsimp only at h
  split_ifs at h with hactive hdone hstatusDone hschedule
  · rw [if_pos hactive, if_pos ?_, if_pos hstatusDone]
    refine List.all_eq_true.mpr fun parentId hparent => ?_
    rw [World.card_congr hcards]
    exact List.all_eq_true.mp hdone parentId (hparents parentId hparent)
  · rw [if_pos hactive, if_pos ?_, if_neg hstatusDone, hscheduled.resolve_left hstatusDone, if_neg hschedule]
    refine List.all_eq_true.mpr fun parentId hparent => ?_
    rw [World.card_congr hcards]
    exact List.all_eq_true.mp hdone parentId (hparents parentId hparent)
  · rw [if_neg hactive]

/-- An update that a call makes: the metadata it spreads keeps the links and the schedule of the card. -/
structure Spreads (c : WorkboardCard) (patch : WorkboardCardPatch) (m : WorkboardMetadata) : Prop where
  plain : patch.Plain
  metadata : patch.metadata = .object m.raw
  lifecycle : m.lifecycleStatusSourceUpdatedAt = c.metadata.lifecycleStatusSourceUpdatedAt
  links : m.links = c.metadata.links
  automation : m.automation = c.metadata.automation ∨ patch.status = some (.member .done)

omit [Platform] in
theorem Spreads.effective (h : Spreads c patch m) : effectivePatch c patch = some patch := by
  refine effectivePatch_eq_some fun sourceUpdatedAt hmem => ?_
  rw [h.metadata, show m.raw = { m.raw with archivedAt := m.raw.archivedAt } from rfl,
    lifecycleStatusSourceUpdatedAtFromPatch_raw, h.lifecycle] at hmem
  exact hmem

theorem Spreads.kept (h : Spreads c patch m) {fresh : Bool} {next : WorkboardCard}
    (hpatched : PatchedCard c patch fresh true now next) :
    next.metadata.links ⊆ c.metadata.links ∧
      (patch.status = some (.member .done) ∨ next.metadata.scheduledAt = c.metadata.scheduledAt) := by
  obtain ⟨read, draw, hread, hfollows, -, hautomation⟩ := hpatched.metadata
  rw [h.metadata] at hread
  obtain ⟨base, hbase, rfl⟩ := normalizeMetadata_object hread
  have hspread : SpreadAs m c.metadata base := ReadAs.spread hbase
  refine ⟨?_, h.automation.symm.imp_right fun hsame => ?_⟩
  · rw [← h.links]
    have hlinks := hspread.links
    have hsuffix : base.links ⊆ m.links := by
      rw [hlinks]
      exact (rtake_suffix _ _).subset
    exact List.Subset.trans hfollows.links.subset (List.Subset.trans (agrees_trim base).links.subset hsuffix)
  · have hnext : next.metadata.automation = base.automation :=
      (hautomation h.plain.automation).trans (agrees_trim base).automation
    rw [WorkboardMetadata.scheduledAt, WorkboardMetadata.scheduledAt, hnext]
    have hread' := hspread.automation
    rw [hsame] at hread'
    cases hc : c.metadata.automation with
    | none =>
      rw [hc] at hread'
      rw [← Except.ok.inj hread']
    | some a =>
      rw [hc] at hread'
      exact scheduledAt_normalizeAutomation hread' rfl

theorem Spreads.sure (h : Spreads c patch m) (htakes : TakesWrites) (hsizes : SizesShrink)
    (hc : w.card id = some c) (hallow : options.allowMetadataDependencyLinks) (hlegible : m.Legible)
    (hautomation : m.automation = none → c.metadata.automation ≠ some .empty)
    (hfits : ∀ fresh, ∀ e ∈ patchExecution c patch fresh (clock w.reads), e.Fits)
    (hallowed : options.enforceStatusHolds → ∀ status, patch.status = some (.member status) →
      Allowed w c status (clock w.reads)) :
    (updateCard id patch options).Ensures w (fun next left => left.card id = some next ∧ Keeps next)
      fun _ => False := by
  refine sure_update htakes hsizes hc h.plain h.effective (fun fresh => ?_) hfits
    fun henforce hstatus next hpatched => ?_
  · obtain ⟨base, hbase, hclean⟩ := exists_normalizeMetadata hlegible hautomation fresh (clock w.reads)
    rw [h.metadata, hallow]
    exact ⟨_, hbase, (agrees_trim base).clean hclean⟩
  · rw [hallow] at hpatched
    obtain ⟨hlinks, hscheduled⟩ := h.kept hpatched
    obtain ⟨status, hmember⟩ := h.plain.status.resolve_left fun hnone => by rw [hnone] at hstatus; cases hstatus
    have hnext : next.status = status := by
      have hpatch := hpatched.status
      rw [patchStatus, hmember] at hpatch
      exact (Except.ok.inj hpatch).symm
    refine (hallowed henforce status hmember).next rfl hnext hlinks (hscheduled.imp_left fun hdone => ?_)
    rw [hmember] at hdone
    cases hdone
    rfl

theorem sure_promoteDependencyReady (htakes : TakesWrites) (hsizes : SizesShrink) (hc : w.card id = some c)
    (hkeeps : Keeps c) (now : ℕ) :
    (promoteDependencyReady id now).Ensures w (fun next left => left.card id = some next ∧ Keeps next)
      fun _ => False := by
  unfold promoteDependencyReady
  rw [ensures_bind_iff, ensures_requireCard]
  refine ⟨fun c' hc' => ?_, fun hnone => by rw [hc] at hnone; cases hnone⟩
  obtain rfl := mem_unique hc hc'
  rw [ensures_bind_iff, ensures_view_iff]
  split_ifs
  · exact ⟨hc, hkeeps⟩
  have hid : w.card c.id.val.text = some c := (World.card_of_card hc).trans hc
  have hplain : ({ status := some (.member (dependencyTargetStatus w c now)) } : WorkboardCardPatch).Plain :=
    { status := .inr ⟨_, rfl⟩ }
  refine (sure_update htakes hsizes hid hplain
    (effectivePatch_eq_some fun _ hmem => (not_mem_none _ hmem).elim) (fun fresh => ?_)
    (fun _ => hkeeps.execution) fun henforce _ _ _ => absurd henforce Bool.false_ne_true).mono
    (fun next left h => ?_) fun _ h => h
  · exact ⟨trimMetadataToBudget c.metadata, rfl, (agrees_trim _).clean hkeeps.clean⟩
  · rw [World.card_of_card hc] at h
    exact h

end ClawWorks.Workboard
