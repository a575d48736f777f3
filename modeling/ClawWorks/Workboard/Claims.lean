import ClawWorks.Workboard.Traces

/-!
# Claims

What operations without metadata of the caller make of a claim (`claim_cases`): it stays, goes, is beaten or is made by
`claim`. So every claim ends at a date, and its lease keeps its length.
-/

namespace ClawWorks.Workboard

open World Wrote

/-! ## Leases -/

theorem addWorkboardDurationMs_eq (now durationMs : ℕ) :
    addWorkboardDurationMs now durationMs = min MAX_DATE_TIMESTAMP_MS (now + durationMs) := by
  unfold addWorkboardDurationMs
  split
  · rw [min_eq_right ‹_›]
  · rw [min_eq_left (by omega)]

def Dated (claim : WorkboardClaim) : Prop :=
  ∃ expiresAt ∈ claim.expiresAt, expiresAt.val ≤ MAX_DATE_TIMESTAMP_MS

/-- The claim ends a lease of `durationMs` after its last beat, or with the last date. -/
structure Leased (durationMs : ℕ) (claim : WorkboardClaim) : Prop where
  claimedAt : claim.claimedAt.val ≤ claim.lastHeartbeatAt.val
  expiresAt : ∃ expiresAt ∈ claim.expiresAt,
    expiresAt.val = min MAX_DATE_TIMESTAMP_MS (claim.lastHeartbeatAt.val + durationMs)

theorem dated_newClaim (ownerId : Bounded 120) (token : Bounded 160) (now : Positive) (durationMs : ℕ) :
    Dated (newClaim ownerId token now durationMs) := by
  refine ⟨_, rfl, ?_⟩
  show addWorkboardDurationMs now.val durationMs ≤ _
  rw [addWorkboardDurationMs_eq]
  exact min_le_left _ _

theorem Dated.beat {claim : WorkboardClaim} (h : Dated claim) (now : Positive) : Dated (beat claim now) := by
  obtain ⟨expiresAt, hmem, -⟩ := h
  refine ⟨_, Option.mem_map_of_mem _ hmem, ?_⟩
  show addWorkboardDurationMs now.val (leaseMs claim expiresAt.val) ≤ _
  rw [addWorkboardDurationMs_eq]
  exact min_le_left _ _

theorem leased_newClaim (ownerId : Bounded 120) (token : Bounded 160) (now : Positive) (durationMs : ℕ) :
    Leased durationMs (newClaim ownerId token now durationMs) where
  claimedAt := le_rfl
  expiresAt := ⟨_, rfl, addWorkboardDurationMs_eq _ _⟩

theorem Leased.beat {durationMs : ℕ} (hpos : 0 < durationMs) {claim : WorkboardClaim} (h : Leased durationMs claim)
    {now : Positive} (hlater : claim.lastHeartbeatAt.val < now.val) : Leased durationMs (beat claim now) where
  claimedAt := h.claimedAt.trans hlater.le
  expiresAt := by
    obtain ⟨expiresAt, hmem, hexpires⟩ := h.expiresAt
    refine ⟨_, Option.mem_map_of_mem _ hmem, ?_⟩
    have hclaimed := h.claimedAt
    show addWorkboardDurationMs now.val (leaseMs claim expiresAt.val) = min _ (now.val + durationMs)
    rw [addWorkboardDurationMs_eq, leaseMs, hexpires]
    have hdefault : 0 < DEFAULT_CLAIM_TTL_MS := by decide
    -- below the last date the lease is read off the claim; from there on every sum is cut to it
    split <;> omega

theorem claimDurationMs_pos (ttlSeconds : Unknown) : 0 < claimDurationMs ttlSeconds := by
  unfold claimDurationMs
  split
  · unfold secondsToDurationMs
    have hmax : 0 < MAX_DATE_TIMESTAMP_MS := by decide
    omega
  · decide

theorem quietly {α β : Type} {w : World} {p : Step α} {step : α → Step β} {Q : α → World → Prop} {ok : β → World → Prop}
    (hp : Quiet p w Q) (hnext : ∀ a w1, Calm w w1 → Q a w1 → (step a).Ensures w1 ok fun _ => True) :
    (p >>= step).Ensures w ok fun _ => True :=
  Mutation.ensures_bind_iff.mpr (hp.mono (fun a w1 h => hnext a w1 h.1 h.2) fun _ _ => trivial)

theorem claimRefused_ok {guarded : WorkboardCard} {now : ℕ} (h : claimRefused guarded now = .ok ())
    {claim : WorkboardClaim} (hclaim : guarded.metadata.claim = some claim) :
    isFutureDateTimestampMs claim.expiresAt now = false := by
  simp only [claimRefused, hclaim] at h
  split_ifs at h with _ _ _ hfuture
  simpa using hfuture

/-- No metadata comes from the caller. -/
def Operation.NoMetadata : Operation → Prop
  | .create input _ => input.metadata = .undefined
  | .update _ patch => patch.metadata = .undefined
  | .specify _ input _ _ => input.metadata = .undefined
  | .decompose _ input _ => ∀ child ∈ input.children, ∀ patch ∈ child, patch.metadata = .undefined
  | .bulkUpdate _ patch _ => patch.metadata = .undefined
  | _ => True

def Operation.Claims (k : CardId) : Operation → Prop
  | .claim id _ => k.val.text = trim id
  | _ => False

def withoutMetadata (claims : CardId → Prop) : Extent where
  claims := claims
  patches := fun patch => patch.metadata = .undefined
  forced := true

theorem Operation.NoMetadata.within {claims : CardId → Prop} {op : Operation} (h : op.NoMetadata)
    (hclaims : ∀ k, op.Claims k → claims k) : op.Within (withoutMetadata claims) := by
  cases op with
  | claim id input => exact fun k hk => hclaims k hk
  | promote id force reason scope => exact fun _ => rfl
  | decompose id input scope => exact fun _ child hchild patch hpatch _ => h child hchild patch hpatch
  | create input scope => exact h
  | update id patch => exact h
  | bulkUpdate ids patch archived => exact h
  | move id status position => exact rfl
  | _ => trivial

theorem lifecycleStatusSourceUpdatedAtFromPatch_raw (m : WorkboardMetadata) (archivedAt : Option Unknown) :
    lifecycleStatusSourceUpdatedAtFromPatch (.object { m.raw with archivedAt }) = m.lifecycleStatusSourceUpdatedAt := by
  show (m.lifecycleStatusSourceUpdatedAt.map rawNumber).map (fun value => normalizeTimestamp value 0) = _
  cases m.lifecycleStatusSourceUpdatedAt with
  | none => rfl
  | some updatedAt => simp

theorem effectivePatch_eq_some {c : WorkboardCard} {patch : WorkboardCardPatch}
    (h : ∀ sourceUpdatedAt ∈ lifecycleStatusSourceUpdatedAtFromPatch patch.metadata,
      c.metadata.lifecycleStatusSourceUpdatedAt = some sourceUpdatedAt) :
    effectivePatch c patch = some patch := by
  unfold effectivePatch
  refine if_neg fun hskip => ?_
  obtain ⟨sourceUpdatedAt, hmem, hskip⟩ := (Option.any_eq_true _ _).mp hskip.2
  simp [shouldSkipPersistedLifecycleStatusUpdate, h sourceUpdatedAt hmem] at hskip

section

variable [Platform] {e : Extent} {start w w' left : World} {c next : WorkboardCard} {patch : WorkboardCardPatch}
  {options : UpdateOptions}

section

variable (h : Updated w c patch options next left)

include h

theorem Updated.patchedCard (heffective : effectivePatch c patch = some patch) :
    PatchedCard c patch (hasFreshLifecycleStatusSource c patch) options.allowMetadataDependencyLinks (clock w.reads)
      next := by
  obtain ⟨effective, draw, heff, hnext, -⟩ := h.patched
  obtain rfl := Option.mem_unique heffective heff
  exact patchCard_spec hnext

theorem Updated.spread {m : WorkboardMetadata} {archivedAt : Option Unknown}
    (hallow : options.allowMetadataDependencyLinks) (hmetadata : patch.metadata = .object { m.raw with archivedAt })
    (hlifecycle : m.lifecycleStatusSourceUpdatedAt = c.metadata.lifecycleStatusSourceUpdatedAt) :
    ∃ base, SpreadAs m c.metadata base ∧ Follows base next.metadata := by
  have hpatched := h.patchedCard (effectivePatch_eq_some fun sourceUpdatedAt hmem => by
    rw [hmetadata, lifecycleStatusSourceUpdatedAtFromPatch_raw, hlifecycle] at hmem
    exact hmem)
  obtain ⟨read, draw, hread, hfollows, -⟩ := hpatched.metadata
  rw [hmetadata, hallow] at hread
  obtain ⟨base, hbase, rfl⟩ := normalizeMetadata_object hread
  exact ⟨base, hbase.spread, (agrees_trim base).follows.trans hfollows⟩

theorem Updated.kept (hmetadata : patch.metadata = .undefined) : Follows c.metadata next.metadata := by
  have hpatched := h.patchedCard (effectivePatch_eq_some fun sourceUpdatedAt hmem => by
    rw [hmetadata] at hmem
    cases hmem)
  obtain ⟨read, draw, hread, hfollows, -⟩ := hpatched.metadata
  rw [hmetadata] at hread
  obtain rfl := Except.ok.inj hread
  exact (agrees_trim c.metadata).follows.trans hfollows

end

theorem claim_cases (hplain : ∀ patch, e.patches patch → patch.metadata = .undefined)
    (hends : ∀ claim ∈ c.metadata.claim, claim.expiresAt.isSome) (amendment : Amendment e w w' c patch options)
    (updated : Updated w' c patch options next left) :
    next.metadata.claim = c.metadata.claim ∨ next.metadata.claim = none ∨
      (∃ held now, c.metadata.claim = some held ∧ held.lastHeartbeatAt.val < now.val ∧
        next.metadata.claim = some (beat held now)) ∨ (e.claims c.id ∧ ∃ ownerId token now durationMs,
        next.metadata.claim = some (newClaim ownerId token now durationMs)) := by
  cases amendment with
  | updated h => exact .inl (updated.kept (hplain _ h)).claim
  | @amended _ hold m archivedAt metadata amends automation status =>
    have hnext : (∀ claim ∈ m.claim, claim.expiresAt.isSome) → next.metadata.claim = m.claim := fun h => by
      obtain ⟨base, hbase, hfollows⟩ := updated.spread rfl metadata amends.lifecycle
      rw [hfollows.claim, hbase.claim h]
    rcases amends.claim with hsame | hnone | ⟨held, now, hheld, hlater, hbeat⟩
    · rw [hsame] at hnext
      exact .inl (hnext hends)
    · rw [hnone] at hnext
      exact .inr (.inl (hnext nofun))
    · rw [hbeat] at hnext
      refine .inr (.inr (.inl ⟨held, now, hheld, hlater, hnext fun claim hclaim => ?_⟩))
      obtain rfl := Option.some.inj hclaim
      simpa [beat] using hends held hheld
  | linked ordinary appended | attached attachment =>
    obtain ⟨base, hbase, hfollows⟩ := updated.spread rfl rfl rfl
    exact .inl (hfollows.claim.trans (hbase.claim hends))
  | @dependency _ snapshot other links same isDependency linked | @unreferenced snapshot same id =>
    have hclaim : snapshot.metadata.claim = c.metadata.claim := congrArg (·.metadata.claim) same
    obtain ⟨base, hbase, hfollows⟩ := updated.spread rfl rfl (congrArg (·.metadata.lifecycleStatusSourceUpdatedAt) same)
    exact .inl ((hfollows.claim.trans (hbase.claim (hclaim ▸ hends))).trans hclaim)
  | claimed may ownerId token now durationMs =>
    obtain ⟨base, hbase, hfollows⟩ := updated.spread rfl rfl rfl
    refine .inr (.inr (.inr ⟨may, ownerId, token, now, durationMs, hfollows.claim.trans (hbase.claim ?_)⟩))
    intro claim hclaim
    obtain rfl := Option.some.inj hclaim
    rfl
  | started may agentId | promoted now => exact .inl (updated.kept rfl).claim

variable {card : WorkboardCard}

theorem Created.unclaimed (hplain : ∀ patch, e.patches patch → patch.metadata = .undefined)
    (h : Created e w card) : card.metadata.claim = none := by
  obtain ⟨cards, input, status, automation, held, draw, now, hinput, hcard⟩ := h.made
  simp only [newCard, Except.bind_eq_ok] at hcard
  obtain ⟨notes, -, metadata, hmetadata, title, -, priority, -, labels, -, hcard⟩ := hcard
  rw [hplain input hinput] at hmetadata
  obtain rfl := Except.ok.inj hmetadata
  refine (congrArg (·.metadata.claim) (Except.ok.inj hcard)).symm.trans ?_
  exact (((agrees_trim _).follows.trans (follows_syncExecutionAttemptMetadata _ _ _)).trans
    (agrees_trim _).follows).claim

theorem invariant_of_claims {Q : CardId → WorkboardClaim → Prop}
    (hplain : ∀ patch, e.patches patch → patch.metadata = .undefined)
    (hends : ∀ k claim, Q k claim → claim.expiresAt.isSome)
    (hbeat : ∀ k (held : WorkboardClaim) (now : Positive), Q k held → held.lastHeartbeatAt.val < now.val →
      Q k (beat held now))
    (hnew : ∀ k, e.claims k → ∀ ownerId token now durationMs, Q k (newClaim ownerId token now durationMs)) :
    Invariant e fun c => ∀ claim ∈ c.metadata.claim, Q c.id claim where
  updated := by
    intro w w' left c next patch options _ _ amendment updated hQ claim hclaim
    rw [updated.written.2]
    rcases claim_cases hplain (fun claim h => hends _ claim (hQ claim h)) amendment updated with
      hsame | hnone | ⟨held, now, hheld, hlater, hbeaten⟩ | ⟨may, ownerId, token, now, durationMs, hmade⟩
    · exact hQ claim (hsame ▸ hclaim)
    · rw [hnone] at hclaim
      cases hclaim
    · obtain rfl := Option.mem_unique hbeaten hclaim
      exact hbeat _ held now (hQ held hheld) hlater
    · obtain rfl := Option.mem_unique hmade hclaim
      exact hnew _ may _ _ _ _
  recorded := by
    intro c next records hQ claim hclaim
    rw [records.claim fun claim h => hends _ claim (hQ claim h)] at hclaim
    rw [records.id]
    exact hQ claim hclaim
  created := by
    intro w card new claim hclaim
    rw [new.unclaimed hplain] at hclaim
    cases hclaim
  dropped := fun _ h => h

theorem updateCard_spec (id : JsString) (patch : WorkboardCardPatch) (options : UpdateOptions) :
    (updateCard id patch options).Ensures w (fun next left => left.card id = some next ∧ ∃ c, w.card id = some c ∧
      ((effectivePatch c patch = none ∧ next = c) ∨ Updated w c patch options next left)) fun _ => True := by
  refine ensures_updateCard (fun _ => trivial) (fun c hc hnone => ⟨hc, c, hc, .inl ⟨hnone, rfl⟩⟩)
    (fun _ _ => trivial) (fun c next w' hc hupdated => ⟨?_, c, hc, .inr hupdated⟩)
  obtain ⟨hmem, hid⟩ := hupdated.written
  exact card_eq_some_iff.mpr ⟨hmem, hid ▸ (card_eq_some_iff.mp hc).2⟩

theorem updateCard_keeps_claim {id : JsString} (hmetadata : patch.metadata = .undefined) :
    (updateCard id patch options).Ensures w (fun next left => left.card id = some next ∧
      ∃ c, w.card id = some c ∧ next.metadata.claim = c.metadata.claim) fun _ => True := by
  refine (updateCard_spec id patch options).mono (fun next left h => ?_) fun _ h => h
  obtain ⟨hleft, c, hc, ⟨-, rfl⟩ | hupdated⟩ := h
  · exact ⟨hleft, next, hc, rfl⟩
  · exact ⟨hleft, c, hc, (hupdated.kept hmetadata).claim⟩

theorem promoteDependencyReady_keeps_claim {id : JsString} {now : ℕ} :
    (promoteDependencyReady id now).Ensures w (fun next left => left.card id = some next ∧
      ∃ c, w.card id = some c ∧ next.metadata.claim = c.metadata.claim) fun _ => True := by
  refine quietly quiet_requireCard fun c w1 _ hc => ?_
  obtain ⟨hc, rfl⟩ := hc
  refine quietly quiet_view fun target w2 _ htarget => ?_
  obtain ⟨rfl, rfl⟩ := htarget
  split
  · exact ⟨hc, c, hc, rfl⟩
  · refine (updateCard_keeps_claim rfl).mono (fun next left h => ?_) fun _ h => h
    rw [card_of_card hc, card_of_card hc] at h
    exact h

/-- **A claim that succeeds** finds no claim that has not expired, and leaves its own. -/
theorem claim_spec (id : JsString) (input : WorkboardClaimInput)
    (hdated : ∀ c ∈ w.cards, ∀ claim ∈ c.metadata.claim, Dated claim) : (claim id input).Ensures w (fun result left =>
      (∀ c, w.card id = some c → ∀ claim ∈ c.metadata.claim, ∃ expiresAt ∈ claim.expiresAt,
        expiresAt.val ≤ clock w.reads) ∧
      left.card id = some result.1 ∧ ∃ ownerId now,
        result.1.metadata.claim = some (newClaim ownerId result.2 now (claimDurationMs input.ttlSeconds)))
      fun _ => True := by
  refine quietly quiet_monadLift fun ownerId w1 _ h1 => ?_
  obtain rfl := h1.2
  cases ownerId with
  | none => exact trivial
  | some ownerId =>
    refine quietly quiet_claimToken fun token w2 hcalm2 hreads => ?_
    refine quietly quiet_dateNow fun now w3 hcalm3 hnow => ?_
    have hcalm := hcalm2.trans hcalm3
    refine Mutation.ensures_bind promoteDependencyReady_keeps_claim fun guarded w4 hguarded => ?_
    obtain ⟨hfound, c, hc, hkept⟩ := hguarded
    rw [hcalm.card] at hc
    refine quietly quiet_lift fun _ w5 hcalm5 hallowed => ?_
    have hexpired : ∀ claim ∈ c.metadata.claim, ∃ expiresAt ∈ claim.expiresAt, expiresAt.val ≤ clock w1.reads := by
      intro claim hclaim
      obtain ⟨expiresAt, hmem, hdate⟩ := hdated c (card_eq_some_iff.mp hc).1 claim hclaim
      have hnot := claimRefused_ok hallowed.1 (hkept.trans hclaim)
      rw [Option.mem_def.mp hmem, hnow, hreads] at hnot
      refine ⟨expiresAt, hmem, ?_⟩
      simp [isFutureDateTimestampMs] at hnot
      omega
    refine Mutation.ensures_bind (updateCard_spec _ _ _) fun card w6 hcard => ?_
    obtain ⟨hfound6, c', hc', hwrote⟩ := hcard
    obtain rfl := Option.mem_unique hfound ((hcalm5.card id).symm.trans hc')
    have hclaimed : card.metadata.claim = some (newClaim ownerId token now (claimDurationMs input.ttlSeconds)) := by
      rcases hwrote with ⟨hnone, -⟩ | hupdated
      · refine absurd (hnone.symm.trans (effectivePatch_eq_some fun sourceUpdatedAt hmem => ?_)) nofun
        exact (lifecycleStatusSourceUpdatedAtFromPatch_raw _ guarded.metadata.raw.archivedAt).symm.trans hmem
      · obtain ⟨base, hbase, hfollows⟩ := hupdated.spread rfl rfl rfl
        refine hfollows.claim.trans (hbase.claim fun claim hclaim => ?_)
        obtain rfl := Option.some.inj hclaim
        rfl
    refine Mutation.ensures_bind (updateCard_keeps_claim rfl) fun next w7 hnext => ?_
    obtain ⟨hfound7, c6, hc6, hsame⟩ := hnext
    rw [card_of_card hfound6] at hfound7 hc6
    obtain rfl := Option.mem_unique hfound6 hc6
    refine ⟨fun c0 hc0 => ?_, hfound7, ownerId, now, hsame.trans hclaimed⟩
    obtain rfl := Option.mem_unique hc hc0
    exact hexpired

theorem dated_after {run : List Operation} (hrun : ∀ op ∈ run, op.NoMetadata)
    (hstart : ∀ c ∈ w.cards, ∀ claim ∈ c.metadata.claim, Dated claim) :
    ∀ c ∈ (w.after run).cards, ∀ claim ∈ c.metadata.claim, Dated claim :=
  Steps.forall_cards (e := withoutMetadata fun _ => True) (invariant_of_claims (Q := fun _ => Dated) (fun _ h => h)
      (fun _ _ ⟨_, h, _⟩ => Option.isSome_of_mem h)
      (fun _ _ now h _ => h.beat now) fun _ _ _ _ _ _ => dated_newClaim _ _ _ _)
    (steps_after (fun _ => trivial) fun op hop => (hrun op hop).within fun _ _ => trivial) hstart

theorem leased_after {run : List Operation} {k : CardId} {durationMs : ℕ} (hpos : 0 < durationMs)
    (hrun : ∀ op ∈ run, op.NoMetadata ∧ ¬op.Claims k)
    (hdated : ∀ c ∈ w.cards, ∀ claim ∈ c.metadata.claim, Dated claim)
    (hstart : ∀ c ∈ w.cards, c.id = k → ∀ claim ∈ c.metadata.claim, Leased durationMs claim) :
    ∀ c ∈ (w.after run).cards, c.id = k → ∀ claim ∈ c.metadata.claim, Leased durationMs claim := by
  have hinvariant : Invariant (withoutMetadata (· ≠ k)) fun c => ∀ claim ∈ c.metadata.claim,
      Dated claim ∧ (c.id = k → Leased durationMs claim) :=
    invariant_of_claims (Q := fun j claim => Dated claim ∧ (j = k → Leased durationMs claim)) (fun _ h => h)
      (fun _ _ h => Option.isSome_of_mem h.1.choose_spec.1)
      (fun j held now h hlater => ⟨h.1.beat now, fun hj => (h.2 hj).beat hpos hlater⟩)
      (fun j hj _ _ _ _ => ⟨dated_newClaim _ _ _ _, fun hk => absurd hk hj⟩)
  have hsteps : Steps (withoutMetadata (· ≠ k)) w (w.after run) :=
    steps_after (fun _ => trivial) fun op hop => (hrun op hop).1.within fun j hj hjk => (hrun op hop).2 (hjk ▸ hj)
  intro c hc hk claim hclaim
  exact (Steps.forall_cards hinvariant hsteps
    (fun c hc claim hclaim => ⟨hdated c hc claim hclaim, fun hk => hstart c hc hk claim hclaim⟩) c hc claim hclaim).2 hk

/-! ## Operations on behalf of a scope -/

def Operation.scope : Operation → Option WorkboardMutationScope
  | .create _ scope | .linkCards _ _ scope | .addComment _ _ scope | .addProof _ _ scope
  | .addProofWithArtifact _ _ _ scope | .addArtifact _ _ scope | .addAttachment _ _ scope
  | .deleteAttachment _ _ scope | .addWorkerLog _ _ scope | .recordProtocolViolation _ _ scope | .unblock _ scope
  | .promote _ _ _ scope | .reassign _ _ scope | .reclaim _ _ scope | .specify _ _ _ scope => scope
  | .complete _ input scope => scopeOr scope ⟨input.ownerId, input.token⟩
  | .block _ input scope => scopeOr scope ⟨input.ownerId, input.token⟩
  | .decompose _ _ scope => scope.getD none
  | _ => none

/-- An id that is drawn from now on is not the id of a card, and no link leads to it. -/
structure FreshIds (w : World) : Prop where
  cards : ∀ c ∈ w.cards, ∀ n, w.minted ≤ n → uuid n ≠ c.id
  links : ∀ c ∈ w.cards, ∀ n, w.minted ≤ n → ¬Refers c (uuid n).val.text

def others (k : CardId) : Extent where
  touches := (· ≠ k)
  claims := fun _ => True
  patches := fun _ => True
  forced := true

theorem reach_others (hfresh : FreshIds w) {scope : WorkboardMutationScope}
    {claim : WorkboardClaim} (hcard : card ∈ w.cards) (hclaim : card.metadata.claim = some claim)
    (hscope : matchesClaim scope claim = false) : Reach (others card.id) w (some scope) := by
  have hsame : ∀ {w1 : World} {c : WorkboardCard}, Steps (others card.id) w w1 → c ∈ w1.cards → c.id = card.id →
      c.core = card.core := by
    intro w1 c hsteps hc hid
    have hboard := hsteps.frame (k := card.id) fun h => h rfl
    rw [board_of_mem hcard, ← hid, board_of_mem hc] at hboard
    exact Option.some.inj hboard
  refine ⟨fun hsteps id c hc hallowed hid => ?_, fun n hn => hfresh.cards card hcard n hn,
    fun hsteps hn c hc hrefers hid => ?_⟩
  · have hcore := hsame hsteps (card_eq_some_iff.mp hc).1 hid
    have hheld : c.metadata.claim = some claim := (congrArg (·.metadata.claim) hcore).trans hclaim
    simp [assertCanMutateClaimedCard, hheld, hscope] at hallowed
  · have hlinks : c.metadata.links = card.metadata.links := congrArg (·.metadata.links) (hsame hsteps hc hid)
    refine hfresh.links card hcard _ hn ?_
    rw [Refers, hlinks] at hrefers
    exact hrefers

/-- **An operation on behalf of a scope** leaves a card that another worker claims as it was. -/
theorem Operation.board_of_scope (hfresh : FreshIds w) {op : Operation}
    {scope : WorkboardMutationScope} {claim : WorkboardClaim} (hscoped : op.scope = some scope) (hcard : card ∈ w.cards)
    (hclaim : card.metadata.claim = some claim) (hscope : matchesClaim scope claim = false) :
    (w.step op).board card.id = w.board card.id := by
  have hreach := reach_others hfresh hcard hclaim hscope
  have hmay : ∀ {id}, MayTouch (others card.id) w id (some scope) := hreach.mine .refl _
  refine Steps.frame (e := others card.id) ?_ fun h => h rfl
  refine Mutation.Ensures.after (p := op.run) ?_
  cases op with
  | create input scope' =>
    obtain rfl : scope' = some scope := hscoped
    exact ensures_discard ((steps_createDirect hreach trivial .refl).mono (fun _ _ h => h.1) fun _ h => h)
  | linkCards parentId childId scope' =>
    obtain rfl : scope' = some scope := hscoped
    exact discard (steps_linkCards hreach)
  | addComment id body scope' =>
    obtain rfl : scope' = some scope := hscoped
    exact discard (steps_addComment hmay)
  | addProof id input scope' =>
    obtain rfl : scope' = some scope := hscoped
    exact discard (steps_addProof hmay)
  | addProofWithArtifact id proof artifact scope' =>
    obtain rfl : scope' = some scope := hscoped
    exact discard (steps_addProofWithArtifact hmay)
  | addArtifact id input scope' =>
    obtain rfl : scope' = some scope := hscoped
    exact discard (steps_addArtifact hmay)
  | addAttachment id input scope' =>
    obtain rfl : scope' = some scope := hscoped
    exact ensures_discard (steps_addAttachment hmay)
  | deleteAttachment cardId attachmentId scope' =>
    obtain rfl : scope' = some scope := hscoped
    exact ensures_discard (steps_deleteAttachment hmay)
  | addWorkerLog id input scope' =>
    obtain rfl : scope' = some scope := hscoped
    exact discard (steps_addWorkerLog hmay)
  | recordProtocolViolation id input scope' =>
    obtain rfl : scope' = some scope := hscoped
    exact discard (steps_recordProtocolViolation hmay)
  | unblock id scope' =>
    obtain rfl : scope' = some scope := hscoped
    exact discard (steps_unblock hmay)
  | promote id force reason scope' =>
    obtain rfl : scope' = some scope := hscoped
    exact discard (steps_promote hmay fun _ => rfl)
  | reassign id input scope' =>
    obtain rfl : scope' = some scope := hscoped
    exact discard (steps_reassign hmay)
  | reclaim id input scope' =>
    obtain rfl : scope' = some scope := hscoped
    exact ensures_discard (steps_reclaim hmay)
  | specify id input summary scope' =>
    obtain rfl : scope' = some scope := hscoped
    exact discard (steps_specify hmay)
  | complete id input scope' =>
    have hgiven : scopeOr scope' ⟨input.ownerId, input.token⟩ = some scope := hscoped
    exact discard (steps_completeDirect .refl (hgiven ▸ hmay))
  | block id input scope' =>
    have hgiven : scopeOr scope' ⟨input.ownerId, input.token⟩ = some scope := hscoped
    exact discard (steps_block (hgiven ▸ hmay))
  | decompose id input scope' =>
    have hgiven : scope'.getD none = some scope := hscoped
    exact ensures_discard (steps_decompose (hgiven.symm ▸ hreach) fun _ _ _ _ _ _ => trivial)
  | _ => cases hscoped

/-- **A claim is exclusive.** From every state that operations without metadata of their callers lead to: a claim
succeeds only on a card that has no claim or whose claim has expired; through every later run without another claim of
the card the lease ends as long after the last beat as it was made for, or with the last date; and an operation on
behalf of a scope that does not match the claim of a card leaves the card as it was. -/
theorem claim_is_exclusive {run : List Operation} (hrun : ∀ op ∈ run, op.NoMetadata) :
    (∀ id input card token left, claim id input (initial.after run) = (.ok (card, token), left) →
      (∀ c, (initial.after run).card id = some c → ∀ held ∈ c.metadata.claim, ∃ expiresAt ∈ held.expiresAt,
        expiresAt.val ≤ clock (initial.after run).reads) ∧
      ∀ later : List Operation, (∀ op ∈ later, op.NoMetadata ∧ ¬op.Claims card.id) →
        ∀ c ∈ (left.after later).cards, c.id = card.id → ∀ held ∈ c.metadata.claim, ∃ expiresAt ∈ held.expiresAt,
          expiresAt.val = min MAX_DATE_TIMESTAMP_MS (held.lastHeartbeatAt.val + claimDurationMs input.ttlSeconds)) ∧
    ∀ (op : Operation) (scope : WorkboardMutationScope) (card : WorkboardCard) (held : WorkboardClaim),
      FreshIds (initial.after run) → op.scope = some scope → card ∈ (initial.after run).cards →
      card.metadata.claim = some held → matchesClaim scope held = false →
      ((initial.after run).step op).board card.id = some card.core := by
  have hdated := dated_after (w := initial) hrun fun c hc => absurd hc (KeyedTable.not_mem_empty c)
  refine ⟨fun id input card token left hclaim => ?_, fun op scope card held hfresh hscoped hcard hheld hscope => ?_⟩
  · obtain ⟨hexpired, hcard, ownerId, now, hmade⟩ :=
      (Mutation.ensures_iff.mp (claim_spec id input hdated)).1 _ _ hclaim
    refine ⟨hexpired, fun later hlater c hc hid held hheld => ?_⟩
    have hleft : left = (initial.after run).after [.claim id input] := by
      show left = ((claim id input).discard (initial.after run)).2
      rw [Step.discard, Mutation.bind_eq_of_ok hclaim]
      rfl
    have hdatedLeft : ∀ c ∈ left.cards, ∀ claim ∈ c.metadata.claim, Dated claim := by
      rw [hleft]
      exact dated_after (List.forall_mem_singleton.mpr trivial) hdated
    refine (leased_after (claimDurationMs_pos _) hlater hdatedLeft (fun c hc hid held hheld => ?_) c hc hid held
      hheld).expiresAt
    obtain rfl := KeyedTable.eq_of_key hc (card_eq_some_iff.mp hcard).1 hid
    obtain rfl := Option.mem_unique hmade hheld
    exact leased_newClaim _ _ _ _
  · rw [Operation.board_of_scope hfresh hscoped hcard hheld hscope]
    exact board_of_mem hcard

end

section Sample

attribute [local instance] sample

def claimedByX : List Operation :=
  [.create { title := .string (js "T") } none, .claim (js "a") ⟨.string (js "x"), .undefined, .undefined⟩]

def scopeY : WorkboardMutationScope := ⟨.string (js "y"), .undefined⟩

theorem claim_is_exclusive_claimedByX :
    ∃ card ∈ (initial.after claimedByX).cards, card.metadata.claim.isSome = true ∧
      ((initial.after claimedByX).step (.addComment (js "a") (.string (js "hi")) (some scopeY))).board card.id =
        some card.core := by
  have hheld : ((initial.after claimedByX).card (js "a")).any (fun card => card.metadata.claim.any fun held =>
      !matchesClaim scopeY held) = true := by decide +kernel
  obtain ⟨card, hcard, hheld⟩ := (Option.any_eq_true _ _).mp hheld
  obtain ⟨held, hclaim, hmatch⟩ := (Option.any_eq_true _ _).mp hheld
  have hmem := (card_eq_some_iff.mp hcard).1
  have hcards : ∀ c ∈ (initial.after claimedByX).cards.rows, c.id = letterId 0 ∧ c.metadata.links.length = 0 := by
    decide +kernel
  have hminted : 1 ≤ (initial.after claimedByX).minted := by decide +kernel
  have hfresh : FreshIds (initial.after claimedByX) := by
    refine ⟨fun c hc n hn hid => ?_, fun c hc n _ ⟨link, hlink, _⟩ => ?_⟩
    · have hletters : ∀ m : Fin 26, m.val ≠ 0 → letterId m ≠ letterId 0 := by decide
      exact hletters ⟨min n 25, by omega⟩ (by show min n 25 ≠ 0; omega) (hid.trans (hcards c hc).1)
    · rw [List.length_eq_zero_iff.mp (hcards c hc).2] at hlink
      cases hlink
  have hplain : ∀ op ∈ claimedByX, op.NoMetadata :=
    List.forall_mem_cons.mpr ⟨rfl, List.forall_mem_singleton.mpr trivial⟩
  have hclaimed : card.metadata.claim.isSome = true := Option.isSome_of_mem hclaim
  exact ⟨card, hmem, hclaimed, (claim_is_exclusive hplain).2 _ scopeY card held hfresh rfl hmem hclaim
    (by simpa using hmatch)⟩

end Sample

end ClawWorks.Workboard
