import ClawWorks.Lib.Runs
import ClawWorks.Workboard.Dispatch

/-!
# Runs of the workboard

The operations of the store as data, and the state after any sequence of them. An operation that throws leaves what it
wrote before.
-/

namespace ClawWorks.Workboard

inductive Operation
  | create (input : WorkboardCardPatch) (scope : Option WorkboardMutationScope)
  | update (id : JsString) (patch : WorkboardCardPatch)
  | move (id : JsString) (status : Option (Choice WorkboardStatus)) (position : Unknown)
  | delete (id : JsString)
  | linkCards (parentId childId : JsString) (scope : Option WorkboardMutationScope)
  | addComment (id : JsString) (body : Unknown) (scope : Option WorkboardMutationScope)
  | addLink (id : JsString) (input : WorkboardLinkInput)
  | addProof (id : JsString) (input : WorkboardProofInput) (scope : Option WorkboardMutationScope)
  | addProofWithArtifact (id : JsString) (proof : WorkboardProofInput) (artifact : RawArtifact)
      (scope : Option WorkboardMutationScope)
  | addArtifact (id : JsString) (input : RawArtifact) (scope : Option WorkboardMutationScope)
  | addAttachment (id : JsString) (input : WorkboardAttachmentInput) (scope : Option WorkboardMutationScope)
  | deleteAttachment (cardId attachmentId : JsString) (scope : Option WorkboardMutationScope)
  | addWorkerLog (id : JsString) (input : WorkboardWorkerLogInput) (scope : Option WorkboardMutationScope)
  | recordProtocolViolation (id : JsString) (input : WorkboardProtocolViolationInput)
      (scope : Option WorkboardMutationScope)
  | claim (id : JsString) (input : WorkboardClaimInput)
  | heartbeat (id : JsString) (input : WorkboardHeartbeatInput)
  | releaseClaim (id : JsString) (input : WorkboardReleaseInput)
  | complete (id : JsString) (input : WorkboardCompleteInput) (scope : Option (Option WorkboardMutationScope))
  | block (id : JsString) (input : WorkboardBlockInput) (scope : Option (Option WorkboardMutationScope))
  | unblock (id : JsString) (scope : Option WorkboardMutationScope)
  | promote (id : JsString) (force : Bool) (reason : Unknown) (scope : Option WorkboardMutationScope)
  | reassign (id : JsString) (input : WorkboardReassignInput) (scope : Option WorkboardMutationScope)
  | reclaim (id : JsString) (input : WorkboardReclaimInput) (scope : Option WorkboardMutationScope)
  | archive (id : JsString) (shouldArchive : Bool)
  | specify (id : JsString) (input : WorkboardCardPatch) (summary : Unknown) (scope : Option WorkboardMutationScope)
  | decompose (id : JsString) (input : WorkboardDecomposeInput) (scope : Option (Option WorkboardMutationScope))
  | promoteReady (now : Option ℕ)
  | dispatch (now boardId : Unknown)
  | refreshDiagnostics (now : Option ℕ)
  | bulkUpdate (ids : List JsString) (patch : WorkboardCardPatch) (archived : Option Bool)
  | subscribeNotifications (input : WorkboardNotificationSubscribeInput)
  | deleteNotificationSubscription (id : JsString)
  | advanceNotificationEvents (input : WorkboardNotificationEventsInput)
  | upsertBoard (input : WorkboardBoardInput)
  | deleteBoard (id : Unknown)

/-- A step whose result nobody looks at. -/
def Step.discard {α : Type} (step : Step α) : Step Unit := do
  let _ ← step
  return ()

def letterId (n : Fin 26) : CardId :=
  ⟨⟨[97 + UInt16.ofNat n.val], by revert n; decide, List.cons_ne_nil _ _⟩, by show 1 ≤ 36; decide⟩

/-- A clock that ticks, letters as ids, texts without a size. -/
@[reducible] def sample : Platform where
  casing := asciiLowerCase
  clock n := 1000 + n
  clock_pos _ := by omega
  uuid n := letterId ⟨min n 25, by omega⟩
  metadataByteSize _ := 0
  localeCompare a b := if a = b then .eq else if textLe a b then .lt else .gt
  accepts _ _ := true

variable [Platform]

def Operation.run : Operation → Step Unit
  | .create input scope => Step.discard (Workboard.create input scope)
  | .update id patch => Step.discard (Workboard.update id patch)
  | .move id status position => Step.discard (Workboard.move id status position)
  | .delete id => Step.discard (Workboard.delete id)
  | .linkCards parentId childId scope => Step.discard (Workboard.linkCards parentId childId scope)
  | .addComment id body scope => Step.discard (Workboard.addComment id body scope)
  | .addLink id input => Step.discard (Workboard.addLink id input)
  | .addProof id input scope => Step.discard (Workboard.addProof id input scope)
  | .addProofWithArtifact id proof artifact scope =>
    Step.discard (Workboard.addProofWithArtifact id proof artifact scope)
  | .addArtifact id input scope => Step.discard (Workboard.addArtifact id input scope)
  | .addAttachment id input scope => Step.discard (Workboard.addAttachment id input scope)
  | .deleteAttachment cardId attachmentId scope => Step.discard (Workboard.deleteAttachment cardId attachmentId scope)
  | .addWorkerLog id input scope => Step.discard (Workboard.addWorkerLog id input scope)
  | .recordProtocolViolation id input scope => Step.discard (Workboard.recordProtocolViolation id input scope)
  | .claim id input => Step.discard (Workboard.claim id input)
  | .heartbeat id input => Step.discard (Workboard.heartbeat id input)
  | .releaseClaim id input => Step.discard (Workboard.releaseClaim id input)
  | .complete id input scope => Step.discard (Workboard.complete id input scope)
  | .block id input scope => Step.discard (Workboard.block id input scope)
  | .unblock id scope => Step.discard (Workboard.unblock id scope)
  | .promote id force reason scope => Step.discard (Workboard.promote id force reason scope)
  | .reassign id input scope => Step.discard (Workboard.reassign id input scope)
  | .reclaim id input scope => Step.discard (Workboard.reclaim id input scope)
  | .archive id shouldArchive => Step.discard (Workboard.archive id shouldArchive)
  | .specify id input summary scope => Step.discard (Workboard.specify id input summary scope)
  | .decompose id input scope => Step.discard (Workboard.decompose id input scope)
  | .promoteReady now => Workboard.promoteReady now
  | .dispatch now boardId => Workboard.dispatch now boardId
  | .refreshDiagnostics now => Workboard.refreshDiagnostics now
  | .bulkUpdate ids patch archived => Workboard.bulkUpdate ids patch archived
  | .subscribeNotifications input => Step.discard (Workboard.subscribeNotifications input)
  | .deleteNotificationSubscription id => Step.discard (Workboard.deleteNotificationSubscription id)
  | .advanceNotificationEvents input => Step.discard (Workboard.advanceNotificationEvents input)
  | .upsertBoard input => Step.discard (Workboard.upsertBoard input)
  | .deleteBoard id => Step.discard (Workboard.deleteBoard id)

/-- The state an operation leaves. -/
def World.step (w : World) (op : Operation) : World :=
  (op.run w).2

def World.after (w : World) (run : List Operation) : World :=
  Runs.after World.step w run

end ClawWorks.Workboard
