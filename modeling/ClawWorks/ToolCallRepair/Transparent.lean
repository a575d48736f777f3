import ClawWorks.ToolCallRepair.StreamNormalizer

/-!
# A stream that needs no repair

Where the text that is held back never outgrows the cap and no final message is repaired, the stream comes out as it
came in, up to its first error.

- `normalizeEvents_of_plain`: what has come out and what is held back is what came in.

A value that is no record is passed on at once, ahead of what is held back.
-/

namespace ClawWorks.ToolCallRepair

open List

variable {Block : Type*}

def upToError : List (StreamEvent Block) → List (StreamEvent Block)
  | [] => []
  | .error record :: _ => [.error record]
  | event :: events => event :: upToError events

def StreamEvent.isRecord : StreamEvent Block → Bool
  | .unstructured => false
  | _ => true

/-- The text held back never exceeds the cap. -/
def BufferWithinCap (options : PlainTextToolCallStreamNormalizerOptions Block) :
    NormalizerState Block → List (StreamEvent Block) → Prop
  | _, [] => True
  | _, .error _ :: _ => True
  | state, .text record :: events =>
    (appendTextToolCallBuffer state.bufferedText record).length ≤ TEXT_TOOL_CALL_BUFFER_MAX_CHARS ∧
      BufferWithinCap options (normalizeTextEvent options state record).state events
  | state, event :: events => BufferWithinCap options (normalizeEvent options state event).state events

/-! ## One event -/

/-- Nothing is suppressed or reclassified, and what is held back are records. -/
structure Plain (state : NormalizerState Block) : Prop where
  buffering : state.suppressingOverCapTextToolCall = false
  unmixed : state.reclassifiedMixedTextContentIndex = none
  noVisibleText : state.mixedVisibleText = none
  records : ∀ event ∈ state.bufferedEvents, event.isRecord = true

theorem plain_initial : Plain ({} : NormalizerState Block) := ⟨rfl, rfl, rfl, fun _ h => nomatch h⟩

theorem Plain.cleared {state : NormalizerState Block} (h : Plain state) : Plain state.cleared :=
  ⟨h.buffering, h.unmixed, h.noVisibleText, fun _ hevent => nomatch hevent⟩

theorem Plain.push {state : NormalizerState Block} (h : Plain state) {event : StreamEvent Block}
    (hevent : event.isRecord) (text : JsString) :
    Plain { state with bufferedEvents := state.bufferedEvents ++ [event], bufferedText := text } :=
  ⟨h.buffering, h.unmixed, h.noVisibleText, forall_mem_append.mpr ⟨h.records, by simpa using hevent⟩⟩

section Step

variable {options : PlainTextToolCallStreamNormalizerOptions Block}

structure PassesOn (state : NormalizerState Block) (step : NormalizerStep Block) (event : StreamEvent Block) :
    Prop where
  plain : Plain step.state
  running : step.finished = false
  events : step.emitted ++ step.state.bufferedEvents = state.bufferedEvents ++ [event]

variable {state : NormalizerState Block}

theorem normalizeTextEvent_passesOn {record : TextEvent Block} (h : Plain state)
    (hcap : (appendTextToolCallBuffer state.bufferedText record).length ≤ TEXT_TOOL_CALL_BUFFER_MAX_CHARS) :
    PassesOn state (normalizeTextEvent options state record) (.text record) := by
  have hstep : normalizeTextEvent options state record = bufferTextEvent options state record := by
    simp [normalizeTextEvent, h.unmixed, h.buffering]
  have hscan : truncateSuppressedTextToolCallBuffer (appendTextToolCallBuffer state.bufferedText record) =
      appendTextToolCallBuffer state.bufferedText record :=
    if_pos (hcap.trans (Nat.le_add_right _ _))
  have hpush : Plain (state.buffering record) := h.push rfl _
  rw [hstep, bufferTextEvent]
  simp only [NormalizerState.buffering, hscan]
  cases hscanned : getPlainTextToolCallBufferState options.matcher
      (appendTextToolCallBuffer state.bufferedText record) with
  | possible => exact ⟨hpush, rfl, rfl⟩
  | overCap =>
    -- only a text beyond the cap is judged so
    exfalso
    unfold getPlainTextToolCallBufferState at hscanned
    rw [if_pos hcap] at hscanned
    repeat' split at hscanned
    all_goals cases hscanned
  | impossible =>
    have hvisible : visibleTextBehindCalls options (appendTextToolCallBuffer state.bufferedText record) false = [] := by
      rw [visibleTextBehindCalls, if_neg fun hover => not_lt.mpr hcap hover.2]
    have hrelease : releaseTextEvents options (state.buffering record) record
        (appendTextToolCallBuffer state.bufferedText record) =
          { state := (state.buffering record).cleared, emitted := state.bufferedEvents ++ [.text record] } := by
      simp [releaseTextEvents, NormalizerState.buffering, hvisible, trim]
    change PassesOn state (releaseTextEvents options (state.buffering record) record _) _
    rw [hrelease]
    exact ⟨hpush.cleared, rfl, append_nil _⟩

theorem normalizeOtherEvent_passesOn (h : Plain state) (record : OtherEvent Block) :
    PassesOn state (normalizeOtherEvent options state record) (.other record) := by
  unfold normalizeOtherEvent
  rw [h.noVisibleText]
  simp only
  rw [if_neg (by simp [h.buffering])]
  split
  · rename_i hempty
    exact ⟨h, rfl, by simp [hempty]⟩
  · exact ⟨h.push rfl state.bufferedText, rfl, rfl⟩

theorem normalizeDoneEvent_passesOn (hquiet : ∀ message reason, options.normalizeDoneMessage message reason = none)
    (hstop : options.stopAfterDone = false) (h : Plain state)
    (record : DoneEvent Block) : PassesOn state (normalizeDoneEvent options state record) (.done record) := by
  have hstep : normalizeDoneEvent options state record =
      { state := state.cleared, emitted := state.bufferedEvents ++ [.done record], finished := false } := by
    unfold normalizeDoneEvent
    simp only [hquiet, h.noVisibleText, h.buffering, hstop, Bool.false_eq_true, if_false]
    cases record.message <;> rfl
  rw [hstep]
  exact ⟨h.cleared, rfl, append_nil _⟩

theorem normalizeErrorEvent_of_plain (h : Plain state) (record : ErrorEvent Block) :
    normalizeErrorEvent options state record =
      { state := state.cleared, emitted := state.bufferedEvents ++ [.error record], finished := true } := by
  unfold normalizeErrorEvent
  rw [h.noVisibleText]
  simp only [h.buffering, Bool.false_eq_true, if_false]

/-! ## All events -/

/-- What comes out of a run: what was shown, and what is held back at the end of the source. -/
def NormalizerStep.output (step : NormalizerStep Block) : List (StreamEvent Block) :=
  step.emitted ++ if step.finished = true ∨ step.state.suppressingOverCapTextToolCall = true then []
    else step.state.bufferedEvents

variable {event : StreamEvent Block} {events : List (StreamEvent Block)}

theorem normalizeEvents_running (h : (normalizeEvent options state event).finished = false) :
    (normalizeEvents options state (event :: events)).output = (normalizeEvent options state event).emitted ++
        (normalizeEvents options (normalizeEvent options state event).state events).output := by
  rw [normalizeEvents]
  simp only [h, Bool.false_eq_true, if_false, NormalizerStep.output, append_assoc]

/-- What comes out of a run that holds `held` back is that and the source, but for the place of what are no records. -/
structure ComesOut (held source output : List (StreamEvent Block)) : Prop where
  records : output.filter StreamEvent.isRecord = held ++ source.filter StreamEvent.isRecord
  others : output.filter (fun event => !event.isRecord) = source.filter fun event => !event.isRecord

theorem filter_others (h : ∀ event ∈ events, event.isRecord) : events.filter (fun event => !event.isRecord) = [] := by
  rw [filter_eq_nil_iff]
  exact fun event hevent => by simp [h event hevent]

variable {source output : List (StreamEvent Block)}

theorem ComesOut.cons {step : NormalizerStep Block} (hstate : Plain state) (hevent : event.isRecord)
    (hstep : PassesOn state step event) (h : ComesOut step.state.bufferedEvents source output) :
    ComesOut state.bufferedEvents (event :: source) (step.emitted ++ output) := by
  have hrecords : ∀ e ∈ step.emitted ++ step.state.bufferedEvents, e.isRecord := by
    rw [hstep.events]
    exact forall_mem_append.mpr ⟨hstate.records, by simpa using hevent⟩
  have hemitted := (forall_mem_append.mp hrecords).1
  constructor
  · rw [filter_append, h.records, filter_eq_self.mpr hemitted, ← append_assoc, hstep.events,
      append_assoc, filter_cons_of_pos hevent]
    rfl
  · rw [filter_append, h.others, filter_others hemitted, filter_cons_of_neg (by simp [hevent])]
    rfl

theorem normalizeEvents_comesOut (hquiet : ∀ message reason, options.normalizeDoneMessage message reason = none)
    (hstop : options.stopAfterDone = false) {source : List (StreamEvent Block)}
    (h : Plain state) (hcap : BufferWithinCap options state source) :
    ComesOut state.bufferedEvents (upToError source) (normalizeEvents options state source).output := by
  induction source generalizing state with
  | nil =>
    have houtput : (normalizeEvents options state []).output = state.bufferedEvents := by
      simp [normalizeEvents, NormalizerStep.output, h.buffering]
    rw [houtput]
    exact ⟨by simp [upToError, filter_eq_self.mpr h.records], filter_others h.records⟩
  | cons event source ih =>
    cases event with
    | text record =>
      have hstep : PassesOn state (normalizeEvent options state (.text record)) (.text record) :=
        normalizeTextEvent_passesOn h hcap.1
      rw [normalizeEvents_running hstep.running]
      exact ComesOut.cons h rfl hstep (ih hstep.plain hcap.2)
    | done record =>
      have hstep : PassesOn state (normalizeEvent options state (.done record)) (.done record) :=
        normalizeDoneEvent_passesOn hquiet hstop h record
      rw [normalizeEvents_running hstep.running]
      exact ComesOut.cons h rfl hstep (ih hstep.plain hcap)
    | other record =>
      have hstep : PassesOn state (normalizeEvent options state (.other record)) (.other record) :=
        normalizeOtherEvent_passesOn h record
      rw [normalizeEvents_running hstep.running]
      exact ComesOut.cons h rfl hstep (ih hstep.plain hcap)
    | error record =>
      have houtput : (normalizeEvents options state (.error record :: source)).output =
          state.bufferedEvents ++ [.error record] := by
        simp [normalizeEvents, normalizeEvent, normalizeErrorEvent_of_plain h, NormalizerStep.output]
      have hrecords : ∀ e ∈ state.bufferedEvents ++ [.error record], e.isRecord :=
        forall_mem_append.mpr ⟨h.records, by simp [StreamEvent.isRecord]⟩
      rw [houtput]
      exact ⟨by rw [filter_eq_self.mpr hrecords]; rfl, by rw [filter_others hrecords]; rfl⟩
    | unstructured =>
      obtain ⟨hrecords, hothers⟩ := ih h hcap
      rw [normalizeEvents_running rfl]
      exact ⟨hrecords, congrArg (StreamEvent.unstructured :: ·) hothers⟩

theorem ComesOut.eq (h : ComesOut [] source output)
    (hsource : ∀ event ∈ source, event.isRecord) : output = source := by
  have houtput : ∀ event ∈ output, event.isRecord := by
    have hnone := h.others
    rw [filter_others hsource, filter_eq_nil_iff] at hnone
    exact fun event hevent => by simpa using hnone event hevent
  have hrecords := h.records
  rwa [filter_eq_self.mpr houtput, filter_eq_self.mpr hsource] at hrecords

theorem mem_of_mem_upToError {source : List (StreamEvent Block)} (h : event ∈ upToError source) : event ∈ source := by
  induction source with
  | nil => cases h
  | cons first source ih =>
    cases first with
    | error record =>
      obtain rfl := mem_singleton.mp h
      exact mem_cons_self
    | _ =>
      rcases mem_cons.mp h with rfl | hrest
      · exact mem_cons_self
      · exact mem_cons_of_mem _ (ih hrest)

/-- **A stream of records that needs no repair comes out as it came in, up to its first error; other values only lose
their place.** -/
theorem stream_transparent (hquiet : ∀ message reason, options.normalizeDoneMessage message reason = none)
    (hstop : options.stopAfterDone = false) {source : List (StreamEvent Block)}
    (hcap : BufferWithinCap options {} source) :
    ((∀ event ∈ source, event.isRecord = true) →
      normalizePlainTextToolCallStreamEvents options source = upToError source) ∧
    (normalizePlainTextToolCallStreamEvents options source).filter StreamEvent.isRecord =
      (upToError source).filter StreamEvent.isRecord ∧
    (normalizePlainTextToolCallStreamEvents options source).filter (fun event => !event.isRecord) =
      (upToError source).filter fun event => !event.isRecord := by
  have h : ComesOut [] (upToError source) (normalizePlainTextToolCallStreamEvents options source) :=
    normalizeEvents_comesOut hquiet hstop plain_initial hcap
  exact ⟨fun hsource => h.eq fun event hevent => hsource event (mem_of_mem_upToError hevent), h.records, h.others⟩

end Step

section Values

/-- Hooks that repair nothing, for a tool called `read`. -/
def quietOptions : PlainTextToolCallStreamNormalizerOptions Unit where
  createPromotedToolCallEvents _ := []
  matcher := { hasExactName := (· == js "read"), hasNamePrefix := fun part => part.isPrefixOf (js "read") }
  normalizeDoneMessage _ _ := none
  snapshots := {
    scrubBufferedText := fun _ _ _ _ message => message
    replaceTextContentWithVisibleSuffix := fun _ _ message => message
    scrubbedSnapshot := fun _ _ _ => ⟨none, none, .other⟩ }

/-- The beginning of what could be a call. -/
def heldBackDelta : StreamEvent Unit :=
  .text { type := .text_delta, contentIndex := some 0, delta := some (js "[re") }

def stopEvent : StreamEvent Unit :=
  .done ⟨some (js "stop"), none⟩

theorem heldBackDelta_withinCap : BufferWithinCap quietOptions {} [heldBackDelta, stopEvent] := ⟨by decide, trivial⟩

/-- Text that is held back when the message ends comes out before the end. -/
theorem held_back_delta_comes_out :
    normalizePlainTextToolCallStreamEvents quietOptions [heldBackDelta, stopEvent] = [heldBackDelta, stopEvent] :=
  (stream_transparent (fun _ _ => rfl) rfl heldBackDelta_withinCap).1 (by
      intro event hevent
      rcases mem_cons.mp hevent with rfl | hevent
      · rfl
      · obtain rfl := mem_singleton.mp hevent
        rfl)

theorem value_overtakes_text :
    (∀ message reason, quietOptions.normalizeDoneMessage message reason = none) ∧
      quietOptions.stopAfterDone = false ∧
      BufferWithinCap quietOptions {} [heldBackDelta, .unstructured, stopEvent] ∧
      normalizePlainTextToolCallStreamEvents quietOptions [heldBackDelta, .unstructured, stopEvent] =
        [.unstructured, heldBackDelta, stopEvent] ∧
      normalizePlainTextToolCallStreamEvents quietOptions [heldBackDelta, .unstructured, stopEvent] ≠
        upToError [heldBackDelta, .unstructured, stopEvent] := by
  have hrun : normalizePlainTextToolCallStreamEvents quietOptions [heldBackDelta, .unstructured, stopEvent] =
      [.unstructured, heldBackDelta, stopEvent] := rfl
  refine ⟨fun _ _ => rfl, rfl, ⟨by decide, trivial⟩, hrun, ?_⟩
  rw [hrun]
  intro h
  cases h

end Values

end ClawWorks.ToolCallRepair
