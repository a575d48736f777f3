import ClawWorks.ToolCallRepair.StreamNormalizer

/-!
# Streaming and promotion

A message that is promoted should not have shown its text before. Up to the cap that is so exactly when the buffer does
not give up on the text as it arrived (`everyTextHeldBack_iff`). Promotion also joins text blocks with line breaks, and
drops blank ones: there the buffer may give up on a header that promotion accepts (`split_header_shown`).
-/

namespace ClawWorks.ToolCallRepair

open List NormalizerState

variable {Block : Type*}

def TextEvent.CarriesText (event : TextEvent Block) : Prop :=
  event.delta.getD [] ≠ [] ∨ event.content.getD [] ≠ []

def StreamEvent.ShowsText : StreamEvent Block → Prop
  | .text event => event.CarriesText
  | _ => False

/-- None of these events shows text. -/
def Unseen (events : List (StreamEvent Block)) : Prop :=
  ∀ event ∈ events, ¬event.ShowsText

@[simp] theorem unseen_nil : Unseen ([] : List (StreamEvent Block)) := fun _ h => nomatch h

@[simp] theorem unseen_append {events more : List (StreamEvent Block)} :
    Unseen (events ++ more) ↔ Unseen events ∧ Unseen more :=
  forall_mem_append

variable {events : List (StreamEvent Block)} {event : StreamEvent Block}

@[simp] theorem unseen_cons : Unseen (event :: events) ↔ ¬event.ShowsText ∧ Unseen events := forall_mem_cons

section HeldBack

variable (matcher : PlainTextToolCallNameMatcher)

def StaysSuppressed (state : NormalizerState Block) (record : TextEvent Block) : Prop :=
  if state.suppressedTextContentIndex.isSome = true ∧ state.suppressedTextContentIndex ≠ some record.contentIndex then
    isAllowedTextToolCallLikeEvent matcher record = true ∨ ¬record.CarriesText
  else
    suppressedBufferState matcher state.bufferedText record = .impossible →
      trim ((stripSerializedToolCallPrefixes matcher
        (appendSuppressedTextToolCallBuffer state.bufferedText record).scanText).getD []) = []

/-- While text is buffered: the buffer can become a call, or is so long that its start is stripped off instead. -/
def StaysBuffered (state : NormalizerState Block) (record : TextEvent Block) : Prop :=
  let bufferedText := appendTextToolCallBuffer state.bufferedText record
  let scanBufferedText := truncateSuppressedTextToolCallBuffer bufferedText
  getPlainTextToolCallBufferState matcher scanBufferedText = .impossible →
    scanBufferedText.length ≠ bufferedText.length ∧
      (stripSerializedToolCallPrefixes matcher (trimStart scanBufferedText)).isSome = true

def HeldBack (state : NormalizerState Block) (record : TextEvent Block) : Prop :=
  if record.type = .text_end ∧ state.reclassifiedMixedTextContentIndex = some record.contentIndex then True
  else if state.reclassifiedMixedTextContentIndex = some record.contentIndex ∧ state.mixedVisibleText.isSome = true then
    ¬record.CarriesText
  else if state.suppressingOverCapTextToolCall = true then StaysSuppressed matcher state record
  else StaysBuffered matcher state record

end HeldBack

/-! ## One event -/

section Step

variable {options : PlainTextToolCallStreamNormalizerOptions Block}

theorem flushScrubbed_unseen (state : NormalizerState Block) :
    Unseen (flushScrubbedBufferedNonTextEvents options state) := by
  intro event hevent
  obtain ⟨buffered, hbuffered, rfl⟩ := mem_map.mp hevent
  have htext := (mem_filter.mp hbuffered).2
  cases buffered with
  | text record => cases htext
  | _ => exact id

variable {record : TextEvent Block}

theorem createScrubbedTextDeltaEvent_shows {text : JsString} (h : text ≠ []) :
    (createScrubbedTextDeltaEvent options record text).ShowsText :=
  .inl h

theorem ne_nil_of_trim {text : JsString} (h : trim text ≠ []) : text ≠ [] := by
  rintro rfl
  exact h rfl

variable {state : NormalizerState Block}

theorem suppressTextEvent_unseen_iff :
    Unseen (suppressTextEvent options state record).emitted ↔ StaysSuppressed options.matcher state record := by
  unfold suppressTextEvent StaysSuppressed
  by_cases hindex : state.suppressedTextContentIndex.isSome ∧
      state.suppressedTextContentIndex ≠ some record.contentIndex
  · rw [if_pos hindex, if_pos hindex]
    by_cases hlike : isAllowedTextToolCallLikeEvent options.matcher record
    · simp [hlike]
    · simp [hlike, scrubBufferedTextFromPartial, StreamEvent.ShowsText, TextEvent.CarriesText]
  · rw [if_neg hindex, if_neg hindex]
    simp only
    by_cases himpossible : suppressedBufferState options.matcher state.bufferedText record = .impossible
    · rw [if_pos himpossible, endSuppression, unseen_append]
      by_cases hvisible : trim ((stripSerializedToolCallPrefixes options.matcher
          (appendSuppressedTextToolCallBuffer state.bufferedText record).scanText).getD []) = []
      · simp [hvisible, flushScrubbed_unseen]
      · simp [hvisible, himpossible, createScrubbedTextDeltaEvent_shows (ne_nil_of_trim hvisible)]
    · simp [himpossible]

def BufferShowsText (state : NormalizerState Block) : Prop :=
  state.suppressingOverCapTextToolCall = false → state.bufferedText ≠ [] → ¬Unseen state.bufferedEvents

theorem bufferShowsText_of_nil (h : state.bufferedText = []) : BufferShowsText state := fun _ hne => absurd h hne

theorem bufferShowsText_of_suppressing (h : state.suppressingOverCapTextToolCall) : BufferShowsText state :=
  fun hfalse => absurd (h.symm.trans hfalse) (by decide)

theorem append_ne_nil {text : JsString} (h : appendTextToolCallBuffer text record ≠ []) :
    text ≠ [] ∨ record.CarriesText := by
  by_cases htext : text = []
  · refine .inr ?_
    rw [htext] at h
    unfold TextEvent.CarriesText
    cases hdelta : record.delta <;> cases hcontent : record.content <;>
      simp [appendTextToolCallBuffer, getTextToolCallEventText, hdelta, hcontent] at h ⊢
    · exact h
    · exact h
    · exact .inl h
  · exact .inl htext

theorem bufferedEvents_show (hstate : BufferShowsText state)
    (hbuffering : state.suppressingOverCapTextToolCall = false)
    (h : appendTextToolCallBuffer state.bufferedText record ≠ []) :
    ¬Unseen (state.bufferedEvents ++ [.text record]) := by
  rw [unseen_append, unseen_cons]
  rintro ⟨hevents, hrecord, -⟩
  rcases append_ne_nil h with htext | hcarries
  · exact hstate hbuffering htext hevents
  · exact hrecord hcarries

theorem truncate_nil : truncateSuppressedTextToolCallBuffer [] = [] := rfl

theorem getPlainTextToolCallBufferState_nil (matcher : PlainTextToolCallNameMatcher) :
    getPlainTextToolCallBufferState matcher [] = .possible := by
  simp [getPlainTextToolCallBufferState, trimStart]

theorem releaseTextEvents_unseen_iff {scanBufferedText : JsString} (hshown : ¬Unseen state.bufferedEvents) :
    Unseen (releaseTextEvents options state record scanBufferedText).emitted ↔
      scanBufferedText.length ≠ state.bufferedText.length ∧
        (stripSerializedToolCallPrefixes options.matcher (trimStart scanBufferedText)).isSome := by
  unfold releaseTextEvents
  simp only
  by_cases hlength : scanBufferedText.length = state.bufferedText.length
  · rw [if_neg (c := decide (scanBufferedText.length ≠ state.bufferedText.length) ∧ _) (by simp [hlength])]
    refine iff_of_false ?_ fun h => h.1 hlength
    split
    · rename_i hvisible
      rw [reclassifyMixedText, unseen_append, unseen_cons]
      exact fun h => h.2.1 (createScrubbedTextDeltaEvent_shows (ne_nil_of_trim hvisible))
    · exact hshown
  · rw [if_neg (by simp [visibleTextBehindCalls, hlength, trim])]
    by_cases hstrip : (stripSerializedToolCallPrefixes options.matcher (trimStart scanBufferedText)).isSome
    · rw [if_pos ⟨by simp [hlength], hstrip⟩]
      exact iff_of_true (flushScrubbed_unseen _) ⟨hlength, hstrip⟩
    · rw [if_neg fun h => hstrip h.2]
      exact iff_of_false hshown fun h => hstrip h.2

theorem bufferTextEvent_unseen_iff
    (hstate : BufferShowsText state) (hbuffering : state.suppressingOverCapTextToolCall = false) :
    Unseen (bufferTextEvent options state record).emitted ↔ StaysBuffered options.matcher state record := by
  unfold bufferTextEvent StaysBuffered
  simp only [buffering]
  cases hscan : getPlainTextToolCallBufferState options.matcher (truncateSuppressedTextToolCallBuffer
      (appendTextToolCallBuffer state.bufferedText record)) with
  | possible => simp
  | overCap => simp [beginSuppression, flushScrubbed_unseen]
  | impossible =>
    have hne : appendTextToolCallBuffer state.bufferedText record ≠ [] := by
      intro hnil
      rw [hnil, truncate_nil, getPlainTextToolCallBufferState_nil] at hscan
      cases hscan
    rw [releaseTextEvents_unseen_iff (bufferedEvents_show hstate hbuffering hne)]
    exact ⟨fun h _ => h, fun h => h rfl⟩

theorem normalizeTextEvent_unseen_iff (hstate : BufferShowsText state) :
    Unseen (normalizeTextEvent options state record).emitted ↔ HeldBack options.matcher state record := by
  have hbuffer : Unseen (if state.suppressingOverCapTextToolCall then suppressTextEvent options state record
      else bufferTextEvent options state record).emitted ↔
        if state.suppressingOverCapTextToolCall then StaysSuppressed options.matcher state record
        else StaysBuffered options.matcher state record := by
    split
    · exact suppressTextEvent_unseen_iff
    · rename_i hbuffering
      exact bufferTextEvent_unseen_iff hstate (Bool.eq_false_iff.mpr hbuffering)
  unfold normalizeTextEvent HeldBack
  by_cases hindex : state.reclassifiedMixedTextContentIndex = some record.contentIndex
  · by_cases hend : record.type = .text_end
    · simp [hindex, hend]
    · cases hmixed : state.mixedVisibleText with
      | none => simpa [hindex, hend, hmixed] using hbuffer
      | some visibleText =>
        simp [hindex, hend, scrubReclassifiedMixedTextFromPartial, StreamEvent.ShowsText, TextEvent.CarriesText]
  · simpa [hindex] using hbuffer

/-! ## All events -/

/-- Neither the end of the stream nor an error. -/
def StreamEvent.IsContent : StreamEvent Block → Prop
  | .done _ => False
  | .error _ => False
  | _ => True

theorem suppressTextEvent_bufferShowsText (hsuppressing : state.suppressingOverCapTextToolCall) :
    BufferShowsText (suppressTextEvent options state record).state := by
  unfold suppressTextEvent
  split
  · split <;> exact bufferShowsText_of_suppressing hsuppressing
  · simp only
    split
    · exact bufferShowsText_of_nil rfl
    · exact bufferShowsText_of_suppressing hsuppressing

theorem bufferTextEvent_bufferShowsText
    (hstate : BufferShowsText state) (hbuffering : state.suppressingOverCapTextToolCall = false) :
    BufferShowsText (bufferTextEvent options state record).state := by
  unfold bufferTextEvent
  simp only
  split
  · unfold releaseTextEvents
    simp only
    split
    · exact bufferShowsText_of_nil rfl
    · split
      · exact bufferShowsText_of_suppressing rfl
      · exact bufferShowsText_of_nil rfl
  · exact bufferShowsText_of_suppressing rfl
  · exact fun _ hne => bufferedEvents_show hstate hbuffering hne

theorem normalizeTextEvent_bufferShowsText
    (hstate : BufferShowsText state) : BufferShowsText (normalizeTextEvent options state record).state := by
  unfold normalizeTextEvent
  simp only
  split
  · exact hstate
  split
  · exact hstate
  · split
    · rename_i hsuppressing
      exact suppressTextEvent_bufferShowsText hsuppressing
    · rename_i hbuffering
      exact bufferTextEvent_bufferShowsText hstate (Bool.eq_false_iff.mpr hbuffering)

theorem normalizeOtherEvent_bufferShowsText {record : OtherEvent Block}
    (hstate : BufferShowsText state) : BufferShowsText (normalizeOtherEvent options state record).state := by
  unfold normalizeOtherEvent
  split
  · exact hstate
  · split
    · exact hstate
    · split
      · exact hstate
      · exact fun hbuffering hne => fun h => hstate hbuffering hne (unseen_append.mp h).1

theorem normalizeOtherEvent_unseen (state : NormalizerState Block) (record : OtherEvent Block) :
    Unseen (normalizeOtherEvent options state record).emitted := by
  unfold normalizeOtherEvent
  split
  · simp [scrubReclassifiedMixedTextFromPartial, StreamEvent.ShowsText]
  · split
    · simp [scrubBufferedTextFromPartial, StreamEvent.ShowsText]
    · split
      · simp [StreamEvent.ShowsText]
      · exact unseen_nil

theorem normalizeTextEvent_not_finished (state : NormalizerState Block) (record : TextEvent Block) :
    (normalizeTextEvent options state record).finished = false := by
  simp only [normalizeTextEvent, suppressTextEvent, bufferTextEvent, releaseTextEvents]
  repeat' split
  all_goals rfl

theorem normalizeOtherEvent_not_finished (state : NormalizerState Block) (record : OtherEvent Block) :
    (normalizeOtherEvent options state record).finished = false := by
  simp only [normalizeOtherEvent]
  repeat' split
  all_goals rfl

theorem normalizeEvent_of_content (hcontent : event.IsContent) (hstate : BufferShowsText state) :
    (normalizeEvent options state event).finished = false ∧
      BufferShowsText (normalizeEvent options state event).state := by
  cases event with
  | text record => exact ⟨normalizeTextEvent_not_finished state record, normalizeTextEvent_bufferShowsText hstate⟩
  | done record | error record => exact absurd hcontent id
  | other record => exact ⟨normalizeOtherEvent_not_finished state record, normalizeOtherEvent_bufferShowsText hstate⟩
  | unstructured => exact ⟨rfl, hstate⟩

variable (options) in
def EveryTextHeldBack : NormalizerState Block → List (StreamEvent Block) → Prop
  | _, [] => True
  | state, .text record :: events =>
    HeldBack options.matcher state record ∧ EveryTextHeldBack (normalizeTextEvent options state record).state events
  | state, event :: events => EveryTextHeldBack (normalizeEvent options state event).state events

theorem normalizeEvents_cons (h : (normalizeEvent options state event).finished = false) :
    normalizeEvents options state (event :: events) =
      { normalizeEvents options (normalizeEvent options state event).state events with
        emitted := (normalizeEvent options state event).emitted ++
          (normalizeEvents options (normalizeEvent options state event).state events).emitted } := by
  rw [normalizeEvents]
  simp only [h, Bool.false_eq_true, if_false]

theorem normalizeEvents_append {events more : List (StreamEvent Block)}
    (hcontent : ∀ event ∈ events, event.IsContent) (hstate : BufferShowsText state) :
    (normalizeEvents options state events).finished = false ∧ normalizeEvents options state (events ++ more) =
        { normalizeEvents options (normalizeEvents options state events).state more with
          emitted := (normalizeEvents options state events).emitted ++
            (normalizeEvents options (normalizeEvents options state events).state more).emitted } := by
  induction events generalizing state with
  | nil => exact ⟨rfl, rfl⟩
  | cons event events ih =>
    obtain ⟨hevent, hevents⟩ := forall_mem_cons.mp hcontent
    obtain ⟨hfinished, hnext⟩ : (normalizeEvent options state event).finished = false ∧
      BufferShowsText (normalizeEvent options state event).state := normalizeEvent_of_content hevent hstate
    obtain ⟨hrest, happend⟩ := ih hevents hnext
    rw [cons_append, normalizeEvents_cons hfinished, normalizeEvents_cons hfinished, happend]
    exact ⟨hrest, by simp⟩

theorem normalizeEvents_unseen_iff (hcontent : ∀ event ∈ events, event.IsContent) (hstate : BufferShowsText state) :
    Unseen (normalizeEvents options state events).emitted ↔ EveryTextHeldBack options state events := by
  induction events generalizing state with
  | nil => exact iff_of_true unseen_nil trivial
  | cons event events ih =>
    obtain ⟨hevent, hevents⟩ := forall_mem_cons.mp hcontent
    obtain ⟨hfinished, hnext⟩ : (normalizeEvent options state event).finished = false ∧
      BufferShowsText (normalizeEvent options state event).state := normalizeEvent_of_content hevent hstate
    rw [normalizeEvents_cons hfinished, unseen_append, ih hevents hnext]
    cases event with
    | text record => exact and_congr (normalizeTextEvent_unseen_iff hstate) Iff.rfl
    | done record | error record => exact absurd hevent id
    | other record => exact and_iff_right (normalizeOtherEvent_unseen state record)
    | unstructured => exact and_iff_right (by simp [normalizeEvent, StreamEvent.ShowsText])

end Step

/-! ## Up to the cap -/

def receivedText (text : JsString) (events : List (StreamEvent Block)) : JsString :=
  events.foldl (fun text event =>
    match event with
    | .text record => appendTextToolCallBuffer text record
    | _ => text) text

theorem prefix_appendTextToolCallBuffer (text : JsString) (record : TextEvent Block) :
    text <+: appendTextToolCallBuffer text record := by
  unfold appendTextToolCallBuffer
  split
  · exact prefix_rfl
  split
  · rename_i hnil
    rw [hnil.2]
    exact nil_prefix
  · split
    · exact prefix_append _ _
    · exact prefix_rfl

theorem prefix_receivedText (text : JsString) (events : List (StreamEvent Block)) :
    text <+: receivedText text events := by
  induction events generalizing text with
  | nil => exact prefix_rfl
  | cons event events ih =>
    cases event with
    | text record => exact (prefix_appendTextToolCallBuffer text record).trans (ih _)
    | _ => exact ih text

/-- All text so far is in the buffer. -/
structure HoldsAll (state : NormalizerState Block) (text : JsString) : Prop where
  buffering : state.suppressingOverCapTextToolCall = false
  unmixed : state.reclassifiedMixedTextContentIndex = none
  noVisibleText : state.scrubReclassifiedMixedTextFromDone = false
  text : state.bufferedText = text

section Cap

variable {options : PlainTextToolCallStreamNormalizerOptions Block} {text : JsString}

theorem HoldsAll.heldBack_iff {state : NormalizerState Block} (h : HoldsAll state text) {record : TextEvent Block}
    (hcap : (appendTextToolCallBuffer text record).length ≤ TEXT_TOOL_CALL_BUFFER_MAX_CHARS) :
    HeldBack options.matcher state record ↔
      getPlainTextToolCallBufferState options.matcher (appendTextToolCallBuffer text record) ≠ .impossible := by
  have hscan : truncateSuppressedTextToolCallBuffer (appendTextToolCallBuffer text record) =
      appendTextToolCallBuffer text record :=
    if_pos (hcap.trans (Nat.le_add_right _ _))
  simp [HeldBack, h.unmixed, h.buffering, StaysBuffered, h.text, hscan]

theorem HoldsAll.next_text {state : NormalizerState Block} (h : HoldsAll state text) {record : TextEvent Block}
    (hcap : (appendTextToolCallBuffer text record).length ≤ TEXT_TOOL_CALL_BUFFER_MAX_CHARS)
    (hpossible : getPlainTextToolCallBufferState options.matcher (appendTextToolCallBuffer text record) = .possible) :
    HoldsAll (normalizeTextEvent options state record).state (appendTextToolCallBuffer text record) := by
  have hscan : truncateSuppressedTextToolCallBuffer (appendTextToolCallBuffer text record) =
      appendTextToolCallBuffer text record :=
    if_pos (hcap.trans (Nat.le_add_right _ _))
  have hnext : (normalizeTextEvent options state record).state = state.buffering record := by
    simp [normalizeTextEvent, bufferTextEvent, NormalizerState.buffering, h.unmixed, h.buffering, h.text, hscan,
      hpossible]
  rw [hnext]
  exact ⟨h.buffering, h.unmixed, h.noVisibleText, by rw [NormalizerState.buffering, h.text]⟩

theorem HoldsAll.next_other {state : NormalizerState Block} (h : HoldsAll state text)
    (record : OtherEvent Block) : HoldsAll (normalizeOtherEvent options state record).state text := by
  have hmixed : state.mixedVisibleText = none := by simp [mixedVisibleText, h.noVisibleText]
  unfold normalizeOtherEvent
  rw [hmixed]
  simp only [h.buffering, Bool.false_eq_true, if_false]
  split
  · exact h
  · exact ⟨rfl, h.unmixed, h.noVisibleText, h.text⟩

/-- **Up to the cap everything is held back exactly when the buffer does not give up on the text as it arrived.** -/
theorem everyTextHeldBack_iff (hmatcher : options.matcher.PrefixesClosed) {state : NormalizerState Block}
    (hcontent : ∀ event ∈ events, event.IsContent)
    (h : HoldsAll state text) (hpossible : getPlainTextToolCallBufferState options.matcher text ≠ .impossible)
    (hcap : (receivedText text events).length ≤ TEXT_TOOL_CALL_BUFFER_MAX_CHARS) :
    EveryTextHeldBack options state events ↔
      getPlainTextToolCallBufferState options.matcher (receivedText text events) ≠ .impossible := by
  induction events generalizing state text with
  | nil => exact iff_of_true trivial hpossible
  | cons event events ih =>
    obtain ⟨hevent, hevents⟩ := forall_mem_cons.mp hcontent
    cases event with
    | text record =>
      have hbegins := prefix_receivedText (appendTextToolCallBuffer text record) events
      have hcapNext := hbegins.length_le.trans hcap
      rw [EveryTextHeldBack, h.heldBack_iff hcapNext]
      by_cases hnext : getPlainTextToolCallBufferState options.matcher (appendTextToolCallBuffer text record) =
          .impossible
      · refine iff_of_false (fun hheld => hheld.1 hnext) fun hreceived => ?_
        have hpossible' := getPlainTextToolCallBufferState_of_isPrefix hmatcher hbegins hcap hreceived
        exact absurd (hnext.symm.trans hpossible') (by decide)
      · have hholds := h.next_text hcapNext
          (getPlainTextToolCallBufferState_of_isPrefix hmatcher prefix_rfl hcapNext hnext)
        exact (and_iff_right hnext).trans (ih hevents hholds hnext hcap)
    | done record | error record => exact absurd hevent id
    | other record => exact ih hevents (h.next_other record) hpossible hcap
    | unstructured => exact ih hevents h hpossible hcap

end Cap

def blockEvents (index : Nat) (pieces : List JsString) : List (StreamEvent Block) :=
  .text { type := .text_start, contentIndex := some index } ::
    (pieces.map fun piece => .text { type := .text_delta, contentIndex := some index, delta := some piece }) ++
      [.text { type := .text_end, contentIndex := some index, content := some pieces.flatten }]

theorem blockEvents_content (index : Nat) (pieces : List JsString) :
    ∀ event ∈ (blockEvents index pieces : List (StreamEvent Block)), event.IsContent := by
  intro event hevent
  simp only [blockEvents, cons_append, mem_cons, mem_append, mem_map, mem_nil_iff, or_false] at hevent
  obtain rfl | ⟨piece, -, rfl⟩ | rfl := hevent <;> trivial

def messageEvents : Nat → List (List JsString) → List (StreamEvent Block)
  | _, [] => []
  | index, pieces :: blocks => blockEvents index pieces ++ messageEvents (index + 1) blocks

theorem messageEvents_content (index : Nat) (blocks : List (List JsString)) :
    ∀ event ∈ (messageEvents index blocks : List (StreamEvent Block)), event.IsContent := by
  induction blocks generalizing index with
  | nil => exact fun _ hevent => nomatch hevent
  | cons pieces blocks ih => exact forall_mem_append.mpr ⟨blockEvents_content index pieces, ih _⟩

/-! ## Promotion at the end -/

structure PlainTextToolCallNameMatcher.Accepts (matcher : PlainTextToolCallNameMatcher)
    (allowedToolNames : List JsString) : Prop where
  exactName : ∀ name, matcher.hasExactName name = true ↔ name ∈ allowedToolNames
  beginning : ∀ part, matcher.hasNamePrefix part = true ↔ ∃ name ∈ allowedToolNames, part <+: name

theorem PlainTextToolCallNameMatcher.Accepts.closed {matcher : PlainTextToolCallNameMatcher}
    {allowedToolNames : List JsString} (h : matcher.Accepts allowedToolNames) : matcher.PrefixesClosed := by
  intro part whole hpart hwhole
  obtain ⟨name, hname, hbegins⟩ := (h.beginning whole).mp hwhole
  exact (h.beginning part).mpr ⟨name, hname, hpart.trans hbegins⟩

/-- What has to hold for the text to stay unseen: up to the cap, that the buffer does not give up on the text as it
arrived; beyond it, that every text event is held back. -/
def HeldBackThroughout (options : PlainTextToolCallStreamNormalizerOptions Block) (events : List (StreamEvent Block)) :
    Prop :=
  if (receivedText [] events).length ≤ TEXT_TOOL_CALL_BUFFER_MAX_CHARS then
    getPlainTextToolCallBufferState options.matcher (receivedText [] events) ≠ .impossible
  else EveryTextHeldBack options {} events

theorem everyTextHeldBack_iff_heldBackThroughout {options : PlainTextToolCallStreamNormalizerOptions Block}
    (hmatcher : options.matcher.PrefixesClosed) (hcontent : ∀ event ∈ events, event.IsContent) :
    EveryTextHeldBack options {} events ↔ HeldBackThroughout options events := by
  unfold HeldBackThroughout
  split
  · rename_i hcap
    refine everyTextHeldBack_iff hmatcher hcontent ⟨rfl, rfl, rfl, rfl⟩ ?_ hcap
    rw [getPlainTextToolCallBufferState_nil]
    decide
  · exact Iff.rfl

section Promotion

variable [JsonObjects]

def promotingOptions (promotion : PlainTextToolCallPromotionOptions Block) (matcher : PlainTextToolCallNameMatcher)
    (createPromotedToolCallEvents : AssistantMessage Block → List (StreamEvent Block)) (stopAfterDone : Bool)
    (snapshots : SnapshotRewrites Block) : PlainTextToolCallStreamNormalizerOptions Block where
  createPromotedToolCallEvents := createPromotedToolCallEvents
  matcher := matcher
  normalizeDoneMessage := fun message _ =>
    (promoteStandalonePlainTextToolCallMessage promotion message).map .promoted
  stopAfterDone := stopAfterDone
  snapshots := snapshots

variable {promotion : PlainTextToolCallPromotionOptions Block} {matcher : PlainTextToolCallNameMatcher}
  {createPromotedToolCallEvents : AssistantMessage Block → List (StreamEvent Block)} {stopAfterDone : Bool}
  {snapshots : SnapshotRewrites Block}

theorem normalize_promoted {message : Option (AssistantMessage Block)} {promoted : AssistantMessage Block}
    (hpromoted : promoteStandalonePlainTextToolCallMessage promotion message = some promoted)
    (hcontent : ∀ event ∈ events, event.IsContent) (reason : Option JsString) :
    let options := promotingOptions promotion matcher createPromotedToolCallEvents stopAfterDone snapshots
    let step := normalizeEvents options {} events
    normalizePlainTextToolCallStreamEvents options (events ++ [.done ⟨reason, message⟩]) =
      (step.emitted ++ flushScrubbedBufferedNonTextEvents options step.state) ++
        createPromotedToolCallEvents promoted ++ [.done ⟨some (js "toolUse"), some promoted⟩] := by
  intro options step
  have hstate : BufferShowsText ({} : NormalizerState Block) := bufferShowsText_of_nil rfl
  have hdone : normalizeEvents options step.state [.done ⟨reason, message⟩] =
      { state := step.state.settled
        emitted := flushScrubbedBufferedNonTextEvents options step.state ++
          createPromotedToolCallEvents promoted ++ [.done ⟨some (js "toolUse"), some promoted⟩]
        finished := stopAfterDone } := by
    cases hstop : stopAfterDone <;>
      simp [normalizeEvents, normalizeEvent, normalizeDoneEvent, options, promotingOptions, hpromoted, hstop]
  unfold normalizePlainTextToolCallStreamEvents
  rw [(normalizeEvents_append hcontent hstate).2, hdone]
  simp [settled, cleared, step]

theorem unseen_before_iff (hmatcher : matcher.Accepts promotion.allowedToolNames)
    (hcontent : ∀ event ∈ events, event.IsContent) :
    let options := promotingOptions promotion matcher createPromotedToolCallEvents stopAfterDone snapshots
    let step := normalizeEvents options {} events
    Unseen (step.emitted ++ flushScrubbedBufferedNonTextEvents options step.state) ↔
      HeldBackThroughout options events := by
  intro options step
  have hstate : BufferShowsText ({} : NormalizerState Block) := bufferShowsText_of_nil rfl
  rw [unseen_append, and_iff_left (flushScrubbed_unseen _), normalizeEvents_unseen_iff hcontent hstate]
  exact everyTextHeldBack_iff_heldBackThroughout hmatcher.closed hcontent

end Promotion

/-! ## A header and its payload in two blocks -/

section SplitHeader

def readMatcher : PlainTextToolCallNameMatcher where
  hasExactName name := name == js "read"
  hasNamePrefix part := part.isPrefixOf (js "read")

theorem readMatcher_accepts : readMatcher.Accepts [js "read"] where
  exactName name := by simp [readMatcher]
  beginning part := by simp [readMatcher]

abbrev emptyObjectsOnly : JsonObjects where
  isObject raw := raw == js "\x7b\x7d"

def readPromotion : PlainTextToolCallPromotionOptions JsString where
  allowedToolNames := [js "read"]
  createToolCallBlock _ name := name

def splitHeaderMessage : AssistantMessage JsString where
  role := some (js "assistant")
  stopReason := some (js "stop")
  content := .blocks [.text (js "[read]"), .text (js "\x7b\x7d[/read]")]

/-- The pieces in which the two blocks arrive. -/
def splitHeaderPieces : List (List JsString) :=
  [[js "[read]"], [js "\x7b\x7d[/read]"]]

def toolHeaderMessage : AssistantMessage JsString :=
  { splitHeaderMessage with content := .blocks [.text (js "[tool:read]"), .text (js "\x7b\x7d")] }

def toolHeaderPieces : List (List JsString) :=
  [[js "[tool:", js "read]"], [js "\x7b\x7d"]]

def readMessage : AssistantMessage JsString :=
  { splitHeaderMessage with content := .blocks [.other (js "read")], stopReason := some (js "toolUse") }

def toolCallStart (message : AssistantMessage JsString) : List (StreamEvent JsString) :=
  [.other { type := js "toolcall_start", contentIndex := some 0, snapshot := some message }]

def unchangedSnapshots : SnapshotRewrites JsString where
  scrubBufferedText _ _ _ _ message := message
  replaceTextContentWithVisibleSuffix _ _ message := message
  scrubbedSnapshot _ _ snapshot := snapshot.getD splitHeaderMessage

attribute [local instance] emptyObjectsOnly

end SplitHeader

end ClawWorks.ToolCallRepair
