import ClawWorks.ToolCallRepair.BufferState
import ClawWorks.ToolCallRepair.Promote

/-!
# Buffering a provider stream

Text events are held back while their text can become a tool call. What turns out to be no call is shown after all; what
outgrows the cap is suppressed until a closing marker tells what it was.

The rewriting of the message snapshots that events carry along is a parameter (`SnapshotRewrites`): it decides nothing
about which events are shown.
-/

namespace ClawWorks.ToolCallRepair

/-! ## Events -/

inductive TextEventType where
  | text_start
  | text_delta
  | text_end
  deriving DecidableEq

/-- A text event; `snapshot` is the message so far. -/
structure TextEvent (Block : Type*) where
  type : TextEventType
  contentIndex : Option Nat := none
  delta : Option JsString := none
  content : Option JsString := none
  snapshot : Option (AssistantMessage Block) := none

structure DoneEvent (Block : Type*) where
  reason : Option JsString
  message : Option (AssistantMessage Block)

structure ErrorEvent (Block : Type*) where
  snapshot : Option (AssistantMessage Block) := none
  error : Option (AssistantMessage Block) := none

structure OtherEvent (Block : Type*) where
  type : JsString
  contentIndex : Option Nat := none
  snapshot : Option (AssistantMessage Block) := none

inductive StreamEvent (Block : Type*) where
  | text (event : TextEvent Block)
  | done (event : DoneEvent Block)
  | error (event : ErrorEvent Block)
  | other (event : OtherEvent Block)
  /-- Not a record. -/
  | unstructured

/-- Result of repairing the final message carried by a provider stream `done` event. -/
inductive PlainTextToolCallMessageNormalization (Block : Type*) where
  | promoted (message : AssistantMessage Block)
  | scrubbed (message : AssistantMessage Block)

/-- How snapshots lose text: by what the buffer holds, or down to the visible suffix. -/
structure SnapshotRewrites (Block : Type*) where
  scrubBufferedText : JsString → Option Nat → Bool → Option Nat → AssistantMessage Block → AssistantMessage Block
  replaceTextContentWithVisibleSuffix : JsString → Option Nat → AssistantMessage Block → AssistantMessage Block
  /-- The snapshot of a text delta that carries the visible suffix. -/
  scrubbedSnapshot : JsString → Option Nat → Option (AssistantMessage Block) → AssistantMessage Block

structure PlainTextToolCallStreamNormalizerOptions (Block : Type*) where
  createPromotedToolCallEvents : AssistantMessage Block → List (StreamEvent Block)
  matcher : PlainTextToolCallNameMatcher
  normalizeDoneMessage : Option (AssistantMessage Block) → Option JsString →
    Option (PlainTextToolCallMessageNormalization Block)
  stopAfterDone : Bool := false
  snapshots : SnapshotRewrites Block

/-! ## Buffered text -/

def TEXT_TOOL_CALL_SUPPRESSED_SCAN_MAX_CHARS : Nat := TEXT_TOOL_CALL_BUFFER_MAX_CHARS + 64000

def TEXT_TOOL_CALL_SUPPRESSED_TAIL_CHARS : Nat :=
  TEXT_TOOL_CALL_SUPPRESSED_SCAN_MAX_CHARS - TEXT_TOOL_CALL_BUFFER_MAX_CHARS

def TEXT_TOOL_CALL_SUPPRESSED_MARKER_SCAN_CHARS : Nat := 2048

section Buffers

variable {Block : Type*}

def getTextToolCallEventText (event : TextEvent Block) : Option JsString :=
  event.delta.or event.content

def appendTextToolCallBuffer (bufferedText : JsString) (event : TextEvent Block) : JsString :=
  match getTextToolCallEventText event with
  | none => bufferedText
  | some text =>
    if event.content.isSome = true ∧ bufferedText = [] then text
    else if event.delta.isSome = true then bufferedText ++ text
    else bufferedText

/-- `/\[\/[A-Za-z0-9_.:-]+\]/`. -/
def hasBracketClose : JsString → Bool
  | [] => false
  | u :: text =>
    (match afterLiteral (js "[/") (u :: text) with
      | none => false
      | some rest => decide (rest.takeWhile isXmlishNameChar ≠ []) &&
          (rest.dropWhile isXmlishNameChar).head? == some RBRACKET) || hasBracketClose text

/-- `text.includes(literal)`. -/
def includes (literal : JsString) : JsString → Bool
  | [] => literal.isEmpty
  | u :: text => literal.isPrefixOf (u :: text) || includes literal text

def hasSuppressedToolCallClosingMarker (text : JsString) : Bool :=
  decide (text ≠ []) && ((splitAtMarkerIgnoreCase (js "</parameter>") text).isSome ||
      (splitAtMarkerIgnoreCase (js "</function>") text).isSome || includes END_TOOL_REQUEST text ||
      includes HARMONY_CALL_MARKER text || decide (RBRACE ∈ text) || hasBracketClose text)

/-- `text.slice(-count)`. -/
def lastUnits (text : JsString) (count : Nat) : JsString :=
  text.drop (text.length - count)

def shouldRescanSuppressedTextToolCallBuffer (previousBufferedText : JsString) (event : TextEvent Block) : Bool :=
  match truthy? (getTextToolCallEventText event) with
  | none => false
  | some eventText =>
    hasSuppressedToolCallClosingMarker
      (lastUnits previousBufferedText TEXT_TOOL_CALL_SUPPRESSED_MARKER_SCAN_CHARS ++ eventText)

def truncateSuppressedTextToolCallBuffer (text : JsString) : JsString :=
  if text.length ≤ TEXT_TOOL_CALL_SUPPRESSED_SCAN_MAX_CHARS then text
  else text.take TEXT_TOOL_CALL_BUFFER_MAX_CHARS ++ lastUnits text TEXT_TOOL_CALL_SUPPRESSED_TAIL_CHARS

structure AppendedBuffer where
  changed : Bool
  scanText : JsString
  text : JsString

def appendSuppressedTextToolCallBuffer (bufferedText : JsString) (event : TextEvent Block) : AppendedBuffer :=
  let nextText := appendTextToolCallBuffer bufferedText event
  if nextText = bufferedText then ⟨false, bufferedText, bufferedText⟩
  else ⟨true, nextText, truncateSuppressedTextToolCallBuffer nextText⟩

def appendReclassifiedVisibleDelta (visibleText : JsString) (event : TextEvent Block) : JsString :=
  visibleText ++ event.delta.getD []

variable (matcher : PlainTextToolCallNameMatcher)

def isAllowedTextToolCallLikeEvent (event : TextEvent Block) : Bool :=
  (getTextToolCallEventText event).any fun text =>
    decide (trim text ≠ []) && decide (getPlainTextToolCallBufferState matcher text ≠ .impossible)

def suppressedBufferState (bufferedText : JsString) (event : TextEvent Block) : PlainTextToolCallBufferState :=
  let appended := appendSuppressedTextToolCallBuffer bufferedText event
  if appended.changed = true ∧ shouldRescanSuppressedTextToolCallBuffer bufferedText event = true then
    getPlainTextToolCallBufferState matcher appended.scanText
  else .overCap

end Buffers

/-! ## The stream -/

/-- What the generator keeps between events; an index that is not set differs from one that is `undefined`. -/
structure NormalizerState (Block : Type*) where
  bufferedEvents : List (StreamEvent Block) := []
  bufferedText : JsString := []
  suppressingOverCapTextToolCall : Bool := false
  suppressedTextContentIndex : Option (Option Nat) := none
  reclassifiedMixedTextContentIndex : Option (Option Nat) := none
  scrubReclassifiedMixedTextFromDone : Bool := false
  reclassifiedMixedVisibleText : Option JsString := none

/-- What one event leaves: the state, what is shown, and whether the stream ends there. -/
structure NormalizerStep (Block : Type*) where
  state : NormalizerState Block
  emitted : List (StreamEvent Block) := []
  finished : Bool := false

/-- The visible text of a reclassified message, while its final snapshots are to be reduced to it. -/
def NormalizerState.mixedVisibleText {Block : Type*} (state : NormalizerState Block) : Option JsString :=
  if state.scrubReclassifiedMixedTextFromDone = true then state.reclassifiedMixedVisibleText else none

section Normalizer

variable {Block : Type*} (options : PlainTextToolCallStreamNormalizerOptions Block)

def scrubBufferedTextFromPartial (bufferedText : JsString) (contentIndex : Option Nat) (preserve : Bool) :
    StreamEvent Block → StreamEvent Block
  | .text event => .text { event with
      snapshot := event.snapshot.map
        (options.snapshots.scrubBufferedText bufferedText contentIndex preserve event.contentIndex) }
  | .error event => .error { event with
      snapshot := event.snapshot.map (options.snapshots.scrubBufferedText bufferedText contentIndex preserve none) }
  | .other event => .other { event with
      snapshot := event.snapshot.map
        (options.snapshots.scrubBufferedText bufferedText contentIndex preserve event.contentIndex) }
  | event => event

/-- The snapshot of an event down to the visible suffix. -/
def scrubReclassifiedMixedTextFromPartial (visibleText : JsString) (contentIndex : Option Nat) :
    StreamEvent Block → StreamEvent Block
  | .text event => .text { event with
      snapshot := event.snapshot.map (options.snapshots.replaceTextContentWithVisibleSuffix visibleText contentIndex) }
  | .error event => .error { event with
      snapshot := event.snapshot.map (options.snapshots.replaceTextContentWithVisibleSuffix visibleText contentIndex) }
  | .other event => .other { event with
      snapshot := event.snapshot.map (options.snapshots.replaceTextContentWithVisibleSuffix visibleText contentIndex) }
  | event => event

def createScrubbedTextDeltaEvent (event : TextEvent Block) (text : JsString) : StreamEvent Block :=
  .text { event with
    type := .text_delta
    delta := some text
    content := none
    snapshot := some (options.snapshots.scrubbedSnapshot text event.contentIndex event.snapshot) }

def isBufferedTextEvent : StreamEvent Block → Bool
  | .text _ => true
  | _ => false

variable (state : NormalizerState Block)

def flushScrubbedBufferedNonTextEvents : List (StreamEvent Block) :=
  (state.bufferedEvents.filter fun event => !isBufferedTextEvent event).map
    (scrubBufferedTextFromPartial options state.bufferedText (state.suppressedTextContentIndex.getD none)
      state.suppressingOverCapTextToolCall)

/-- The state without what was buffered. -/
def NormalizerState.cleared : NormalizerState Block :=
  { state with bufferedEvents := [], bufferedText := [] }

variable (record : TextEvent Block)

def endSuppression (visibleText : JsString) : NormalizerStep Block where
  state := { state.cleared with
    suppressingOverCapTextToolCall := false
    suppressedTextContentIndex := none
    reclassifiedMixedTextContentIndex := some record.contentIndex
    scrubReclassifiedMixedTextFromDone := true
    reclassifiedMixedVisibleText := some visibleText }
  emitted := flushScrubbedBufferedNonTextEvents options state ++
    if trim visibleText = [] then [] else [createScrubbedTextDeltaEvent options record visibleText]

def suppressTextEvent : NormalizerStep Block :=
  if state.suppressedTextContentIndex.isSome = true ∧ state.suppressedTextContentIndex ≠ some record.contentIndex then
    if isAllowedTextToolCallLikeEvent options.matcher record = true then { state := state }
    else
      { state := state
        emitted := [scrubBufferedTextFromPartial options state.bufferedText
          (state.suppressedTextContentIndex.getD none) true (.text record)] }
  else
    let appended := appendSuppressedTextToolCallBuffer state.bufferedText record
    let suppressed := { state with bufferedText := appended.text }
    if suppressedBufferState options.matcher state.bufferedText record = .impossible then
      endSuppression options suppressed record
        ((stripSerializedToolCallPrefixes options.matcher appended.scanText).getD [])
    else { state := suppressed }

def beginSuppression (scanBufferedText : JsString) : NormalizerStep Block :=
  let suppressing := { state with
    bufferedText := scanBufferedText
    suppressedTextContentIndex := some record.contentIndex
    suppressingOverCapTextToolCall := true }
  { state := { suppressing with bufferedEvents := [] }
    emitted := flushScrubbedBufferedNonTextEvents options suppressing }

/-- A tool call followed by visible text: only the suffix is shown. -/
def reclassifyMixedText (visibleText : JsString) : NormalizerStep Block where
  state := { state.cleared with
    reclassifiedMixedTextContentIndex := some record.contentIndex
    scrubReclassifiedMixedTextFromDone := true
    reclassifiedMixedVisibleText := some visibleText }
  emitted := flushScrubbedBufferedNonTextEvents options state ++
    [createScrubbedTextDeltaEvent options record visibleText]

def visibleTextBehindCalls (bufferedText : JsString) (scanWasTruncated : Bool) : JsString :=
  if scanWasTruncated = false ∧ TEXT_TOOL_CALL_BUFFER_MAX_CHARS < bufferedText.length then
    (stripSerializedToolCallPrefixes options.matcher (trimStart bufferedText)).getD []
  else []

/-- The buffer is no call: the suffix is shown, or the calls at the start are suppressed, or all is shown. -/
def releaseTextEvents (scanBufferedText : JsString) : NormalizerStep Block :=
  let scanWasTruncated := decide (scanBufferedText.length ≠ state.bufferedText.length)
  let visibleText := visibleTextBehindCalls options state.bufferedText scanWasTruncated
  if trim visibleText ≠ [] then reclassifyMixedText options state record visibleText
  else if scanWasTruncated = true ∧
      (stripSerializedToolCallPrefixes options.matcher (trimStart scanBufferedText)).isSome = true then
    beginSuppression options state record scanBufferedText
  else { state := state.cleared, emitted := state.bufferedEvents }

def NormalizerState.buffering : NormalizerState Block :=
  { state with
    bufferedEvents := state.bufferedEvents ++ [.text record]
    bufferedText := appendTextToolCallBuffer state.bufferedText record }

def bufferTextEvent : NormalizerStep Block :=
  let buffered := state.buffering record
  let scanBufferedText := truncateSuppressedTextToolCallBuffer buffered.bufferedText
  match getPlainTextToolCallBufferState options.matcher scanBufferedText with
  | .impossible => releaseTextEvents options buffered record scanBufferedText
  | .overCap => beginSuppression options buffered record scanBufferedText
  | .possible => { state := buffered }

def normalizeTextEvent : NormalizerStep Block :=
  let sameIndex := decide (state.reclassifiedMixedTextContentIndex = some record.contentIndex)
  if record.type = .text_end ∧ sameIndex = true then { state := state }
  else
    match if sameIndex = true then state.mixedVisibleText else none with
    | some visibleText =>
      let visibleText := appendReclassifiedVisibleDelta visibleText record
      { state := { state with reclassifiedMixedVisibleText := some visibleText }
        emitted := [scrubReclassifiedMixedTextFromPartial options visibleText record.contentIndex (.text record)] }
    | none =>
      if state.suppressingOverCapTextToolCall = true then suppressTextEvent options state record
      else bufferTextEvent options state record

/-- The state once a final message has been repaired. -/
def NormalizerState.settled : NormalizerState Block :=
  { state.cleared with
    suppressingOverCapTextToolCall := false
    suppressedTextContentIndex := none
    scrubReclassifiedMixedTextFromDone := false
    reclassifiedMixedTextContentIndex := none
    reclassifiedMixedVisibleText := none }

def normalizeDoneEvent (record : DoneEvent Block) : NormalizerStep Block :=
  let finish := fun (state' : NormalizerState Block) (emitted : List (StreamEvent Block)) =>
    ({ state := state', emitted := emitted, finished := options.stopAfterDone } : NormalizerStep Block)
  match options.normalizeDoneMessage record.message record.reason with
  | some (.promoted message) =>
    finish state.settled (flushScrubbedBufferedNonTextEvents options state ++
      options.createPromotedToolCallEvents message ++ [.done ⟨some (js "toolUse"), some message⟩])
  | some (.scrubbed message) =>
    finish state.settled
      (flushScrubbedBufferedNonTextEvents options state ++ [.done { record with message := some message }])
  | none =>
    match record.message, state.mixedVisibleText with
    | some message, some visibleText =>
      let strippedMixedMessage := options.snapshots.replaceTextContentWithVisibleSuffix visibleText
        (state.reclassifiedMixedTextContentIndex.getD none) message
      finish { state.cleared with
          scrubReclassifiedMixedTextFromDone := false
          reclassifiedMixedTextContentIndex := none
          reclassifiedMixedVisibleText := none }
        (flushScrubbedBufferedNonTextEvents options state ++
          [.done { record with message := some strippedMixedMessage }])
    | _, _ =>
      if state.suppressingOverCapTextToolCall = true then
        let scrubbedDoneMessage := record.message.map (options.snapshots.scrubBufferedText state.bufferedText
          (state.suppressedTextContentIndex.getD none) false none)
        finish state.settled (flushScrubbedBufferedNonTextEvents options state ++
          [.done { record with message := scrubbedDoneMessage }])
      else finish state.cleared (state.bufferedEvents ++ [.done record])

def normalizeErrorEvent (record : ErrorEvent Block) : NormalizerStep Block :=
  if state.suppressingOverCapTextToolCall = true then
    let contentIndex := state.suppressedTextContentIndex.getD none
    let scrub := options.snapshots.scrubBufferedText state.bufferedText contentIndex
    { state := state
      emitted := [.error ⟨record.snapshot.map (scrub true none), record.error.map (scrub false none)⟩]
      finished := true }
  else
    match state.mixedVisibleText with
    | some visibleText =>
      let replace := options.snapshots.replaceTextContentWithVisibleSuffix visibleText
        (state.reclassifiedMixedTextContentIndex.getD none)
      { state := state.cleared
        emitted := state.bufferedEvents ++ [.error ⟨record.snapshot.map replace, record.error.map replace⟩]
        finished := true }
    | none => { state := state.cleared, emitted := state.bufferedEvents ++ [.error record], finished := true }

def normalizeOtherEvent (record : OtherEvent Block) : NormalizerStep Block :=
  match state.mixedVisibleText with
  | some visibleText =>
    { state := state
      emitted := [scrubReclassifiedMixedTextFromPartial options visibleText
        (state.reclassifiedMixedTextContentIndex.getD none) (.other record)] }
  | none =>
    if state.suppressingOverCapTextToolCall = true then
      { state := state
        emitted := [scrubBufferedTextFromPartial options state.bufferedText
          (state.suppressedTextContentIndex.getD none) true (.other record)] }
    else if state.bufferedEvents = [] then { state := state, emitted := [.other record] }
    else { state := { state with bufferedEvents := state.bufferedEvents ++ [.other record] } }

def normalizeEvent : StreamEvent Block → NormalizerStep Block
  | .text record => normalizeTextEvent options state record
  | .done record => normalizeDoneEvent options state record
  | .error record => normalizeErrorEvent options state record
  | .other record => normalizeOtherEvent options state record
  | .unstructured => { state := state, emitted := [.unstructured] }

def normalizeEvents : NormalizerState Block → List (StreamEvent Block) → NormalizerStep Block
  | state, [] => { state := state }
  | state, event :: events =>
    let step := normalizeEvent options state event
    if step.finished = true then step
    else
      let rest := normalizeEvents step.state events
      { rest with emitted := step.emitted ++ rest.emitted }

/-- Buffers provider stream text long enough to promote or hide leaked plain-text tool calls. -/
def normalizePlainTextToolCallStreamEvents (source : List (StreamEvent Block)) : List (StreamEvent Block) :=
  let step := normalizeEvents options {} source
  step.emitted ++
    if step.finished = true ∨ step.state.suppressingOverCapTextToolCall = true then [] else step.state.bufferedEvents

end Normalizer

end ClawWorks.ToolCallRepair
