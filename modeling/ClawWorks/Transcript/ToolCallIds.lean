import ClawWorks.Transcript.Messages

/-!
# Rewriting tool-call ids

The rewriting of ids for providers that take only some of them, in the modes that keep no id of the transcript's own.
The digest is a parameter, and so is the clock, which is read only where the retries are used up.
-/

namespace ClawWorks.Transcript

variable {α : Type*}

inductive ToolCallIdMode
  | strict
  | strict9

def STRICT9_LEN : Nat := 9
def MAX_LEN : Nat := 40
def COLON : UInt16 := 58

/-- `sha256` in hexadecimal. -/
class Digest where
  hexDigest : JsString → JsString
  length : ∀ text, (hexDigest text).length = 64
  alphanumeric : ∀ text, ∀ u ∈ hexDigest text, isAlphanumeric u = true

/-- `Date.now()` in decimal. -/
class Clock where
  now : JsString
  digits : ∀ u ∈ now, isDigit u = true

/-- `/^functions\.[A-Za-z0-9_-]+:\d+$/`. -/
def isNativeKimiToolCallId (id : JsString) : Bool :=
  let isNameUnit (u : UInt16) : Bool := isAlphanumeric u || u == 95 || u == DASH
  let named := id.drop 10
  let name := named.takeWhile isNameUnit
  let rest := named.dropWhile isNameUnit
  (js "functions.").isPrefixOf id && !name.isEmpty && rest.head? == some COLON && !rest.tail.isEmpty &&
    rest.tail.all isDigit

/-- `` `${n}` ``. -/
def decimal (n : Nat) : JsString :=
  js (toString n)

section Ids

variable [Digest]

def shortHash (text : JsString) (length : Nat) : JsString :=
  (Digest.hexDigest text).take length

def sanitizeToolCallId (id : JsString) : ToolCallIdMode → JsString
  | .strict9 =>
    let alphanumericOnly := id.filter isAlphanumeric
    if id.isEmpty then js "defaultid"
    else if STRICT9_LEN ≤ alphanumericOnly.length then alphanumericOnly.take STRICT9_LEN
    else if 0 < alphanumericOnly.length then shortHash alphanumericOnly STRICT9_LEN
    else shortHash (js "sanitized") STRICT9_LEN
  | .strict =>
    let alphanumericOnly := id.filter isAlphanumeric
    if id.isEmpty then js "defaulttoolid"
    else if isNativeKimiToolCallId id then id
    else if 0 < alphanumericOnly.length then alphanumericOnly
    else js "sanitizedtoolid"

def isValidCloudCodeAssistToolId (id : JsString) : ToolCallIdMode → Bool
  | .strict9 => id.length == STRICT9_LEN && id.all isAlphanumeric
  | .strict => !id.isEmpty && (id.all isAlphanumeric || isNativeKimiToolCallId id)

def hashedCandidate (id base : JsString) : JsString :=
  let hash := shortHash id 8
  let maxBaseLen := MAX_LEN - hash.length
  let clippedBase := if maxBaseLen < base.length then base.take maxBaseLen else base
  clippedBase ++ hash

variable [Clock]

def makeUniqueToolId (id : JsString) (used : List JsString) : ToolCallIdMode → JsString × Bool
  | .strict9 =>
    let base := sanitizeToolCallId id .strict9
    let candidate := if STRICT9_LEN ≤ base.length then base.take STRICT9_LEN else []
    if !candidate.isEmpty && !used.contains candidate then (candidate, false)
    else
      match ((List.range 1000).map fun i => shortHash (id ++ COLON :: decimal i) STRICT9_LEN).find?
        (!used.contains ·) with
      | some hashed => (hashed, false)
      | none => (shortHash (id ++ COLON :: Clock.now) STRICT9_LEN, true)
  | .strict =>
    let base := (sanitizeToolCallId id .strict).take MAX_LEN
    if !used.contains base then (base, false)
    else
      let candidate := hashedCandidate id base
      let next (suffix : JsString) : JsString := candidate.take (MAX_LEN - suffix.length) ++ suffix
      if !used.contains candidate then (candidate, false)
      else
        match ((List.range' 2 998).map fun i => next (js "x" ++ decimal i)).find? (!used.contains ·) with
        | some id => (id, false)
        | none => (next (js "t" ++ Clock.now), true)

/-- `exhausted` is no field of the source: it says whether an id was made with the clock. -/
structure Resolver where
  used : List JsString
  assistantOccurrences : JsMap JsString Nat
  orphanToolResultOccurrences : JsMap JsString Nat
  pendingByRawId : JsMap JsString (List JsString)
  exhausted : Bool

def createOccurrenceAwareResolver : Resolver where
  used := []
  assistantOccurrences := []
  orphanToolResultOccurrences := []
  pendingByRawId := []
  exhausted := false

variable (mode : ToolCallIdMode)

def allocate (seed : JsString) (s : Resolver) : JsString × Resolver :=
  let made := makeUniqueToolId seed s.used mode
  (made.1, { s with used := made.1 :: s.used, exhausted := s.exhausted || made.2 })

def occurrenceSeed (id : JsString) (occurrence : Nat) : JsString :=
  if occurrence = 1 then id else id ++ COLON :: decimal occurrence

def resolveAssistantId (id : JsString) (s : Resolver) : JsString × Resolver :=
  let occurrence := (s.assistantOccurrences.get id).getD 0 + 1
  let allocated := allocate mode (occurrenceSeed id occurrence)
    { s with assistantOccurrences := s.assistantOccurrences.set id occurrence }
  let pending := (s.pendingByRawId.get id).getD []
  (allocated.1, { allocated.2 with pendingByRawId := s.pendingByRawId.set id (pending ++ [allocated.1]) })

/-- The queue of an id that is emptied is deleted, which is the same to every reader as an empty one. -/
def resolveToolResultId (id : JsString) (s : Resolver) : JsString × Resolver :=
  match (s.pendingByRawId.get id).getD [] with
  | next :: pending => (next, { s with pendingByRawId := s.pendingByRawId.set id pending })
  | [] =>
    let occurrence := (s.orphanToolResultOccurrences.get id).getD 0 + 1
    allocate mode (id ++ js ":tool_result:" ++ decimal occurrence)
      { s with orphanToolResultOccurrences := s.orphanToolResultOccurrences.set id occurrence }

/-! ## Messages -/

def rewriteBlock (block : Block α) (s : Resolver) : Block α × Resolver :=
  match block with
  | .object (some type) (some id) name rest =>
    if !id.isEmpty && TOOL_CALL_TYPES.contains type then
      let (nextId, s) := resolveAssistantId mode id s
      (.object (some type) (some nextId) name rest, s)
    else (block, s)
  | _ => (block, s)

def rewriteBlocks (mode : ToolCallIdMode) : List (Block α) → Resolver → List (Block α) × Resolver
  | [], s => ([], s)
  | block :: blocks, s =>
    let (block, s) := rewriteBlock mode block s
    let (blocks, s) := rewriteBlocks mode blocks s
    (block :: blocks, s)

def rewriteAssistantToolCallIds (message : AssistantMessage α) (s : Resolver) : AssistantMessage α × Resolver :=
  match message.content with
  | none => (message, s)
  | some content =>
    let (next, s) := rewriteBlocks mode content s
    ({ message with content := some next }, s)

/-- The id a result is rewritten by: the first of the fields, in an order of its own, that is not empty. -/
def primaryRawId (message : ToolResultMessage α) : Option JsString :=
  [message.call_id, message.callId, message.tool_call_id, message.tool_use_id, message.toolCallId,
    message.toolUseId].findSome? truthy?

def updateIdField (resolvedId : JsString) (field : Option JsString) : Option JsString :=
  if (truthy? field).isSome then some resolvedId else field

def rewriteToolResultIds (message : ToolResultMessage α) (s : Resolver) : ToolResultMessage α × Resolver :=
  match primaryRawId message with
  | none => (message, s)
  | some primary =>
    let resolved := resolveToolResultId mode primary s
    let update := updateIdField resolved.1
    ({ message with
        toolCallId := if message.toolCallId.isNone && !resolved.1.isEmpty then some resolved.1
          else update message.toolCallId
        toolUseId := update message.toolUseId
        tool_call_id := update message.tool_call_id
        tool_use_id := update message.tool_use_id
        callId := update message.callId
        call_id := update message.call_id }, resolved.2)

def rewriteMessage (message : Message α) (s : Resolver) : Message α × Resolver :=
  match message with
  | .assistant message =>
    let rewritten := rewriteAssistantToolCallIds mode message s
    (.assistant rewritten.1, rewritten.2)
  | .toolResult message =>
    let rewritten := rewriteToolResultIds mode message s
    (.toolResult rewritten.1, rewritten.2)
  | .other value => (.other value, s)

def rewriteMessages (messages : List (Message α)) : List (Message α) × Resolver :=
  messages.foldl (fun acc message =>
    let rewritten := rewriteMessage mode message acc.2
    (acc.1 ++ [rewritten.1], rewritten.2)) ([], createOccurrenceAwareResolver)

def sanitizeToolCallIdsForCloudCodeAssist (messages : List (Message α)) : List (Message α) :=
  (rewriteMessages mode messages).1

end Ids

end ClawWorks.Transcript
