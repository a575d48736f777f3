import ClawWorks.Js.Object
import ClawWorks.ToolCallRepair.Grammar

/-!
# Parsing leaked tool calls

Whether `JSON.parse` gives an object is a parameter (`JsonObjects`).
-/

namespace ClawWorks.ToolCallRepair

/-- `JSON.parse` gives an object that is no array. -/
class JsonObjects where
  isObject : JsString → Bool

/-- The arguments of a call: the JSON text of an object, or the values of parameters. -/
inductive ToolCallArguments where
  | json (raw : JsString)
  | parameters (values : PlainObject JsString)

structure PlainTextToolCallBlock where
  arguments : ToolCallArguments
  name : JsString
  raw : JsString
  start : Nat
  stop : Nat

def DEFAULT_MAX_PLAIN_TEXT_TOOL_PAYLOAD_BYTES : Nat := 256000

/-- A header, with the text behind it. -/
structure PlainTextToolCallOpening where
  allowsOptionalXmlishClose : Bool := false
  rest : JsString
  name : JsString
  requiresClosing : Bool

structure PlainTextToolCall where
  arguments : ToolCallArguments
  name : JsString
  rest : JsString

/-! ## Headers -/

def parseBracketOpening : JsString → Option PlainTextToolCallOpening
  | [] => none
  | bracket :: inner =>
    if bracket ≠ LBRACKET then none
    else
      match afterLiteral (js "tool:") inner with
      | some named =>
        let close := named.dropWhile isPlainTextToolNameChar
        if named.takeWhile isPlainTextToolNameChar = [] ∨ close.head? ≠ some RBRACKET then none
        else some ⟨true, close.tail, named.takeWhile isPlainTextToolNameChar, false⟩
      | none =>
        let close := inner.dropWhile isPlainTextToolNameChar
        if inner.takeWhile isPlainTextToolNameChar = [] ∨ close.head? ≠ some RBRACKET then none
        else
          (consumeLineBreak (skipHorizontalWhitespace close.tail)).map fun rest =>
            ⟨false, rest, inner.takeWhile isPlainTextToolNameChar, true⟩

variable (text : JsString)

def parseHarmonyOpening : Option PlainTextToolCallOpening :=
  let afterMarker := (afterLiteral HARMONY_CHANNEL_MARKER text).getD text
  if afterMarker.takeWhile isChannelChar ∉ HARMONY_CHANNELS then none
  else
    match afterLiteral (js "to=") (skipHorizontalWhitespace (afterMarker.dropWhile isChannelChar)) with
    | none => none
    | some named =>
      if named.takeWhile isPlainTextToolNameChar = [] then none
      else
        (afterLiteral (js "code") (skipHorizontalWhitespace (named.dropWhile isPlainTextToolNameChar))).map
          fun afterCode =>
            let rest := skipWhitespace afterCode
            ⟨false, ((afterLiteral HARMONY_MESSAGE_MARKER rest).map skipWhitespace).getD rest,
              named.takeWhile isPlainTextToolNameChar, false⟩

/-- The longest name an XML-like header may have. -/
def MAX_XMLISH_NAME : Nat := 120

/-- `^<marker=([A-Za-z0-9_.:-]{1,120})>`, in whatever case: the name and what follows. -/
def xmlishHeader (marker text : JsString) : Option (JsString × JsString) :=
  match afterMarkerIgnoreCase marker text with
  | none => none
  | some named =>
    let close := named.dropWhile isXmlishNameChar
    if named.takeWhile isXmlishNameChar = [] ∨ MAX_XMLISH_NAME < (named.takeWhile isXmlishNameChar).length ∨
        close.head? ≠ some GREATER then none
    else some (named.takeWhile isXmlishNameChar, close.tail)

def parseXmlishFunctionOpening : Option PlainTextToolCallOpening :=
  (xmlishHeader (js "<function=") text).map fun found => ⟨false, skipWhitespace found.2, found.1, false⟩

def parseOpening : Option PlainTextToolCallOpening :=
  (parseBracketOpening text).or (parseHarmonyOpening text)

def parseXmlishOpening : Option PlainTextToolCallOpening :=
  (parseBracketOpening text).or (parseXmlishFunctionOpening text)

def parseClosing (text name : JsString) : Option JsString :=
  (afterLiteral END_TOOL_REQUEST (skipWhitespace text)).or
    (afterLiteral (js "[/" ++ name ++ js "]") (skipWhitespace text))

def parseOptionalHarmonyClosing : JsString :=
  (afterLiteral HARMONY_CALL_MARKER (skipWhitespace text)).getD text

section Calls

variable [JsonObjects]

variable (text : JsString)

def consumeJsonObject (maxPayloadBytes : Nat) : Option (JsString × JsString) :=
  let payload := skipWhitespace text
  if payload.head? ≠ some LBRACE then none
  else
    match findJsonObjectEnd payload (some maxPayloadBytes) with
    | none => none
    | some length =>
      if JsonObjects.isObject (payload.take length) = true then some (payload.take length, payload.drop length)
      else none

def parsePlainTextToolCallBlockAt : Option PlainTextToolCall :=
  match parseOpening text with
  | none => none
  | some opening =>
    match consumeJsonObject opening.rest DEFAULT_MAX_PLAIN_TEXT_TOOL_PAYLOAD_BYTES with
    | none => none
    | some (raw, rest) =>
      if opening.requiresClosing = true then
        (parseClosing rest opening.name).map fun closed => ⟨.json raw, opening.name, closed⟩
      else some ⟨.json raw, opening.name, parseOptionalHarmonyClosing rest⟩

/-- The value of a parameter without the line breaks around it. -/
def extractXmlishParameterValue (value : JsString) : JsString :=
  match consumeLineBreak value with
  | none => value
  | some inner =>
    if inner.getLast? = some 10 then
      if inner.dropLast.getLast? = some 13 then inner.dropLast.dropLast else inner.dropLast
    else if inner.getLast? = some 13 then inner.dropLast
    else inner

/-- A parameter: its name, its value, and what follows. -/
def consumeXmlishParameterBlock (maxPayloadBytes : Nat) : Option (JsString × JsString × JsString) :=
  let start := skipWhitespace text
  match xmlishHeader (js "<parameter=") start with
  | none => none
  | some (name, payload) =>
    match splitAtMarkerIgnoreCase (js "</parameter>") payload with
    | none => none
    | some (value, rest) =>
      if maxPayloadBytes < start.length - rest.length then none
      else some (name, extractXmlishParameterValue value, rest)

/-- `args[name] = value`; a string assigned to `__proto__` is dropped. -/
def assignParameter (args : PlainObject JsString) (name value : JsString) : PlainObject JsString :=
  if name = js "__proto__" then args else JsMap.set args name value

/-- The parameters at the start of a text, how many there are with the `parameterCount` before them, and what follows;
none where they are too long. -/
def consumeXmlishParameters (maxPayloadBytes openingLength : Nat) :
    Nat → Nat → PlainObject JsString → JsString → Option (Nat × PlainObject JsString × JsString)
  | 0, parameterCount, args, text => some (parameterCount, args, text)
  | fuel + 1, parameterCount, args, text =>
    match consumeXmlishParameterBlock text maxPayloadBytes with
    | none => some (parameterCount, args, text)
    | some (name, value, rest) =>
      if maxPayloadBytes < openingLength - rest.length then none
      else
        consumeXmlishParameters maxPayloadBytes openingLength fuel (parameterCount + 1)
          (assignParameter args name value) rest

def consumeXmlishFunctionClose : Option JsString :=
  afterMarkerIgnoreCase (js "</function>") (skipWhitespace text)

def parseXmlishPlainTextToolCallBlockAt : Option PlainTextToolCall :=
  match parseXmlishOpening text with
  | none => none
  | some opening =>
    match consumeXmlishParameters DEFAULT_MAX_PLAIN_TEXT_TOOL_PAYLOAD_BYTES opening.rest.length opening.rest.length 0
        [] opening.rest with
    | none => none
    | some (parameterCount, args, rest) =>
      if parameterCount = 0 then none
      else if opening.allowsOptionalXmlishClose = true then
        some ⟨.parameters args, opening.name, (consumeXmlishFunctionClose rest).getD rest⟩
      else (consumeXmlishFunctionClose rest).map fun closed => ⟨.parameters args, opening.name, closed⟩

def parseToolCallAt : Option PlainTextToolCall :=
  (parsePlainTextToolCallBlockAt text).or (parseXmlishPlainTextToolCallBlockAt text)

/-- The calls a text consists of; its offsets count from the start of a text of `total` characters. -/
def parseToolCalls (total : Nat) : Nat → JsString → Option (List PlainTextToolCallBlock)
  | _, [] => some []
  | 0, _ :: _ => none
  | fuel + 1, u :: text =>
    match parseToolCallAt (u :: text) with
    | none => none
    | some call =>
      (parseToolCalls total fuel (skipWhitespace call.rest)).map fun blocks =>
        { arguments := call.arguments
          name := call.name
          raw := (u :: text).take ((u :: text).length - call.rest.length)
          start := total - (u :: text).length
          stop := total - call.rest.length } :: blocks

def parseStandalonePlainTextToolCallBlocks : Option (List PlainTextToolCallBlock) :=
  match parseToolCalls text.length text.length (skipWhitespace text) with
  | none => none
  | some blocks => if blocks = [] then none else some blocks

end Calls

end ClawWorks.ToolCallRepair
