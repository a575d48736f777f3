import ClawWorks.Js.LowerCase
import ClawWorks.Lib.Prefixes

/-!
# The grammar of leaked tool calls

Models sometimes write a tool call as text, in one of four syntaxes: `[tool:name]` and `[name]` headers, harmony
channels, and XML-like functions. A cursor into a text is modelled as the text from there on.
-/

namespace ClawWorks.ToolCallRepair

open Unfinished (matchesLiteral)

/-! ## Markers -/

def END_TOOL_REQUEST : JsString := js "[END_TOOL_REQUEST]"
def HARMONY_CHANNEL_MARKER : JsString := js "<|channel|>"
def HARMONY_MESSAGE_MARKER : JsString := js "<|message|>"
def HARMONY_CALL_MARKER : JsString := js "<|call|>"

def HARMONY_CHANNELS : List JsString :=
  [js "commentary", js "analysis", js "final"]

def LBRACKET : UInt16 := 91
def RBRACKET : UInt16 := 93
def LBRACE : UInt16 := 123
def RBRACE : UInt16 := 125
def GREATER : UInt16 := 62

variable (u : UInt16)

def isLetter : Bool :=
  (65 ≤ u && u ≤ 90) || (97 ≤ u && u ≤ 122)

/-- `[A-Za-z0-9_-]`. -/
def isPlainTextToolNameChar : Bool :=
  isLetter u || isDigit u || u == 95 || u == 45

/-- `[A-Za-z0-9_.:-]`. -/
def isXmlishNameChar : Bool :=
  isPlainTextToolNameChar u || u == 46 || u == 58

/-- `[A-Za-z_]`. -/
def isChannelChar : Bool :=
  isLetter u || u == 95

def isHorizontalSpace : Bool :=
  u == 32 || u == 9

/-! ## Cursors -/

variable (text : JsString)

def skipHorizontalWhitespace : JsString :=
  text.dropWhile isHorizontalSpace

def skipWhitespace : JsString :=
  text.dropWhile isWhiteSpace

/-- `text.trimStart()`. -/
def trimStart : JsString :=
  text.dropWhile isWhiteSpace

/-- What follows a Unix or Windows line ending. -/
def consumeLineBreak : JsString → Option JsString
  | 13 :: 10 :: rest => some rest
  | 13 :: rest => some rest
  | 10 :: rest => some rest
  | _ => none

/-- What follows a literal: `text.startsWith(literal, cursor)`. -/
def afterLiteral (literal text : JsString) : Option JsString :=
  if literal.isPrefixOf text = true then some (text.drop literal.length) else none

def afterMarkerIgnoreCase (marker text : JsString) : Option JsString :=
  if marker.isPrefixOf (text.map asciiLower) = true then some (text.drop marker.length) else none

/-- The text before and after the first occurrence of a marker in whatever case. -/
def splitAtMarkerIgnoreCase (marker : JsString) : JsString → Option (JsString × JsString)
  | [] => none
  | u :: text =>
    match afterMarkerIgnoreCase marker (u :: text) with
    | some rest => some ([], rest)
    | none => (splitAtMarkerIgnoreCase marker text).map fun found => (u :: found.1, found.2)

/-- The length of the balanced JSON object at the start of a text, of which `read` characters have been read. -/
def findJsonObjectEndFrom (maxPayloadBytes : Option Nat) : Nat → Int → Bool → Bool → JsString → Option Nat
  | _, _, _, _, [] => none
  | read, depth, inString, escaped, char :: text =>
    if maxPayloadBytes.any (fun cap => decide (cap < read + 1)) = true then none
    else if inString = true then
      if escaped = true then findJsonObjectEndFrom maxPayloadBytes (read + 1) depth true false text
      else if char = 92 then findJsonObjectEndFrom maxPayloadBytes (read + 1) depth true true text
      else findJsonObjectEndFrom maxPayloadBytes (read + 1) depth (char != 34) false text
    else if char = 34 then findJsonObjectEndFrom maxPayloadBytes (read + 1) depth true escaped text
    else if char = LBRACE then findJsonObjectEndFrom maxPayloadBytes (read + 1) (depth + 1) false escaped text
    else if char = RBRACE then
      if depth - 1 = 0 then some (read + 1)
      else findJsonObjectEndFrom maxPayloadBytes (read + 1) (depth - 1) false escaped text
    else findJsonObjectEndFrom maxPayloadBytes (read + 1) depth false escaped text

def findJsonObjectEnd (maxPayloadBytes : Option Nat) : Option Nat :=
  findJsonObjectEndFrom maxPayloadBytes 0 0 false false text

/-! ## Complete calls -/

def skipSerializedToolCallTrailingLineBreak : JsString :=
  (consumeLineBreak text).getD text

/-- What follows `^\[\/[A-Za-z0-9_-]+\]`. -/
def afterBracketClose : Option JsString :=
  match afterLiteral (js "[/") text with
  | none => none
  | some rest =>
    let close := rest.dropWhile isPlainTextToolNameChar
    if rest.takeWhile isPlainTextToolNameChar ≠ [] ∧ close.head? = some RBRACKET then some close.tail else none

def consumeJsonToolClosingMarker : JsString :=
  let rest := skipWhitespace text
  match afterLiteral END_TOOL_REQUEST rest with
  | some after => skipSerializedToolCallTrailingLineBreak after
  | none =>
    match afterBracketClose rest with
    | some after => skipSerializedToolCallTrailingLineBreak after
    | none =>
      match afterLiteral HARMONY_CALL_MARKER rest with
      | some after => skipSerializedToolCallTrailingLineBreak after
      | none => skipSerializedToolCallTrailingLineBreak text

/-- The JSON after a bracketed header such as `[tool_name]\n\x7b...\x7d`. -/
def findBracketedJsonPayloadStart : Option JsString :=
  if text.head? = some LBRACKET ∧ RBRACKET ∈ text then
    let afterClose := (text.dropWhile (· != RBRACKET)).tail
    let payload := skipHorizontalWhitespace
      (skipSerializedToolCallTrailingLineBreak (skipHorizontalWhitespace afterClose))
    if payload.head? = some LBRACE then some payload else none
  else none

/-- What follows the name of a harmony header and its `code`. -/
def afterHarmonyCode : Option JsString :=
  match afterLiteral (js "to=") (skipHorizontalWhitespace text) with
  | none => none
  | some named =>
    if named.takeWhile isPlainTextToolNameChar = [] then none
    else
      (afterLiteral (js "code") (skipHorizontalWhitespace (named.dropWhile isPlainTextToolNameChar))).map fun rest =>
        let rest := skipWhitespace rest
        match afterLiteral HARMONY_MESSAGE_MARKER rest with
        | some after => skipWhitespace after
        | none => rest

def findHarmonyJsonPayloadStart : Option JsString :=
  let rest := (afterLiteral HARMONY_CHANNEL_MARKER text).getD text
  match HARMONY_CHANNELS.findSome? fun channel => afterLiteral channel rest with
  | none => none
  | some afterChannel =>
    match afterHarmonyCode afterChannel with
    | some payload => if payload.head? = some LBRACE then some payload else none
    | none => none

/-- `^<function=([A-Za-z0-9_.:-]+)>`, in whatever case: the name and what follows. -/
def xmlFunctionHeader : Option (JsString × JsString) :=
  match afterMarkerIgnoreCase (js "<function=") text with
  | none => none
  | some named =>
    let close := named.dropWhile isXmlishNameChar
    if named.takeWhile isXmlishNameChar ≠ [] ∧ close.head? = some GREATER then
      some (named.takeWhile isXmlishNameChar, close.tail)
    else none

/-- `^\[(?:tool:)?([A-Za-z0-9_-]+)\]`: the name and what follows. -/
def bracketHeader : Option (JsString × JsString) :=
  let header : JsString → Option (JsString × JsString) := fun named =>
    let close := named.dropWhile isPlainTextToolNameChar
    if named.takeWhile isPlainTextToolNameChar ≠ [] ∧ close.head? = some RBRACKET then
      some (named.takeWhile isPlainTextToolNameChar, close.tail)
    else none
  match text with
  | [] => none
  | bracket :: rest =>
    if bracket = LBRACKET then
      -- the optional `tool:` is taken first, and given back when the rest does not match
      ((afterLiteral (js "tool:") rest).bind header).or (header rest)
    else none

/-- The end of the parameters of a call: what follows the last one and an optional `</function>`. -/
def findXmlishParametersEnd : Nat → JsString → Option JsString
  | 0, _ => none
  | fuel + 1, text =>
    match splitAtMarkerIgnoreCase (js "</parameter>") text with
    | none => none
    | some (_, after) =>
      let rest := skipWhitespace after
      match afterMarkerIgnoreCase (js "</function>") rest with
      | some closed => some (skipSerializedToolCallTrailingLineBreak closed)
      | none =>
        if (afterMarkerIgnoreCase (js "<parameter=") rest).isSome = true then findXmlishParametersEnd fuel rest
        else some (skipSerializedToolCallTrailingLineBreak rest)

/-- What follows a complete XML-ish or bracketed call. -/
def findXmlishToolCallEnd : Option JsString :=
  let header : Option JsString :=
    match xmlFunctionHeader text with
    | some (_, rest) => some rest
    | none =>
      (bracketHeader text).map fun found =>
        skipSerializedToolCallTrailingLineBreak (skipHorizontalWhitespace found.2)
  match header with
  | none => none
  | some rest =>
    let parameters := skipWhitespace rest
    if (afterMarkerIgnoreCase (js "<parameter=") parameters).isSome = true then
      findXmlishParametersEnd parameters.length parameters
    else none

end ClawWorks.ToolCallRepair
