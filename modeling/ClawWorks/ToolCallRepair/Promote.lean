import ClawWorks.ToolCallRepair.Payload

/-!
# Promoting leaked tool calls

A message whose text is tool calls and nothing else gets those calls instead of the text. A provider may have split the
text into several blocks, which are joined in three ways, and the first way that parses counts.
-/

namespace ClawWorks.ToolCallRepair

inductive MessageBlock (Block : Type*) where
  | text (text : JsString)
  | textless
  /-- A record of another type. -/
  | other (block : Block)
  /-- Not a record. -/
  | unstructured

inductive MessageContent (Block : Type*) where
  | text (text : JsString)
  | blocks (blocks : List (MessageBlock Block))
  | other

structure AssistantMessage (Block : Type*) where
  role : Option JsString
  stopReason : Option JsString
  content : MessageContent Block

/-! ## Joining text blocks -/

/-- `text.trimEnd()`. -/
def trimEnd (text : JsString) : JsString :=
  text.rdropWhile isWhiteSpace

/-- `[A-Za-z0-9_.:-]` where case is ignored by Unicode's rules, which also fold the long s and the kelvin sign. -/
def isFoldedXmlishNameChar (u : UInt16) : Bool :=
  isXmlishNameChar u || u == 0x017F || u == 0x212A

/-- `/<parameter=[A-Za-z0-9_.:-]{1,120}>$/iu`, read from the end. -/
def endsWithParameterHeader (text : JsString) : Bool :=
  match text.reverse with
  | [] => false
  | close :: before =>
    let name := before.takeWhile isFoldedXmlishNameChar
    close == GREATER && decide (name ≠ [] ∧ name.length ≤ MAX_XMLISH_NAME) &&
      (js "<parameter=").reverse.isPrefixOf ((before.dropWhile isFoldedXmlishNameChar).map asciiLower)

/-- `/^\[[A-Za-z0-9_-]+\]$/u`. -/
def isBracketHeader : JsString → Bool
  | [] => false
  | bracket :: named =>
    bracket == LBRACKET && decide (named.takeWhile isPlainTextToolNameChar ≠ []) &&
      named.dropWhile isPlainTextToolNameChar == [RBRACKET]

def shouldInsertStructuralLineBreak (left right : JsString) : Bool :=
  if left = [] ∨ right = [] ∨ (left.getLast?.any fun u => u == 13 || u == 10) = true ∨
      right.head?.any isWhiteSpace = true then
    false
  else endsWithParameterHeader (trimEnd left) || isBracketHeader (trimEnd left)

def joinTextPartsWithStructuralLineBreaks (textParts : List JsString) : JsString :=
  textParts.foldl (fun text part =>
      if text ≠ [] ∧ shouldInsertStructuralLineBreak text part = true then text ++ [10] ++ part else text ++ part) []

/-- The repaired join, the exact one, and the one by line breaks, each once. -/
def createTextPartPromotionCandidates (textParts : List JsString) (exactText : JsString) : List JsString :=
  let repairedText := trim (joinTextPartsWithStructuralLineBreaks textParts)
  let newlineJoinedText := trim ([(10 : UInt16)].intercalate textParts)
  ([repairedText, exactText, newlineJoinedText].filter (· ≠ [])).eraseDups

/-! ## Promotion -/

def resolveExactToolName (rawName : JsString) (allowedToolNames : List JsString) : Option JsString :=
  if rawName ∈ allowedToolNames then some rawName else none

/-- Controls when standalone assistant text may be rewritten as tool-call content. -/
structure PlainTextToolCallPromotionOptions (Block : Type*) where
  allowedStopReasons : Option (List (Option JsString)) := none
  allowedToolNames : List JsString
  createToolCallBlock : PlainTextToolCallBlock → JsString → Block
  isRetainableNonTextBlock : Block → Bool := fun _ => false
  requireAssistantRole : Bool := false
  resolveToolName : JsString → List JsString → Option JsString := resolveExactToolName

section Promotion

variable [JsonObjects] {Block : Type*} (options : PlainTextToolCallPromotionOptions Block)

def createPromotedToolCallBlocks (text : JsString) : Option (List Block) :=
  match parseStandalonePlainTextToolCallBlocks text with
  | none => none
  | some parsedBlocks =>
    parsedBlocks.mapM fun block =>
      (truthy? (options.resolveToolName block.name options.allowedToolNames)).map (options.createToolCallBlock block)

/-- The calls a run of text blocks consists of; a blank run consists of none. -/
def createPromotedToolCallBlocksFromTextParts (textParts : List JsString) : Option (List Block) :=
  let exactText := trim textParts.flatten
  if exactText = [] then some []
  else (createTextPartPromotionCandidates textParts exactText).findSome? (createPromotedToolCallBlocks options)

def shouldPromoteMessage (message : AssistantMessage Block) : Bool :=
  if options.allowedToolNames = [] then false
  else if options.requireAssistantRole = true ∧ message.role ≠ some (js "assistant") then false
  else options.allowedStopReasons.all fun reasons => decide (message.stopReason ∈ reasons)

/-- The blocks that remain of a message, and whether any came from its text: `textParts` is the run so far. -/
def promoteBlocks : List JsString → List (MessageBlock Block) → Option (Bool × List Block)
  | textParts, [] => (createPromotedToolCallBlocksFromTextParts options textParts).map fun calls =>
      (decide (calls ≠ []), calls)
  | _, .unstructured :: _ => none
  | _, .textless :: _ => none
  | textParts, .text text :: blocks =>
    promoteBlocks (if trim text = [] then textParts else textParts ++ [text]) blocks
  | textParts, .other block :: blocks =>
    match createPromotedToolCallBlocksFromTextParts options textParts with
    | none => none
    | some calls =>
      if options.isRetainableNonTextBlock block = true then
        (promoteBlocks [] blocks).map fun rest => (decide (calls ≠ []) || rest.1, calls ++ block :: rest.2)
      else none

def promoteStandalonePlainTextToolCallMessage : Option (AssistantMessage Block) → Option (AssistantMessage Block)
  | none => none
  | some message =>
    if shouldPromoteMessage options message = false then none
    else
      match message.content with
      | .text originalContent =>
        if trim originalContent = [] then none
        else
          (createPromotedToolCallBlocks options (trim originalContent)).map fun toolCalls =>
            { message with content := .blocks (toolCalls.map .other), stopReason := some (js "toolUse") }
      | .other => none
      | .blocks blocks =>
        match promoteBlocks options [] blocks with
        | some (true, content) =>
          some { message with content := .blocks (content.map .other), stopReason := some (js "toolUse") }
        | _ => none

end Promotion

end ClawWorks.ToolCallRepair
