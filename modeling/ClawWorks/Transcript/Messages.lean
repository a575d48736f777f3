import ClawWorks.Js.Object

/-!
# Messages of a transcript

What the passes over a transcript read of its messages: tool calls of assistant messages, and tool results.
-/

namespace ClawWorks.Transcript

variable {α : Type*}

/-- A block of an assistant message. A field that is not a string is `none`; `other` is a block that is no object. -/
inductive Block (α : Type*)
  | object (type id name : Option JsString) (rest : α)
  | other (value : α)

/-- `content` is `none` where it is no array. -/
structure AssistantMessage (α : Type*) where
  content : Option (List (Block α))
  stopReason : Option JsString
  rest : α

inductive ResultBlock (α : Type*)
  | text (text : JsString)
  | other (value : α)

/-- The six fields an id may stand in, then what is read besides: a field that is not a string is `none`. -/
structure ToolResultMessage (α : Type*) where
  toolCallId : Option JsString
  toolUseId : Option JsString
  tool_call_id : Option JsString
  tool_use_id : Option JsString
  callId : Option JsString
  call_id : Option JsString
  toolName : Option JsString
  content : Option (List (ResultBlock α))
  openclawSyntheticMissingToolResult : Bool
  isError : Bool
  timestamp : Option Nat

/-- `other` is what is no object, and messages of other roles. -/
inductive Message (α : Type*)
  | assistant (message : AssistantMessage α)
  | toolResult (message : ToolResultMessage α)
  | other (value : α)

structure ToolCall where
  id : JsString
  name : Option JsString

def TOOL_CALL_TYPES : List JsString :=
  [js "toolCall", js "toolUse", js "functionCall"]

def Block.toolCall? : Block α → Option ToolCall
  | .object (some type) (some id) name _ =>
    if !id.isEmpty && TOOL_CALL_TYPES.contains type then some { id, name } else none
  | _ => none

def extractToolCallsFromAssistant (message : AssistantMessage α) : List ToolCall :=
  (message.content.getD []).filterMap Block.toolCall?

/-- The fields in the order `extractToolResultIds` reads them in. -/
def ToolResultMessage.idFields (message : ToolResultMessage α) : List (Option JsString) :=
  [message.toolCallId, message.toolUseId, message.tool_call_id, message.tool_use_id, message.callId, message.call_id]

def extractToolResultIds (message : ToolResultMessage α) : List JsString :=
  (message.idFields.filterMap fun value => truthy? (value.map trim)).eraseDups

def extractToolResultId (message : ToolResultMessage α) : Option JsString :=
  (extractToolResultIds message).head?

def callIds : Message α → List JsString
  | .assistant message => (extractToolCallsFromAssistant message).map (·.id)
  | _ => []

theorem extractToolResultId_eq (message : ToolResultMessage α) :
    extractToolResultId message = message.idFields.findSome? fun value => truthy? (value.map trim) := by
  rw [extractToolResultId, extractToolResultIds]
  generalize message.idFields = fields
  induction fields with
  | nil => rfl
  | cons value fields ih =>
    cases hvalue : truthy? (value.map trim) with
    | none => rw [List.filterMap_cons, List.findSome?_cons, hvalue, ih]
    | some id =>
      rw [List.filterMap_cons, List.findSome?_cons, hvalue, List.eraseDups_cons]
      rfl

end ClawWorks.Transcript
