import ClawWorks.Js.Text

/-!
# Messages of a session
-/

namespace ClawWorks

/-! ## Messages -/

/-- One block of the content of a user message, a tool result or a custom message. -/
inductive ContentBlock where
  | text (text : JsString)
  | image
deriving DecidableEq, Repr

/-- `string | ContentBlock[]`. -/
inductive MessageContent where
  | string (text : JsString)
  | blocks (blocks : List ContentBlock)
deriving DecidableEq, Repr

/-- The arguments of a tool call: their JSON text, and their `path` where that is a string. -/
structure ToolArguments where
  json : JsString
  path : Option JsString := none
deriving DecidableEq, Repr

inductive AssistantBlock where
  | text (text : JsString)
  | thinking (thinking : JsString)
  | toolCall (id name : JsString) (arguments : ToolArguments)
deriving DecidableEq, Repr

/-- The tokens a provider reports. -/
structure Usage where
  input : Nat
  output : Nat
  cacheRead : Nat
  cacheWrite : Nat
  totalTokens : Nat
deriving DecidableEq, Repr

structure AssistantMessage where
  content : List AssistantBlock
  provider : JsString
  model : JsString
  usage : Option Usage
  stopReason : JsString
deriving DecidableEq, Repr

/-- A message of a transcript. Times are milliseconds. -/
inductive AgentMessage where
  | user (content : MessageContent)
  | assistant (message : AssistantMessage)
  | toolResult (toolCallId toolName : JsString) (content : List ContentBlock)
  | bashExecution (command output : JsString)
  | custom (customType : JsString) (content : MessageContent) (display : Bool) (timestamp : Int)
  | branchSummary (summary fromId : JsString) (timestamp : Int)
  | compactionSummary (summary : JsString) (tokensBefore : Nat) (timestamp : Int)
  /-- A role an extension declares. -/
  | other (role : JsString)
deriving DecidableEq, Repr

/-! ## Timestamps -/

/-- `Date.parse`, where its result is finite: which texts other than ISO ones it reads is up to the implementation. -/
class DateParse where
  dateParse : JsString → Option Int

export DateParse (dateParse)

/-- An implementation that reads one time. -/
abbrev newYear : DateParse :=
  ⟨fun text => if text = js "2026-01-01T00:00:00.000Z" then some 1767225600000 else none⟩

inductive SessionErrorCode where
  | notFound
  | invalidSession
  | invalidEntry
  | storage
  /-- An error that is not a `SessionError`. -/
  | plain
deriving DecidableEq, Repr

structure SessionError where
  code : SessionErrorCode
  message : JsString
deriving DecidableEq, Repr

variable [DateParse]

def parseSessionTimestampMs (value : JsString) : Option Int :=
  if trim value = [] then none else dateParse value

def requireSessionTimestampMs (value label : JsString) : Except SessionError Int :=
  match parseSessionTimestampMs value with
  | some parsed => .ok parsed
  | none => .error ⟨.plain, label ++ js " must be a valid timestamp"⟩

def createBranchSummaryMessage (summary fromId timestamp : JsString) : Except SessionError AgentMessage := do
  return .branchSummary summary fromId (← requireSessionTimestampMs timestamp (js "branch summary timestamp"))

def createCompactionSummaryMessage (summary : JsString) (tokensBefore : Nat) (timestamp : JsString) :
    Except SessionError AgentMessage := do
  return .compactionSummary summary tokensBefore
    (← requireSessionTimestampMs timestamp (js "compaction summary timestamp"))

def createCustomMessage (customType : JsString) (content : MessageContent) (display : Bool) (timestamp : JsString) :
    Except SessionError AgentMessage := do
  return .custom customType content display (← requireSessionTimestampMs timestamp (js "custom message timestamp"))

end ClawWorks
