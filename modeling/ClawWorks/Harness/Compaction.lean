import ClawWorks.Enterprise.Plan
import ClawWorks.Harness.SessionContext
import ClawWorks.Js.Number

/-!
# Compaction

When a context grows too large its older part is summarized by a model, and a compaction row with the summary stands for
it.
-/

namespace ClawWorks

/-! ## Tokens -/

def IMAGE_BLOCK_CHARS : Nat := 4800

def countContentBlockChars (content : List ContentBlock) : Nat :=
  (content.map fun block =>
    match block with
    | .text text => text.length
    | .image => IMAGE_BLOCK_CHARS).sum

def contentChars : MessageContent → Nat
  | .string text => text.length
  | .blocks blocks => countContentBlockChars blocks

/-- `Math.ceil(chars / 4)`. -/
def tokensOfChars (chars : Nat) : Nat :=
  (chars + 3) / 4

def estimateTokens : AgentMessage → Nat
  | .user content => tokensOfChars (contentChars content)
  | .assistant message =>
    tokensOfChars (message.content.map fun block =>
      match block with
      | .text text => text.length
      | .thinking thinking => thinking.length
      | .toolCall _ name arguments => name.length + arguments.json.length).sum
  | .custom _ content _ _ => tokensOfChars (contentChars content)
  | .toolResult _ _ content => tokensOfChars (countContentBlockChars content)
  | .bashExecution command output => tokensOfChars (command.length + output.length)
  | .branchSummary summary _ _ => tokensOfChars summary.length
  | .compactionSummary summary _ _ => tokensOfChars summary.length
  | .other _ => 0

def calculateContextTokens (usage : Usage) : Nat :=
  if usage.totalTokens ≠ 0 then usage.totalTokens
  else usage.input + usage.output + usage.cacheRead + usage.cacheWrite

def getAssistantUsage : AgentMessage → Option Usage
  | .assistant message =>
    if message.stopReason ≠ js "aborted" ∧ message.stopReason ≠ js "error" then message.usage else none
  | _ => none

def estimateContextTokens (messages : List AgentMessage) : Nat :=
  match messages.reverse.findSome? getAssistantUsage with
  | none => (messages.map estimateTokens).sum
  | some usage =>
    calculateContextTokens usage +
      ((messages.reverse.takeWhile fun message => (getAssistantUsage message).isNone).map estimateTokens).sum

/-! ## The cut -/

/-- A row at which a context may begin. -/
def isCutPoint (entry : SessionTreeEntry) : Bool :=
  match entry.body with
  | .message (.toolResult ..) => false
  | .message (.other _) => false
  | .message _ => true
  | .branchSummary .. => true
  | .customMessage .. => true
  | _ => false

/-- The indices of the rows at which a context may begin. -/
def findValidCutPoints (entries : List SessionTreeEntry) (startIndex endIndex : Nat) : List Nat :=
  (List.range' startIndex (endIndex - startIndex)).filter fun i => entries[i]?.any isCutPoint

/-- A row at which a turn begins. -/
def startsTurn (entry : SessionTreeEntry) : Bool :=
  match entry.body with
  | .branchSummary .. => true
  | .customMessage .. => true
  | .message (.user _) => true
  | .message (.bashExecution ..) => true
  | _ => false

def findTurnStartIndex (entries : List SessionTreeEntry) (entryIndex startIndex : Nat) : Option Nat :=
  (List.range' startIndex (entryIndex + 1 - startIndex)).reverse.find? fun i => entries[i]?.any startsTurn

structure CutPointResult where
  firstKeptEntryIndex : Nat
  /-- The start of the turn that the cut splits or begins. -/
  turnStartIndex : Option Nat
  isSplitTurn : Bool
deriving DecidableEq, Repr

def SessionTreeEntry.message? (entry : SessionTreeEntry) : Option AgentMessage :=
  match entry.body with
  | .message message => some message
  | _ => none

section Cut

variable {ν : Type} [JsArithmetic ν]

/-- The loop from the end of the branch: the message where the tokens kept reach the budget. `remaining` rows are left
from the start index on. -/
def findBudgetIndex (entries : List SessionTreeEntry) (startIndex : Nat) (keepRecentTokens : ν) :
    Nat → Nat → Option Nat
  | 0, _ => none
  | remaining + 1, accumulatedTokens =>
    match entries[startIndex + remaining]?.bind SessionTreeEntry.message? with
    | none => findBudgetIndex entries startIndex keepRecentTokens remaining accumulatedTokens
    | some message =>
      let accumulatedTokens := accumulatedTokens + estimateTokens message
      if JsArithmetic.le keepRecentTokens (JsArithmetic.ofNat accumulatedTokens) then some (startIndex + remaining)
      else findBudgetIndex entries startIndex keepRecentTokens remaining accumulatedTokens

/-- The loop back over rows that are neither messages nor compactions. -/
def walkBack (entries : List SessionTreeEntry) (startIndex : Nat) : Nat → Nat
  | 0 => 0
  | cutIndex + 1 =>
    if startIndex < cutIndex + 1 ∧
        ¬ entries[cutIndex]?.any fun prevEntry => prevEntry.isCompaction ∨ prevEntry.message?.isSome then
      walkBack entries startIndex cutIndex
    else cutIndex + 1

def findCutPoint (entries : List SessionTreeEntry) (startIndex endIndex : Nat) (keepRecentTokens : ν) :
    CutPointResult :=
  match findValidCutPoints entries startIndex endIndex with
  | [] => { firstKeptEntryIndex := startIndex, turnStartIndex := none, isSplitTurn := false }
  | first :: rest =>
    let chosen :=
      match findBudgetIndex entries startIndex keepRecentTokens (endIndex - startIndex) 0 with
      | none => first
      | some i => ((first :: rest).find? (i ≤ ·)).getD ((first :: rest).getLastD first)
    let cutIndex := walkBack entries startIndex chosen
    let isUserMessage := entries[cutIndex]?.any fun entry =>
      match entry.body with
      | .message (.user _) => true
      | _ => false
    let turnStartIndex := if isUserMessage then none else findTurnStartIndex entries cutIndex startIndex
    { firstKeptEntryIndex := cutIndex
      turnStartIndex := turnStartIndex
      isSplitTurn := !isUserMessage && turnStartIndex.isSome }

end Cut

/-! ## File operations -/

/-- File paths touched by a session branch or compaction range; each list is a set in insertion order. -/
structure FileOperations where
  read : List JsString := []
  written : List JsString := []
  edited : List JsString := []
deriving DecidableEq, Repr

/-- `set.add(path)`. -/
def addPath (paths : List JsString) (path : JsString) : List JsString :=
  if path ∈ paths then paths else paths ++ [path]

def FileOperations.addCall (fileOps : FileOperations) (block : AssistantBlock) : FileOperations :=
  match block with
  | .toolCall _ name arguments =>
    match truthy? arguments.path with
    | none => fileOps
    | some path =>
      if name = js "read" then { fileOps with read := addPath fileOps.read path }
      else if name = js "write" then { fileOps with written := addPath fileOps.written path }
      else if name = js "edit" then { fileOps with edited := addPath fileOps.edited path }
      else fileOps
  | _ => fileOps

/-- Add file operations from assistant tool calls to an accumulator. -/
def extractFileOpsFromMessage (fileOps : FileOperations) : AgentMessage → FileOperations
  | .assistant message => message.content.foldl FileOperations.addCall fileOps
  | _ => fileOps

def extractFileOperations (messages : List AgentMessage) (prevCompaction : Option SessionTreeEntry) : FileOperations :=
  let fileOps : FileOperations :=
    match prevCompaction.map SessionTreeEntry.body with
    | some (.compaction _ _ _ (some details) false) =>
      { read := details.readFiles.foldl addPath [], edited := details.modifiedFiles.foldl addPath [] }
    | _ => {}
  messages.foldl extractFileOpsFromMessage fileOps

def computeFileLists (fileOps : FileOperations) : CompactionDetails :=
  let modified := fileOps.written.foldl addPath fileOps.edited
  { readFiles := toSorted (fileOps.read.filter (· ∉ modified)), modifiedFiles := toSorted modified }

/-- `items.join(separator)`. -/
def joinLines (items : List JsString) (separator : JsString) : JsString :=
  separator.intercalate items

/-- Format file lists as summary metadata tags. -/
def formatFileOperations (details : CompactionDetails) : JsString :=
  let sections :=
    (if details.readFiles = [] then []
      else [js "<read-files>\n" ++ joinLines details.readFiles (js "\n") ++ js "\n</read-files>"]) ++
    (if details.modifiedFiles = [] then []
      else [js "<modified-files>\n" ++ joinLines details.modifiedFiles (js "\n") ++ js "\n</modified-files>"])
  if sections = [] then [] else js "\n\n" ++ joinLines sections (js "\n\n")

/-! ## Preparation -/

structure CompactionSettings (ν : Type) where
  enabled : Bool
  reserveTokens : ν
  keepRecentTokens : ν

inductive CompactionErrorCode where
  | invalidSession
  | aborted
  | summarizationFailed
deriving DecidableEq, Repr

structure CompactionError where
  code : CompactionErrorCode
  message : JsString
deriving DecidableEq, Repr

def noFirstKeptId : CompactionError :=
  ⟨.invalidSession, js "First kept entry has no UUID - session may need migration"⟩

structure CompactionPreparation (ν : Type) where
  firstKeptEntryId : JsString
  messagesToSummarize : List AgentMessage
  turnPrefixMessages : List AgentMessage
  isSplitTurn : Bool
  tokensBefore : Nat
  previousSummary : Option JsString
  fileOps : FileOperations
  settings : CompactionSettings ν

section Prepare

variable [DateParse] {ν : Type} [JsArithmetic ν]

/-- The message that a summary is given for a row: none for a compaction. -/
def getMessageFromEntryForCompaction (entry : SessionTreeEntry) : Except SessionError (Option AgentMessage) :=
  match entry.body with
  | .message message => .ok (some message)
  | .customMessage customType content display =>
    some <$> createCustomMessage customType content display entry.timestamp
  | .branchSummary fromId summary => some <$> createBranchSummaryMessage summary fromId entry.timestamp
  | _ => .ok none

def summaryMessages (pathEntries : List SessionTreeEntry) (fromIndex toIndex : Nat) :
    Except SessionError (List AgentMessage) :=
  Except.collect getMessageFromEntryForCompaction ((pathEntries.take toIndex).drop fromIndex)

/-- The summary of a compaction row. -/
def SessionTreeEntry.summary? (entry : SessionTreeEntry) : Option JsString :=
  match entry.body with
  | .compaction summary _ _ _ _ => some summary
  | _ => none

def prepareCompaction (pathEntries : List SessionTreeEntry) (settings : CompactionSettings ν) :
    Except SessionError (Except CompactionError (Option (CompactionPreparation ν))) :=
  if pathEntries.getLast?.all SessionTreeEntry.isCompaction then .ok (.ok none)
  else do
    let prevCompaction := (prevCompactionIndex pathEntries).bind (pathEntries[·]?)
    let context ← buildSessionContext pathEntries
    let start := boundaryStart pathEntries
    let cutPoint := findCutPoint pathEntries start pathEntries.length settings.keepRecentTokens
    match truthy? (pathEntries[cutPoint.firstKeptEntryIndex]?.map SessionTreeEntry.id) with
    | none => return .error noFirstKeptId
    | some firstKeptEntryId =>
      let historyEnd :=
        if cutPoint.isSplitTurn then cutPoint.turnStartIndex.getD 0 else cutPoint.firstKeptEntryIndex
      let messagesToSummarize ← summaryMessages pathEntries start historyEnd
      let turnPrefixMessages ←
        if cutPoint.isSplitTurn then summaryMessages pathEntries historyEnd cutPoint.firstKeptEntryIndex else pure []
      return .ok (some
        { firstKeptEntryId := firstKeptEntryId
          messagesToSummarize := messagesToSummarize
          turnPrefixMessages := turnPrefixMessages
          isSplitTurn := cutPoint.isSplitTurn
          tokensBefore := estimateContextTokens context.messages
          previousSummary := prevCompaction.bind SessionTreeEntry.summary?
          fileOps := turnPrefixMessages.foldl extractFileOpsFromMessage
            (extractFileOperations messagesToSummarize prevCompaction)
          settings := settings })

end Prepare

/-- A request for a summary: of the history, on top of the summary before it, or of the first part of a turn. -/
inductive SummarizationRequest where
  | summary (messages : List AgentMessage) (previousSummary customInstructions : Option JsString)
  | turnPrefix (messages : List AgentMessage)
deriving DecidableEq, Repr

/-- Generated compaction data ready to be persisted as a compaction row. -/
structure CompactionResult where
  summary : JsString
  firstKeptEntryId : JsString
  tokensBefore : Nat
  details : CompactionDetails
deriving DecidableEq, Repr

section Compact

variable {ν : Type}

def summarizationRequests (preparation : CompactionPreparation ν) (customInstructions : Option JsString) :
    List SummarizationRequest :=
  let history :=
    SummarizationRequest.summary preparation.messagesToSummarize preparation.previousSummary customInstructions
  if preparation.isSplitTurn ∧ preparation.turnPrefixMessages ≠ [] then
    (if preparation.messagesToSummarize ≠ [] then [history] else []) ++ [.turnPrefix preparation.turnPrefixMessages]
  else [history]

/-- The summary from what the model answers. -/
def combinedSummary (generate : SummarizationRequest → Except CompactionError JsString)
    (preparation : CompactionPreparation ν) (customInstructions : Option JsString) : Except CompactionError JsString :=
  let history :=
    SummarizationRequest.summary preparation.messagesToSummarize preparation.previousSummary customInstructions
  if preparation.isSplitTurn ∧ preparation.turnPrefixMessages ≠ [] then do
    let historySummary ←
      if preparation.messagesToSummarize ≠ [] then generate history else pure (js "No prior history.")
    let turnPrefixSummary ← generate (.turnPrefix preparation.turnPrefixMessages)
    return historySummary ++ js "\n\n---\n\n**Turn Context (split turn):**\n\n" ++ turnPrefixSummary
  else generate history

/-- Generate compaction summary data from prepared session history: the requests that are issued to the model, and what
comes back. -/
def compact (generate : SummarizationRequest → Except CompactionError JsString)
    (preparation : CompactionPreparation ν) (customInstructions : Option JsString) :
    List SummarizationRequest × Except CompactionError CompactionResult :=
  if preparation.firstKeptEntryId = [] then ([], .error noFirstKeptId)
  else
    let details := computeFileLists preparation.fileOps
    let result : Except CompactionError CompactionResult := do
      let summary ← combinedSummary generate preparation customInstructions
      return {
        summary := summary ++ formatFileOperations details
        firstKeptEntryId := preparation.firstKeptEntryId
        tokensBefore := preparation.tokensBefore
        details := details }
    (summarizationRequests preparation customInstructions, result)

end Compact

end ClawWorks
