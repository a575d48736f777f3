import ClawWorks.Exec.ShellWrappers
import Mathlib.Data.List.Sort

/-!
# The authorization plan of a shell command

A shell command is explained as steps, operators between them and risks. The plan names the candidates that must be
authorized before the command runs.
-/

namespace ClawWorks.Exec

open List

/-! ## Explanations -/

inductive CommandContext
  | topLevel | commandSubstitution | processSubstitution | functionDefinition | wrapperPayload
  deriving DecidableEq

inductive CommandShape
  | pipeline | and | or | sequence | if | for | while | case | subshell | group | background
  deriving DecidableEq

structure SourceSpan where
  startIndex : Nat
  endIndex : Nat
  deriving DecidableEq

structure CommandStep where
  id : Option JsString
  parentCommandId : Option JsString
  context : CommandContext
  executable : JsString
  argv : Argv
  text : JsString
  span : SourceSpan
  executableSpan : SourceSpan

inductive CommandOperatorKind
  | and | or | sequence | newlineSequence | pipe | stderrPipe | background

structure CommandOperator where
  kind : CommandOperatorKind
  fromCommandId : JsString
  toCommandId : JsString
  parentCommandId : Option JsString

inductive CommandRiskKind
  | inlineEval | shellWrapper | shellWrapperThroughCarrier | commandCarrier | commandSubstitution
  | processSubstitution | dynamicExecutable | dynamicArgument | eval | source | alias | functionDefinition
  | lineContinuation | heredoc | hereString | redirect | syntaxError
  deriving DecidableEq

/-- A risk; a shell wrapper has a payload. -/
structure CommandRisk where
  kind : CommandRiskKind
  payload : JsString
  text : JsString
  span : SourceSpan
  deriving DecidableEq

structure CommandExplanation where
  ok : Bool
  shapes : List CommandShape
  topLevelCommands : List CommandStep
  nestedCommands : List CommandStep
  operators : List CommandOperator
  risks : List CommandRisk

/-! ## Segments -/

structure CommandResolution where
  policyBlocked : Bool
  resolvedPath : Option JsString
  resolvedRealPath : Option JsString
  deriving DecidableEq

structure ExecCommandSegment where
  raw : JsString
  argv : Argv
  sourceArgv : Option Argv
  resolution : Option CommandResolution
  deriving DecidableEq

/-- What planning is done with: how a vector resolves in the directory, the environment and the platform that are asked
for, and the platform of the process. -/
structure PlanningContext where
  resolveCommandResolutionFromArgv : Argv → Option CommandResolution
  process : Platform

structure CommandStepWithSegment where
  step : CommandStep
  segment : ExecCommandSegment

variable (step : CommandStep)

def commandSegmentFromStep (context : PlanningContext) : ExecCommandSegment :=
  ⟨step.text, step.argv, none, context.resolveCommandResolutionFromArgv step.argv⟩

/-- `argv.join(" ")`. -/
def joinArgv (argv : Argv) : JsString :=
  intercalate (js " ") argv

def commandSegmentFromArgv (argv : Argv) (context : PlanningContext) (sourceArgv : Option Argv) :
    ExecCommandSegment :=
  ⟨joinArgv argv, argv, sourceArgv, context.resolveCommandResolutionFromArgv argv⟩

variable (segment : ExecCommandSegment)

/-- `segment.resolution?.policyBlocked === true`. -/
def ExecCommandSegment.isPolicyBlocked : Bool :=
  segment.resolution.any (·.policyBlocked)

/-! ## Risks -/

def PROMPT_ONLY_RISKS : List CommandRiskKind :=
  [.eval, .source, .alias, .shellWrapperThroughCarrier, .commandCarrier]

def NON_REUSABLE_RISKS : List CommandRiskKind :=
  [.inlineEval]

def UNANALYZABLE_RISKS : List CommandRiskKind :=
  [.commandSubstitution, .dynamicExecutable, .lineContinuation, .heredoc, .hereString, .processSubstitution, .redirect,
    .syntaxError, .functionDefinition]

def UNSUPPORTED_DIRECT_SHELL_TOPOLOGY_SHAPES : List CommandShape :=
  [.background, .if, .for, .while, .case, .subshell, .group]

variable (risk : CommandRisk)

def riskInsideStep (step : CommandStep) : Bool :=
  step.span.startIndex ≤ risk.span.startIndex && risk.span.endIndex ≤ step.span.endIndex

def riskBeforeStepExecutable (step : CommandStep) : Bool :=
  riskInsideStep risk step && risk.span.endIndex ≤ step.executableSpan.startIndex

def risksOfStep (kinds : List CommandRiskKind) (step : CommandStep) (risks : List CommandRisk) :
    List CommandRiskKind :=
  ((risks.filter fun risk => kinds.contains risk.kind && riskInsideStep risk step).map (·.kind)).eraseDups

variable (risks : List CommandRisk)

def stepReasons : List CommandRiskKind :=
  risksOfStep PROMPT_ONLY_RISKS step risks

def nonReusableStepReasons : List CommandRiskKind :=
  risksOfStep NON_REUSABLE_RISKS step risks

/-- `/(?:\$[A-Za-z0-9_@*?#$!-]|\$\{|`|\$\(|[<>]\()/`. -/
def hasShellExpansion : JsString → Bool
  | [] => false
  | 96 :: _ => true
  | 36 :: v :: s => isWordUnit v || (js "@*?#$!-\x7b(").contains v || hasShellExpansion (v :: s)
  | u :: v :: s => (u == 60 || u == 62) && v == 40 || hasShellExpansion (v :: s)
  | [_] => false

def isShellExpansionDynamicArgument : Bool :=
  risk.kind == .dynamicArgument && hasShellExpansion risk.text

variable (explanation : CommandExplanation)

def riskInsidePromptOnlyStep : Bool :=
  (explanation.topLevelCommands ++ explanation.nestedCommands).any fun step =>
    riskInsideStep risk step && 0 < (stepReasons step explanation.risks).length

def findUnanalyzableRisk : Option CommandRisk :=
  explanation.risks.find? fun risk => UNANALYZABLE_RISKS.contains risk.kind

/-- What stands in the way of a plan. -/
inductive BlockingReason
  | risk (kind : CommandRiskKind)
  | shape (shape : CommandShape)

def hasBlockingRisk : Option BlockingReason :=
  match findUnanalyzableRisk explanation with
  | some risk => some (.risk risk.kind)
  | none =>
    match explanation.shapes.find? UNSUPPORTED_DIRECT_SHELL_TOPOLOGY_SHAPES.contains with
    | some unsupportedShape => some (.shape unsupportedShape)
    | none =>
      (explanation.risks.find? fun entry =>
        isShellExpansionDynamicArgument entry && !riskInsidePromptOnlyStep entry explanation).map
          fun dynamicArgument => .risk dynamicArgument.kind

/-- Why a candidate is not simply its executable. -/
inductive CandidateReason
  | risk (kind : CommandRiskKind)
  | shellEnvAssignment
  deriving DecidableEq

def shellWrapperPreludeReasons : List CandidateReason :=
  ((risks.filter fun risk => UNANALYZABLE_RISKS.contains risk.kind && riskBeforeStepExecutable risk step).map
    fun risk => CandidateReason.risk risk.kind).eraseDups

/-! ## Executables -/

variable (token : JsString)

def isPathScopedExecutableToken : Bool :=
  token.contains SLASH || token.contains BACKSLASH

def hasResolvedExecutionPath : Bool :=
  segment.resolution.any fun resolution =>
    resolution.resolvedPath.any (fun path => 0 < (trim path).length) ||
      resolution.resolvedRealPath.any fun path => 0 < (trim path).length

def isUnresolvedPathScopedExecutable : Bool :=
  isPathScopedExecutableToken (trimmedAt segment.argv 0) && !hasResolvedExecutionPath segment

/-- `-wrapper`. -/
def WRAPPER_ENDING : JsString := js "-wrapper"

def POSITIONAL_CARRIER_BLOCKED_EXECUTABLES : List JsString :=
  [js "find", js "xargs"]

/-- `[^\S\r\n]`. -/
def isShellBlank (u : UInt16) : Bool :=
  isWhiteSpace u && u != 10 && u != 13

/-- What is inside the quotes of a token that is quoted. -/
def unquoteToken : JsString :=
  if token.head? == some DOUBLE_QUOTE && token.getLast? == some DOUBLE_QUOTE then token.tail.dropLast else token

/-- `$0`, quoted or with braces. -/
def isPositionalZero : Bool :=
  [js "$0", js "$\x7b0\x7d"].contains (unquoteToken token)

/-- `$@`, `$*`, or one of `$1` to `$9`, quoted or with braces. -/
def isPositionalArg : Bool :=
  (js "@*123456789").any fun u =>
    unquoteToken token == [36, u] || unquoteToken token == [36, 123, u, 125]

/-- Whether a payload only runs its positional arguments. -/
def isDirectShellPositionalCarrierCommand (command : JsString) : Bool :=
  let tokens := ((trim command).splitOnP isShellBlank).filter fun token => !token.isEmpty
  let body :=
    match tokens with
    | first :: rest =>
      if first == js "exec" then
        match rest with
        | dashes :: rest => if dashes == js "--" then rest else dashes :: rest
        | [] => []
      else first :: rest
    | [] => []
  match body with
  | zero :: args => isPositionalZero zero && args.all isPositionalArg
  | [] => false

def wrapperPrefixForStep : JsString :=
  step.text.take (step.executableSpan.startIndex - step.span.startIndex)

/-- Whether an assignment stands before the executable. -/
def hasCommandPrelude : Bool :=
  let leading := (wrapperPrefixForStep step).dropWhile isWhiteSpace
  leading.head?.any (fun u => isLetter u || u == 95) && (leading.dropWhile isWordUnit).head? == some EQUALS

section

variable [LowerCase]

def canUseReusableWrapperPayloadCandidates (segments : List ExecCommandSegment) : Bool :=
  let firstExecutable := (segments.head?.map fun segment => trimmedAt segment.argv 0).getD []
  !firstExecutable.isEmpty && !(segments.any fun segment => isPathScopedExecutableToken (trimmedAt segment.argv 0)) &&
    !(segments.any fun segment => WRAPPER_ENDING.isSuffixOf (normalizeExecutableToken (argvAt segment.argv 0)))

def isShellExecutable (argv : Argv) : Bool :=
  POSIX_SHELL_WRAPPER_NAMES.contains (normalizeExecutableToken (argvAt argv 0))

def canUseWrapperShellInvocation (segment : ExecCommandSegment) : Bool :=
  !isPathScopedExecutableToken (trimmedAt segment.argv 0) && isShellExecutable segment.argv &&
    !hasPosixInteractiveStartupBeforeInlineCommand segment.argv POSIX_INLINE_COMMAND_FLAGS &&
    !hasPosixLoginStartupBeforeInlineCommand segment.argv POSIX_INLINE_COMMAND_FLAGS

def positionalCarrierArgv (segment : ExecCommandSegment) : Option Argv :=
  let inlineMatch := resolveInlineCommandMatch segment.argv POSIX_INLINE_COMMAND_FLAGS { allowCombinedC := true }
  match inlineMatch.valueTokenIndex, inlineMatch.command with
  | some index, some command =>
    if !canUseWrapperShellInvocation segment || !isDirectShellPositionalCarrierCommand command then none
    else
      let carriedArgv := (segment.argv.drop (index + 1)).filter fun token => 0 < (trim token).length
      let carriedName := normalizeExecutableToken (argvAt carriedArgv 0)
      if carriedArgv.isEmpty then none
      else if isDispatchWrapperExecutable carriedName || POSITIONAL_CARRIER_BLOCKED_EXECUTABLES.contains carriedName ||
          POSIX_SHELL_WRAPPER_NAMES.contains carriedName || WRAPPER_ENDING.isSuffixOf carriedName then
        none
      else some carriedArgv
  | _, _ => none

def carriedStep (wrapper : CommandStep) (carriedArgv : Argv) : CommandStep :=
  { id := none
    parentCommandId := none
    context := .wrapperPayload
    executable := argvAt carriedArgv 0
    argv := carriedArgv
    text := joinArgv carriedArgv
    span := ⟨wrapper.span.endIndex, wrapper.span.endIndex⟩
    executableSpan := ⟨wrapper.span.endIndex, wrapper.span.endIndex⟩ }

variable (wrapper : CommandStepWithSegment)

def positionalCarrierSteps (context : PlanningContext) : Option (List CommandStepWithSegment) :=
  (positionalCarrierArgv wrapper.segment).map fun carriedArgv =>
    [⟨carriedStep wrapper.step carriedArgv, commandSegmentFromArgv carriedArgv context wrapper.segment.sourceArgv⟩]

/-! ## Candidates -/

inductive ExecAuthorizationRelationship
  | simple | pipeline
  deriving DecidableEq

inductive ExecAuthorizationTransport
  | direct
  | shellWrapper (wrapperSegment : ExecCommandSegment) (wrapperArgv : Argv) (wrapperPrefixText inlineCommand : JsString)
  deriving DecidableEq

inductive ExecAuthorizationTrustMode
  | executable | exactCommand | promptOnly
  deriving DecidableEq

structure ExecAuthorizationCandidate where
  sourceSegment : ExecCommandSegment
  sourceStep : CommandStep
  sourceStepId : Option JsString
  transport : ExecAuthorizationTransport
  trustMode : ExecAuthorizationTrustMode
  allowAlways : Bool
  reasons : List CandidateReason

/-- `&&`, `||`, `;` and `&`. -/
inductive ShellChainOperator
  | and | or | sequence | background

structure ExecAuthorizationGroup where
  opToNext : Option ShellChainOperator
  candidates : List ExecAuthorizationCandidate

def shouldPersistCandidate (segment : ExecCommandSegment) (relationship : ExecAuthorizationRelationship)
    (trustMode : ExecAuthorizationTrustMode) : Bool :=
  trustMode = .executable && !(relationship = .pipeline && isShellExecutable segment.argv) && !segment.isPolicyBlocked

structure CandidateContext where
  process : Platform
  transport : ExecAuthorizationTransport
  risks : List CommandRisk

variable (context : CandidateContext)

def createCandidate (entry : CommandStepWithSegment)
    (relationship : ExecAuthorizationRelationship) : ExecAuthorizationCandidate :=
  let isDirectShellWrapper := context.transport = .direct &&
    (extractBindableShellWrapperInlineCommand context.process entry.segment.argv none).any fun command =>
      !command.isEmpty
  let stepPromptReasons := stepReasons entry.step context.risks
  let stepNonReusableReasons := nonReusableStepReasons entry.step context.risks
  let preludeReasons :=
    if hasCommandPrelude entry.step then
      let reasons := shellWrapperPreludeReasons entry.step context.risks
      if reasons.isEmpty then [CandidateReason.shellEnvAssignment] else reasons
    else []
  let trustMode : ExecAuthorizationTrustMode :=
    if entry.segment.isPolicyBlocked then .promptOnly
    else if 0 < preludeReasons.length then .promptOnly
    else if isDirectShellWrapper then .exactCommand
    else if 0 < stepPromptReasons.length then .promptOnly
    else .executable
  { sourceSegment := entry.segment
    sourceStep := entry.step
    sourceStepId := truthy? entry.step.id
    transport := context.transport
    trustMode
    allowAlways := stepNonReusableReasons.isEmpty && shouldPersistCandidate entry.segment relationship trustMode
    reasons := (stepPromptReasons.map CandidateReason.risk ++ stepNonReusableReasons.map CandidateReason.risk ++
      preludeReasons).eraseDups }

def finalizeGroup (steps : List CommandStepWithSegment)
    (relationship : ExecAuthorizationRelationship) (opToNext : Option ShellChainOperator) : ExecAuthorizationGroup :=
  { opToNext
    candidates := steps.map fun entry =>
      createCandidate context entry (if 1 < steps.length then .pipeline else relationship) }

/-! ## Groups -/

/-- A pipe keeps commands in one group; any other operator ends the group. -/
def authorizationOperatorForTopology (operator : CommandOperator) : Option ShellChainOperator :=
  match operator.kind with
  | .and => some .and
  | .or => some .or
  | .pipe | .stderrPipe => none
  | .sequence | .newlineSequence => some .sequence
  | .background => some .background

/-- The operators by the command they come from; a pipe is there as `none`. -/
def operatorsByFromCommandId (operators : List CommandOperator) : JsMap JsString (Option ShellChainOperator) :=
  JsMap.setAll [] (operators.map fun operator => (operator.fromCommandId, authorizationOperatorForTopology operator))

def operatorAfter (operators : List CommandOperator) (step : CommandStep) : Option (Option ShellChainOperator) :=
  (truthy? step.id).bind (operatorsByFromCommandId operators).get

/-- The groups of the sorted steps that are left, behind the ones of the current group. -/
def collectGroups (context : CandidateContext) (operators : List CommandOperator) :
    List CommandStepWithSegment → List CommandStepWithSegment → List ExecAuthorizationGroup
  | [], current => if current.isEmpty then [] else [finalizeGroup context current .simple none]
  | entry :: rest, current =>
    match current.getLast? with
    | none => collectGroups context operators rest [entry]
    | some previous =>
      match operatorAfter operators previous.step with
      | some none => collectGroups context operators rest (current ++ [entry])
      | some (some operator) =>
        finalizeGroup context current .simple (some operator) :: collectGroups context operators rest [entry]
      | none => finalizeGroup context current .simple (some .sequence) :: collectGroups context operators rest [entry]

/-- `left.step.span.startIndex - right.step.span.startIndex` is not positive. -/
def startsBefore (left right : CommandStepWithSegment) : Prop :=
  left.step.span.startIndex ≤ right.step.span.startIndex

instance : DecidableRel startsBefore :=
  fun left right => inferInstanceAs (Decidable (left.step.span.startIndex ≤ right.step.span.startIndex))

/-- The sort is stable: an element goes before those that follow it and do not start earlier. -/
def groupsFromSteps (steps : List CommandStepWithSegment)
    (operators : List CommandOperator) : List ExecAuthorizationGroup :=
  let sorted := steps.insertionSort startsBefore
  if 1 < sorted.length && operators.isEmpty then [finalizeGroup context sorted .pipeline none]
  else collectGroups context operators sorted []

/-! ## Plans -/

def shellWrapperRiskForStep (step : CommandStep) (risks : List CommandRisk) : Option CommandRisk :=
  risks.find? fun entry => entry.kind == .shellWrapper && riskInsideStep entry step

def stepsForWrapper (wrapper : CommandStep) (nestedSteps : List CommandStepWithSegment) :
    List CommandStepWithSegment :=
  match truthy? wrapper.id with
  | some wrapperId => nestedSteps.filter fun entry => entry.step.parentCommandId == some wrapperId
  | none => nestedSteps

def operatorsForWrapper (wrapper : CommandStep) (operators : List CommandOperator) : List CommandOperator :=
  match truthy? wrapper.id with
  | some wrapperId => operators.filter fun operator => operator.parentCommandId == some wrapperId
  | none => operators

def shouldUseWrapperPayload (topLevelSteps nestedSteps : List CommandStepWithSegment) (wrapper : CommandStep)
    (risks : List CommandRisk) : Bool :=
  topLevelSteps.length == 1 && !nestedSteps.isEmpty && (shellWrapperRiskForStep wrapper risks).isSome &&
    canUseReusableWrapperPayloadCandidates ((stepsForWrapper wrapper nestedSteps).map (·.segment))

variable (groups : List ExecAuthorizationGroup)

def applyWrapperPayloadPersistenceBoundary : List ExecAuthorizationGroup :=
  if !isUnresolvedPathScopedExecutable wrapper.segment then groups
  else
    groups.map fun group =>
      { group with candidates := group.candidates.map fun candidate => { candidate with allowAlways := false } }

def boundedGroups : Option (List ExecAuthorizationGroup) :=
  if 0 < groups.length then some (applyWrapperPayloadPersistenceBoundary wrapper groups) else none

def wrapperPayloadPlan (context : PlanningContext) (allowNestedPayload : Bool)
    (topLevelSteps nestedSteps : List CommandStepWithSegment) (operators : List CommandOperator)
    (risks : List CommandRisk) : Option (List ExecAuthorizationGroup) :=
  match topLevelSteps.head? with
  | none => none
  | some wrapper =>
    match shellWrapperRiskForStep wrapper.step risks with
    | none => none
    | some wrapperRisk =>
      if hasCommandPrelude wrapper.step || !canUseWrapperShellInvocation wrapper.segment || !allowNestedPayload then
        none
      else
        let candidateContext : CandidateContext :=
          { process := context.process
            transport := .shellWrapper wrapper.segment wrapper.segment.argv (wrapperPrefixForStep wrapper.step)
              wrapperRisk.payload
            risks }
        match positionalCarrierSteps wrapper context with
        | some carriedSteps => boundedGroups wrapper (groupsFromSteps candidateContext carriedSteps [])
        | none =>
          if !shouldUseWrapperPayload topLevelSteps nestedSteps wrapper.step risks then none
          else
            boundedGroups wrapper (groupsFromSteps candidateContext (stepsForWrapper wrapper.step nestedSteps)
                (operatorsForWrapper wrapper.step operators))

inductive PlanFailure
  | blocked (reason : BlockingReason)
  /-- `unable to parse command`. -/
  | unparsed
  /-- `no commands to authorize`. -/
  | noCommands

inductive ExecAuthorizationDialect
  | argv | posixShell | windowsCmd | powershell

inductive ExecAuthorizationPlan
  | ok (dialect : ExecAuthorizationDialect) (originalCommand : JsString) (groups : List ExecAuthorizationGroup)
      (operators : List CommandOperator)
  | failed (dialect : ExecAuthorizationDialect) (originalCommand : JsString) (reason : PlanFailure)

def withSegment (context : PlanningContext) (step : CommandStep) : CommandStepWithSegment :=
  ⟨step, commandSegmentFromStep step context⟩

variable (explanation : CommandExplanation)

def canFallBackToExactWrapper : Bool :=
  match explanation.topLevelCommands with
  | [topLevelStep] =>
    (shellWrapperRiskForStep topLevelStep explanation.risks).isSome &&
      (findUnanalyzableRisk explanation).all fun risk => riskInsideStep risk topLevelStep
  | _ => false

def allowsNestedPayload : Bool :=
  (hasBlockingRisk explanation).isNone && !explanation.shapes.any UNSUPPORTED_DIRECT_SHELL_TOPOLOGY_SHAPES.contains

def payloadPlan (context : PlanningContext) : Option (List ExecAuthorizationGroup) :=
  wrapperPayloadPlan context (allowsNestedPayload explanation)
    (explanation.topLevelCommands.map (withSegment context))
    ((explanation.nestedCommands.filter fun step => step.context == .wrapperPayload).map (withSegment context))
    explanation.operators explanation.risks

/-- The candidates of the commands themselves. -/
def directPlan (context : PlanningContext) : List ExecAuthorizationGroup :=
  groupsFromSteps ⟨context.process, .direct, explanation.risks⟩
    (explanation.topLevelCommands.map (withSegment context))
    (explanation.operators.filter fun operator => operator.parentCommandId.isNone)

def planFromExplanation (command : JsString) (explanation : CommandExplanation) (context : PlanningContext) :
    ExecAuthorizationPlan :=
  let blockingRisk := hasBlockingRisk explanation
  if !explanation.ok || (blockingRisk.isSome && !canFallBackToExactWrapper explanation) then
    .failed .posixShell command (blockingRisk.elim .unparsed .blocked)
  else
    let groups := (payloadPlan explanation context).getD (directPlan explanation context)
    if groups.isEmpty then .failed .posixShell command .noCommands
    else .ok .posixShell command groups explanation.operators

/-! ## The steps of the candidates -/

def planCandidates : List ExecAuthorizationCandidate :=
  groups.flatMap (·.candidates)

def candidateSteps : List CommandStep :=
  (planCandidates groups).map (·.sourceStep)

section

variable {context : CandidateContext} {operators : List CommandOperator} {steps : List CommandStepWithSegment}

omit [LowerCase] in
theorem candidateSteps_cons (group : ExecAuthorizationGroup) (groups : List ExecAuthorizationGroup) :
    candidateSteps (group :: groups) = group.candidates.map (·.sourceStep) ++ candidateSteps groups := by
  rw [candidateSteps, planCandidates, flatMap_cons, map_append]
  rfl

theorem finalizeGroup_steps (context : CandidateContext) (steps : List CommandStepWithSegment)
    (relationship : ExecAuthorizationRelationship) (opToNext : Option ShellChainOperator) :
    (finalizeGroup context steps relationship opToNext).candidates.map (·.sourceStep) = steps.map (·.step) := by
  rw [finalizeGroup, map_map]
  rfl

theorem collectGroups_steps (context : CandidateContext) (operators : List CommandOperator)
    (rest current : List CommandStepWithSegment) :
    candidateSteps (collectGroups context operators rest current) = (current ++ rest).map (·.step) := by
  induction rest generalizing current with
  | nil =>
    unfold collectGroups
    split
    · rename_i hempty
      rw [isEmpty_iff.mp hempty]
      rfl
    · rw [candidateSteps_cons, finalizeGroup_steps, append_nil]
      exact append_nil _
  | cons entry rest ih =>
    unfold collectGroups
    split
    · rename_i hempty
      rw [ih, getLast?_eq_none_iff.mp hempty]
      rfl
    · split
      · rw [ih, append_assoc]
        rfl
      · rw [candidateSteps_cons, finalizeGroup_steps, ih, ← map_append]
        rfl
      · rw [candidateSteps_cons, finalizeGroup_steps, ih, ← map_append]
        rfl

theorem groupsFromSteps_steps (context : CandidateContext) (steps : List CommandStepWithSegment)
    (operators : List CommandOperator) :
    candidateSteps (groupsFromSteps context steps operators) = (steps.insertionSort startsBefore).map (·.step) := by
  unfold groupsFromSteps
  dsimp only
  split
  · rw [candidateSteps_cons, finalizeGroup_steps]
    exact append_nil _
  · exact collectGroups_steps context operators _ []

theorem groupsFromSteps_ne_nil (context : CandidateContext) (operators : List CommandOperator) (h : steps ≠ []) :
    groupsFromSteps context steps operators ≠ [] := by
  intro hnil
  have hsteps : [] = (steps.insertionSort startsBefore).map (·.step) :=
    (congrArg candidateSteps hnil).symm.trans (groupsFromSteps_steps context steps operators)
  have hsorted := (perm_insertionSort startsBefore steps).length_eq
  rw [map_eq_nil_iff.mp hsteps.symm] at hsorted
  exact h (length_eq_zero_iff.mp hsorted.symm)

def RespectsPolicy (candidate : ExecAuthorizationCandidate) : Prop :=
  candidate.sourceSegment.isPolicyBlocked = true → candidate.trustMode = .promptOnly

theorem createCandidate_respectsPolicy (context : CandidateContext) (entry : CommandStepWithSegment)
    (relationship : ExecAuthorizationRelationship) : RespectsPolicy (createCandidate context entry relationship) :=
  fun hblocked => if_pos hblocked

/-- A group has candidates, and each respects policy. -/
structure ExecAuthorizationGroup.Sound (group : ExecAuthorizationGroup) : Prop where
  candidates_ne_nil : group.candidates ≠ []
  respectsPolicy : ∀ candidate ∈ group.candidates, RespectsPolicy candidate

theorem finalizeGroup_sound (hsteps : steps ≠ []) (relationship : ExecAuthorizationRelationship)
    (opToNext : Option ShellChainOperator) : (finalizeGroup context steps relationship opToNext).Sound := by
  refine ⟨fun hnil => hsteps (map_eq_nil_iff.mp hnil), fun candidate hcandidate => ?_⟩
  obtain ⟨entry, -, rfl⟩ := mem_map.mp hcandidate
  exact createCandidate_respectsPolicy _ _ _

theorem collectGroups_sound (rest current : List CommandStepWithSegment) :
    ∀ group ∈ collectGroups context operators rest current, group.Sound := by
  induction rest generalizing current with
  | nil =>
    unfold collectGroups
    split
    · exact fun _ hgroup => nomatch hgroup
    · rename_i hcurrent
      exact forall_mem_singleton.mpr (finalizeGroup_sound (mt isEmpty_iff.mpr hcurrent) _ _)
  | cons entry rest ih =>
    unfold collectGroups
    split
    · exact ih _
    rename_i previous hlast
    have hcurrent : current ≠ [] := by
      rintro rfl
      cases hlast
    split
    · exact ih _
    · exact forall_mem_cons.mpr ⟨finalizeGroup_sound hcurrent _ _, ih _⟩
    · exact forall_mem_cons.mpr ⟨finalizeGroup_sound hcurrent _ _, ih _⟩

theorem groupsFromSteps_sound (context : CandidateContext) (steps : List CommandStepWithSegment)
    (operators : List CommandOperator) : ∀ group ∈ groupsFromSteps context steps operators, group.Sound := by
  unfold groupsFromSteps
  dsimp only
  split
  · rename_i hmany
    have hlength : 1 < (steps.insertionSort startsBefore).length := of_decide_eq_true (Bool.and_eq_true_iff.mp hmany).1
    refine forall_mem_singleton.mpr (finalizeGroup_sound (fun hnil => ?_) _ _)
    rw [hnil] at hlength
    cases hlength
  · exact collectGroups_sound _ _

omit [LowerCase] in
theorem boundedGroups_of_ne_nil (wrapper : CommandStepWithSegment) {groups : List ExecAuthorizationGroup}
    (h : groups ≠ []) : ∃ bounded, boundedGroups wrapper groups = some bounded :=
  ⟨_, if_pos (length_pos_iff.mpr h)⟩

omit [LowerCase] in
theorem boundedGroups_eq_some {wrapper : CommandStepWithSegment} {groups bounded : List ExecAuthorizationGroup}
    (h : boundedGroups wrapper groups = some bounded) (hsound : ∀ group ∈ groups, group.Sound) :
    candidateSteps bounded = candidateSteps groups ∧ ∀ group ∈ bounded, group.Sound := by
  obtain ⟨-, hbounded⟩ := Option.ite_none_right_eq_some.mp h
  obtain rfl := Option.some.inj hbounded
  unfold applyWrapperPayloadPersistenceBoundary
  split
  · exact ⟨rfl, hsound⟩
  constructor
  · simp only [candidateSteps, planCandidates, flatMap_map, map_flatMap, map_map]
    rfl
  · rw [forall_mem_map]
    intro group hgroup
    refine ⟨fun hnil => (hsound group hgroup).candidates_ne_nil (map_eq_nil_iff.mp hnil), ?_⟩
    rw [forall_mem_map]
    exact (hsound group hgroup).respectsPolicy

end

end

end ClawWorks.Exec
