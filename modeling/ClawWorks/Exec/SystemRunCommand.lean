import ClawWorks.Exec.PlanFailsClosed

/-!
# The command of an approval

What an approval shows for a vector, and whether the text that came with the vector may stand for it.
-/

namespace ClawWorks.Exec

open List Peel

variable [LowerCase]

omit [LowerCase] in
def formatExecCommand (argv : Argv) : JsString :=
  intercalate (js " ") (argv.map formatArgument)

def POSIX_OR_POWERSHELL_INLINE_WRAPPER_NAMES : List JsString :=
  [js "ash", js "bash", js "dash", js "fish", js "ksh", js "powershell", js "pwsh", js "sh", js "zsh"]

def unwrapShellWrapperArgv (platform : Platform) (argv : Argv) : Argv :=
  let dispatchUnwrapped := unwrapDispatchWrappersForResolution argv MAX_DISPATCH_WRAPPER_DEPTH platform
  match unwrapKnownShellMultiplexerInvocation dispatchUnwrapped with
  | .unwrapped _ inner => inner
  | _ => dispatchUnwrapped

/-- `wrapper === "powershell" || wrapper === "pwsh"`. -/
def isPowerShellName (wrapper : JsString) : Bool :=
  wrapper == js "powershell" || wrapper == js "pwsh"

/-- For the vector that is taken for the shell. -/
def hasTrailingArgvAfterInlineCommand (wrapperArgv : Argv) : Bool :=
  let token0 := trimmedAt wrapperArgv 0
  if token0.isEmpty then false
  else
    let wrapper := normalizeExecutableToken token0
    if !POSIX_OR_POWERSHELL_INLINE_WRAPPER_NAMES.contains wrapper then false
    else
      let inlineCommandIndex :=
        if isPowerShellName wrapper then (resolvePowerShellInlineCommandMatch wrapperArgv).valueTokenIndex
        else
          (resolveInlineCommandMatch wrapperArgv POSIX_INLINE_COMMAND_FLAGS
            { allowCombinedC := true }).valueTokenIndex
      match inlineCommandIndex with
      | none => false
      | some index =>
        if isPowerShellName wrapper && isPowerShellInlineRestCommandFlag (argvAt wrapperArgv (index - 1)) then false
        else (wrapperArgv.drop (index + 1)).any fun entry => 0 < (trim entry).length

def hasTrailingPositionalArgvAfterInlineCommand (platform : Platform) (argv : Argv) : Bool :=
  hasTrailingArgvAfterInlineCommand (unwrapShellWrapperArgv platform argv)

structure SystemRunCommandDisplay where
  shellPayload : Option JsString
  commandText : JsString
  previewText : Option JsString
  deriving DecidableEq

def buildSystemRunCommandDisplay (platform : Platform) (argv : Argv) (rawCommand : Option JsString) :
    SystemRunCommandDisplay :=
  let rawlessShellWrapperResolution := extractShellWrapperCommand platform argv none
  let shellWrapperResolution :=
    if rawlessShellWrapperResolution.command.isNone && rawCommand.isSome then
      extractShellWrapperCommand platform argv rawCommand
    else rawlessShellWrapperResolution
  let shellPayload := shellWrapperResolution.command
  let shellWrapperPositionalArgv := hasTrailingPositionalArgvAfterInlineCommand platform argv
  let envManipulationBeforeShellWrapper :=
    shellWrapperResolution.isWrapper && hasEnvManipulationBeforeShellWrapper platform argv
  { shellPayload
    commandText := formatExecCommand argv
    previewText :=
      if !envManipulationBeforeShellWrapper && !shellWrapperPositionalArgv then shellPayload.map trim else none }

structure RawCommandMismatch where
  code : JsString
  rawCommand : JsString
  inferred : JsString
  formattedArgv : JsString
  deriving DecidableEq

inductive SystemRunCommandValidation
  | ok (display : SystemRunCommandDisplay)
  | error (message : JsString) (details : RawCommandMismatch)
  deriving DecidableEq

def normalizeRawCommandText (rawCommand : Option JsString) : Option JsString :=
  truthy? (rawCommand.map trim)

def validateSystemRunCommandConsistency (platform : Platform) (argv : Argv) (rawCommand : Option JsString)
    (allowLegacyShellText : Bool) : SystemRunCommandValidation :=
  let raw := normalizeRawCommandText rawCommand
  let display := buildSystemRunCommandDisplay platform argv raw
  match raw with
  | none => .ok display
  | some text =>
    let matchesCanonicalArgv := text == display.commandText
    let matchesLegacyShellText := allowLegacyShellText && display.previewText == some text
    -- The text is only shown, so it may not differ from what runs.
    if !matchesCanonicalArgv && !matchesLegacyShellText then
      .error (js "INVALID_REQUEST: rawCommand does not match command")
        ⟨js "RAW_COMMAND_MISMATCH", text, display.commandText, display.commandText⟩
    else .ok display

/-- The arguments after the inline command; a PowerShell flag that takes the rest of the line leaves none, and neither
does `cmd`. -/
def argumentsAfterInlineCommand (shell : Argv) : Argv :=
  match findShellWrapperSpec (normalizeExecutableToken (trimmedAt shell 0)) with
  | none => []
  | some wrapper =>
    match wrapper.kind with
    | .posix =>
      match (resolveInlineCommandMatch shell POSIX_INLINE_COMMAND_FLAGS { allowCombinedC := true }).valueTokenIndex with
      | some index => shell.drop (index + 1)
      | none => []
    | .cmd => []
    | .powershell =>
      match (resolvePowerShellInlineCommandMatch shell).valueTokenIndex with
      | some index =>
        if isPowerShellInlineRestCommandFlag (argvAt shell (index - 1)) then [] else shell.drop (index + 1)
      | none => []

/-- Whether an argument is more than white space. -/
def hasText (argument : JsString) : Bool :=
  0 < (trim argument).length

section

variable {platform : Platform} {argv shell : Argv} {layers : List (Layer JsString Argv)}

omit [LowerCase] in
theorem shellNames_agree :
    (∀ name ∈ POSIX_SHELL_WRAPPER_NAMES, POSIX_OR_POWERSHELL_INLINE_WRAPPER_NAMES.contains name ∧
      isPowerShellName name = false) ∧
    (∀ name ∈ WINDOWS_CMD_WRAPPER_NAMES, POSIX_OR_POWERSHELL_INLINE_WRAPPER_NAMES.contains name = false) ∧
    (∀ name ∈ POWERSHELL_WRAPPER_NAMES, POSIX_OR_POWERSHELL_INLINE_WRAPPER_NAMES.contains name ∧
      isPowerShellName name) ∧
    ∀ name ∈ POSIX_OR_POWERSHELL_INLINE_WRAPPER_NAMES, name ∈ SHELL_WRAPPER_CANONICAL := by
  decide

omit [LowerCase] in
theorem findShellWrapperSpec_cases {name : JsString} {spec : ShellWrapperSpec}
    (h : findShellWrapperSpec name = some spec) :
    (spec.kind = .posix ∧ name ∈ POSIX_SHELL_WRAPPER_NAMES) ∨ (spec.kind = .cmd ∧ name ∈ WINDOWS_CMD_WRAPPER_NAMES) ∨
      spec.kind = .powershell ∧ name ∈ POWERSHELL_WRAPPER_NAMES := by
  have hcontains : spec.names.contains name := by simpa using find?_some h
  have hname := contains_iff_mem.mp hcontains
  have hspec := mem_of_find?_eq_some h
  simp only [SHELL_WRAPPER_SPECS, mem_cons, not_mem_nil, or_false] at hspec
  rcases hspec with rfl | rfl | rfl
  · exact .inl ⟨rfl, hname⟩
  · exact .inr (.inl ⟨rfl, hname⟩)
  · exact .inr (.inr ⟨rfl, hname⟩)

/-- **For a shell, the arguments that are looked for are those after the command.** -/
theorem hasTrailing_shell (h : isShellWrapperExecutable (trimmedAt shell 0)) (htoken : trimmedAt shell 0 ≠ []) :
    hasTrailingArgvAfterInlineCommand shell = (argumentsAfterInlineCommand shell).any hasText := by
  have hfound := findShellWrapperSpec_isSome.trans h
  obtain ⟨spec, hspec⟩ := Option.isSome_iff_exists.mp hfound
  have hblank := mt List.isEmpty_iff.mp htoken
  unfold hasTrailingArgvAfterInlineCommand argumentsAfterInlineCommand
  rw [hspec]
  rcases findShellWrapperSpec_cases hspec with ⟨hkind, hname⟩ | ⟨hkind, hname⟩ | ⟨hkind, hname⟩
  · obtain ⟨hknown, hposix⟩ := shellNames_agree.1 _ hname
    simp only [if_neg hblank, hknown, hposix, hkind, Bool.not_true, Bool.false_eq_true, if_false, Bool.false_and]
    generalize (resolveInlineCommandMatch shell POSIX_INLINE_COMMAND_FLAGS _).valueTokenIndex = index
    cases index <;> rfl
  · simp only [if_neg hblank, shellNames_agree.2.1 _ hname, hkind, Bool.not_false, if_true, any_nil]
  · obtain ⟨hknown, hpowershell⟩ := shellNames_agree.2.2.1 _ hname
    simp only [if_neg hblank, hknown, hpowershell, hkind, Bool.not_true, Bool.false_eq_true, if_false, if_true,
      Bool.true_and]
    generalize (resolvePowerShellInlineCommandMatch shell).valueTokenIndex = index
    cases index with
    | none => rfl
    | some index =>
      dsimp only
      split <;> rfl

theorem hasTrailing_of_not_shell (h : isShellWrapperExecutable (trimmedAt shell 0) = false) :
    hasTrailingArgvAfterInlineCommand shell = false := by
  have hname : POSIX_OR_POWERSHELL_INLINE_WRAPPER_NAMES.contains (normalizeExecutableToken (trimmedAt shell 0)) =
      false := by
    rw [Bool.eq_false_iff]
    intro hknown
    have hshell : SHELL_WRAPPER_CANONICAL.contains (normalizeExecutableToken (trimmedAt shell 0)) :=
      contains_iff_mem.mpr (shellNames_agree.2.2.2 _ (contains_iff_mem.mp hknown))
    rw [isShellWrapperExecutable, hshell] at h
    cases h
  simp only [hasTrailingArgvAfterInlineCommand, hname, Bool.not_false, if_true, ite_self]

/-- Whether a layer is a dispatch wrapper that does more than run the command. -/
def isSemanticLayer (platform : Platform) (layer : Layer JsString Argv) : Prop :=
  unwrapKnownDispatchWrapperInvocation platform layer.outer ≠ .notWrapper ∧
    isSemanticDispatchWrapperUsage layer.wrapper layer.outer platform = true

section

variable (h : Peels (wrapperUnwrap platform) layers argv shell)

include h

theorem transparent_of_layers (htransparent : ∀ layer ∈ layers, ¬ isSemanticLayer platform layer) :
    Peels (transparentUnwrap platform) layers argv shell := by
  refine ⟨h.reaches.congr fun layer hlayer => ?_, ?_⟩
  · obtain ⟨inner, hinner⟩ := h.reaches.layer_unwrapped layer hlayer
    rw [hinner]
    rcases orElse_eq_unwrapped_iff.mp hinner with hdispatch | ⟨hnone, hmultiplexer⟩
    · have hsemantic : ¬ isSemanticDispatchWrapperUsage layer.wrapper layer.outer platform :=
        fun hsemantic => htransparent layer hlayer ⟨by rw [hdispatch]; exact nofun, hsemantic⟩
      exact orElse_eq_unwrapped_iff.mpr (.inl
        (transparentDispatchUnwrap_eq_unwrapped_iff.mpr ⟨hdispatch, Bool.eq_false_iff.mpr hsemantic⟩))
    · exact orElse_eq_unwrapped_iff.mpr (.inr ⟨transparentDispatchUnwrap_eq_notWrapper_iff.mpr hnone, hmultiplexer⟩)
  · rw [transparentUnwrap_eq_notWrapper_iff]
    exact orElse_eq_notWrapper_iff.mp h.ends

theorem shellWrapperArgv_of_unblocked
    (hplan : (resolveDispatchWrapperTrustPlan argv MAX_DISPATCH_WRAPPER_DEPTH platform).policyBlocked = false) :
    unwrapShellWrapperArgv platform argv = shell ∧ ∀ layer ∈ layers, ¬ isSemanticLayer platform layer := by
  obtain ⟨before, hbefore, -, -⟩ := dispatchPlan_peels hplan
  unfold unwrapShellWrapperArgv unwrapDispatchWrappersForResolution
  generalize (resolveDispatchWrapperTrustPlan argv MAX_DISPATCH_WRAPPER_DEPTH platform).argv = mid at hbefore
  have hnone := transparentDispatchUnwrap_eq_notWrapper_iff.mp hbefore.ends
  obtain ⟨hreaches, htransparent⟩ := transparent_layers (hbefore.reaches.orElse unwrapKnownShellMultiplexerInvocation)
  have hbefore' : ∀ layer ∈ before, ¬ isSemanticLayer platform layer := by
    rintro layer hlayer ⟨hdispatch, hsemantic⟩
    cases (htransparent layer hlayer hdispatch).symm.trans hsemantic
  obtain ⟨rest, rfl, hrest⟩ := hreaches.split h
  dsimp only
  cases hmultiplexer : unwrapKnownShellMultiplexerInvocation mid with
  | notWrapper =>
    obtain ⟨rfl, rfl⟩ := hrest.eq_of_notWrapper (orElse_eq_notWrapper_iff.mpr ⟨hnone, hmultiplexer⟩)
    exact ⟨rfl, by rwa [append_nil]⟩
  | blocked w =>
    have hblocked : wrapperUnwrap platform mid = .blocked w := (orElse_of_notWrapper hnone).trans hmultiplexer
    exact absurd ((Reaches.here mid).not_peels (.inl ⟨w, hblocked⟩) hrest) (lt_irrefl rest.length)
  | unwrapped w inner =>
    have hinner := shell_notWrapper platform (multiplexerUnwrap_suffix hmultiplexer).2.1
    have hstep : wrapperUnwrap platform mid = .unwrapped w inner := (orElse_of_notWrapper hnone).trans hmultiplexer
    have hway : Peels (wrapperUnwrap platform) [⟨w, mid⟩] mid inner :=
      ⟨.layer hstep (.here inner), orElse_eq_notWrapper_iff.mpr hinner⟩
    obtain ⟨rfl, rfl⟩ := hrest.unique hway
    refine ⟨rfl, forall_mem_append.mpr ⟨hbefore', ?_⟩⟩
    rw [forall_mem_singleton]
    exact fun hsemantic => hsemantic.1 hnone

theorem dispatchPlan_blocked_iff (hlength : layers.length ≤ MAX_DISPATCH_WRAPPER_DEPTH) :
    (resolveDispatchWrapperTrustPlan argv MAX_DISPATCH_WRAPPER_DEPTH platform).policyBlocked ↔
      ∃ layer ∈ layers, isSemanticLayer platform layer := by
  constructor
  · intro hblocked
    by_contra htransparent
    push Not at htransparent
    obtain ⟨before, hreaches, hstuck⟩ := dispatchPlan_stuck hblocked
    have hlimit := (hreaches.orElse unwrapKnownShellMultiplexerInvocation).not_peels (stuck_of_dispatch [] hstuck)
      (transparent_of_layers h htransparent)
    exact absurd hlimit (not_lt.mpr hlength)
  · rintro ⟨layer, hlayer, hsemantic⟩
    by_contra hblocked
    exact (shellWrapperArgv_of_unblocked h (Bool.eq_false_iff.mpr hblocked)).2 layer hlayer hsemantic

end

theorem hasTrailing_of_blocked
    (h : (resolveDispatchWrapperTrustPlan argv MAX_DISPATCH_WRAPPER_DEPTH platform).policyBlocked) :
    hasTrailingPositionalArgvAfterInlineCommand platform argv = false := by
  obtain ⟨before, -, hstuck⟩ := dispatchPlan_stuck h
  unfold hasTrailingPositionalArgvAfterInlineCommand unwrapShellWrapperArgv unwrapDispatchWrappersForResolution
  generalize (resolveDispatchWrapperTrustPlan argv MAX_DISPATCH_WRAPPER_DEPTH platform).argv = stuck at hstuck
  have hwrapper : unwrapKnownDispatchWrapperInvocation platform stuck ≠ .notWrapper := by
    rw [Ne, ← transparentDispatchUnwrap_eq_notWrapper_iff]
    rcases hstuck with ⟨w, hblocked⟩ | ⟨-, hwrapper⟩
    · rw [hblocked]
      exact nofun
    · exact hwrapper
  simp only [dispatch_not_multiplexer hwrapper]
  refine hasTrailing_of_not_shell ?_
  by_contra hshell
  exact hwrapper (shell_notWrapper platform (Bool.not_eq_false _ ▸ hshell)).1

end

end ClawWorks.Exec
