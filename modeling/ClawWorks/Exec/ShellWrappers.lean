import ClawWorks.Exec.DispatchWrappers
import ClawWorks.Exec.InlineCommand

/-!
# Shell wrappers

Shells that run a command given as text, behind dispatch wrappers and behind the multiplexers `busybox` and `toybox`.
-/

namespace ClawWorks.Exec

open List Peel

/-! ## Names -/

def POSIX_SHELL_WRAPPER_NAMES : List JsString :=
  [js "ash", js "bash", js "dash", js "fish", js "ksh", js "sh", js "zsh"]

def WINDOWS_CMD_WRAPPER_NAMES : List JsString :=
  [js "cmd"]

def POWERSHELL_WRAPPER_NAMES : List JsString :=
  [js "powershell", js "pwsh"]

def SHELL_MULTIPLEXER_WRAPPER_NAMES : List JsString :=
  [js "busybox", js "toybox"]

def SHELL_WRAPPER_CANONICAL : List JsString :=
  POSIX_SHELL_WRAPPER_NAMES ++ WINDOWS_CMD_WRAPPER_NAMES ++ POWERSHELL_WRAPPER_NAMES

inductive ShellWrapperKind
  | posix | cmd | powershell
  deriving DecidableEq

structure ShellWrapperSpec where
  kind : ShellWrapperKind
  names : List JsString

def SHELL_WRAPPER_SPECS : List ShellWrapperSpec :=
  [⟨.posix, POSIX_SHELL_WRAPPER_NAMES⟩, ⟨.cmd, WINDOWS_CMD_WRAPPER_NAMES⟩, ⟨.powershell, POWERSHELL_WRAPPER_NAMES⟩]

def findShellWrapperSpec (baseExecutable : JsString) : Option ShellWrapperSpec :=
  SHELL_WRAPPER_SPECS.find? (·.names.contains baseExecutable)

variable [LowerCase]

def isShellWrapperExecutable (token : JsString) : Bool :=
  SHELL_WRAPPER_CANONICAL.contains (normalizeExecutableToken token)

def unwrapKnownShellMultiplexerInvocation (argv : Argv) : Unwrap JsString Argv :=
  let token0 := trimmedAt argv 0
  if token0.isEmpty then .notWrapper
  else
    let wrapper := normalizeExecutableToken token0
    if !SHELL_MULTIPLEXER_WRAPPER_NAMES.contains wrapper then .notWrapper
    else
      let appletIndex := if trimmedAt argv 1 == js "--" then 2 else 1
      let applet := trimmedAt argv appletIndex
      if applet.isEmpty || !isShellWrapperExecutable applet then .blocked wrapper
      else if (argv.drop appletIndex).isEmpty then .blocked wrapper
      else .unwrapped wrapper (argv.drop appletIndex)

structure ShellWrapperCandidate (τ : Type) where
  argv : Argv
  token0 : JsString
  state : τ

/-- With so many levels left; a state is carried along. -/
def resolveShellWrapperCandidateWithin {τ : Type} (platform : Platform) (onDispatchUnwrap : τ → Argv → τ) :
    Nat → Argv → τ → Option (ShellWrapperCandidate τ)
  | 0, _, _ => none
  | levels + 1, argv, state =>
    let token0 := trimmedAt argv 0
    if token0.isEmpty then none
    else
      match unwrapKnownDispatchWrapperInvocation platform argv with
      | .blocked _ => none
      | .unwrapped _ inner =>
        resolveShellWrapperCandidateWithin platform onDispatchUnwrap levels inner (onDispatchUnwrap state argv)
      | .notWrapper =>
        match unwrapKnownShellMultiplexerInvocation argv with
        | .blocked _ => none
        | .unwrapped _ inner => resolveShellWrapperCandidateWithin platform onDispatchUnwrap levels inner state
        | .notWrapper => some ⟨argv, token0, state⟩

variable (platform : Platform) (argv : Argv)

def resolveShellWrapperCandidate {τ : Type} (depth : Nat) (state : τ)
    (onDispatchUnwrap : τ → Argv → τ) : Option (ShellWrapperCandidate τ) :=
  resolveShellWrapperCandidateWithin platform onDispatchUnwrap (MAX_DISPATCH_WRAPPER_DEPTH + 1 - depth) argv state

def resolveStatelessCandidate (depth : Nat) : Option (ShellWrapperCandidate Unit) :=
  resolveShellWrapperCandidate platform argv depth () fun state _ => state

/-! ## Payloads -/

def extractPosixShellInlineCommand : Option JsString :=
  (resolveInlineCommandMatch argv POSIX_INLINE_COMMAND_FLAGS { allowCombinedC := true }).command

/-- The options of `cmd` that take the rest of the line. -/
def isCmdInlineFlag (item : JsString) : Bool :=
  [js "/c", js "/k", js "-c", js "-k"].contains (normalizeLowercaseStringOrEmpty item)

def extractCmdInlineCommand : Option JsString :=
  match argv.dropWhile fun item => !isCmdInlineFlag item with
  | [] => none
  | _ :: tail => if tail.isEmpty then none else truthy? (some (trim (intercalate (js " ") tail)))

def extractPowerShellInlineCommand : Option JsString :=
  (resolvePowerShellInlineCommandMatch argv).command

def extractShellWrapperPayload (spec : ShellWrapperSpec) : Option JsString :=
  match spec.kind with
  | .posix => extractPosixShellInlineCommand argv
  | .cmd => extractCmdInlineCommand argv
  | .powershell => extractPowerShellInlineCommand argv

structure ShellWrapperResolution where
  argv : Argv
  wrapper : ShellWrapperSpec
  payload : JsString

def shellWrapperOf {τ : Type} (candidate : ShellWrapperCandidate τ) : Option ShellWrapperResolution :=
  match findShellWrapperSpec (normalizeExecutableToken candidate.token0) with
  | none => none
  | some wrapper => (extractShellWrapperPayload candidate.argv wrapper).map fun payload =>
      ⟨candidate.argv, wrapper, payload⟩

def resolveShellWrapperSpecAndArgvInternal (depth : Nat) : Option ShellWrapperResolution :=
  (resolveStatelessCandidate platform argv depth).bind shellWrapperOf

def isLegacyShLoginInlineForm (baseExecutable : JsString) : Bool :=
  baseExecutable == js "sh" && trimmedAt argv 1 == js "-lc"

def formatArgument (arg : JsString) : JsString :=
  if arg.isEmpty then js "\"\""
  else if arg.any fun u => isWhiteSpace u || u == DOUBLE_QUOTE then
    [DOUBLE_QUOTE] ++ arg.flatMap (fun u => if u == DOUBLE_QUOTE then [BACKSLASH, DOUBLE_QUOTE] else [u]) ++
      [DOUBLE_QUOTE]
  else arg

def formatShellWrapperArgv : JsString :=
  intercalate (js " ") (argv.map formatArgument)

def startupWrapperRequiresFullArgv (spec : ShellWrapperSpec) (baseExecutable : JsString)
    (includeLegacyLoginInlineForm : Bool) : Bool :=
  if spec.kind ≠ .posix then false
  else if baseExecutable == js "fish" && hasFishInitCommandOption argv then true
  else if POSIX_SHELL_WRAPPER_NAMES.contains baseExecutable &&
      hasPosixLoginStartupBeforeInlineCommand argv POSIX_INLINE_COMMAND_FLAGS then
    includeLegacyLoginInlineForm || !isLegacyShLoginInlineForm argv baseExecutable
  else hasPosixInteractiveStartupBeforeInlineCommand argv POSIX_INLINE_COMMAND_FLAGS

def hasEnvManipulationBeforeShellWrapper : Bool :=
  match resolveShellWrapperCandidate platform argv 0 false
      fun state wrappedArgv => state || hasDispatchEnvManipulation platform wrappedArgv with
  | none => false
  | some candidate => (shellWrapperOf candidate).isSome && candidate.state

structure ShellWrapperCommand where
  isWrapper : Bool
  command : Option JsString

variable (rawCommand : Option JsString)

def extractShellWrapperCommandInternal (depth : Nat) : ShellWrapperCommand :=
  match resolveStatelessCandidate platform argv depth with
  | none => ⟨false, none⟩
  | some candidate =>
    let baseExecutable := normalizeExecutableToken candidate.token0
    match shellWrapperOf candidate with
    | none => ⟨false, none⟩
    | some ⟨_, wrapper, payload⟩ =>
      if wrapper.kind = .posix && baseExecutable == js "fish" && hasFishAttachedCommandOption candidate.argv then
        ⟨true, none⟩
      else
        let rawMatchesPayload := rawCommand == some payload
        let rawMatchesCanonicalArgv := rawCommand == some (formatShellWrapperArgv candidate.argv)
        let allowLegacyShLoginPayloadBinding :=
          isLegacyShLoginInlineForm candidate.argv baseExecutable && (rawMatchesPayload || rawMatchesCanonicalArgv)
        if startupWrapperRequiresFullArgv candidate.argv wrapper baseExecutable !allowLegacyShLoginPayloadBinding then
          ⟨true, none⟩
        else
          match resolveShellWrapperSpecAndArgvInternal platform candidate.argv depth with
          | none => ⟨false, none⟩
          | some resolved =>
            ⟨true, some (if rawMatchesCanonicalArgv then resolved.payload else rawCommand.getD resolved.payload)⟩

def resolveShellWrapperTransportArgv : Option Argv :=
  (resolveShellWrapperSpecAndArgvInternal platform argv 0).map (·.argv)

def normalizeRawCommand : Option JsString :=
  truthy? (rawCommand.map trim)

def extractShellWrapperCommand : ShellWrapperCommand :=
  extractShellWrapperCommandInternal platform argv (normalizeRawCommand rawCommand) 0

def extractBindableShellWrapperInlineCommand : Option JsString :=
  (extractShellWrapperCommand platform argv rawCommand).command

/-! ## Shells are no wrappers of the other kinds -/

section

variable {platform : Platform} {argv inner : Argv} {wrapper : JsString}

theorem wrapperNames_disjoint : (∀ name ∈ SHELL_WRAPPER_CANONICAL,
      name ∉ DISPATCH_WRAPPER_SPECS.map (·.name) ∧ name ∉ SHELL_MULTIPLEXER_WRAPPER_NAMES) ∧
    ∀ name ∈ SHELL_MULTIPLEXER_WRAPPER_NAMES, name ∉ DISPATCH_WRAPPER_SPECS.map (·.name) := by
  rw [dispatchWrapperSpecs_names]
  decide

theorem isDispatchWrapperExecutable_eq_false {token : JsString}
    (h : normalizeExecutableToken token ∉ DISPATCH_WRAPPER_SPECS.map (·.name)) :
    isDispatchWrapperExecutable token = false := by
  rw [isDispatchWrapperExecutable, Option.isSome_eq_false_iff, Option.isNone_iff_eq_none, dispatchWrapperSpec?,
    find?_eq_none]
  intro spec hspec hname
  exact h (mem_map.mpr ⟨spec, hspec, eq_of_beq hname⟩)

theorem multiplexerUnwrap_eq_notWrapper
    (h : normalizeExecutableToken (trimmedAt argv 0) ∉ SHELL_MULTIPLEXER_WRAPPER_NAMES) :
    unwrapKnownShellMultiplexerInvocation argv = .notWrapper := by
  have hname : (!SHELL_MULTIPLEXER_WRAPPER_NAMES.contains (normalizeExecutableToken (trimmedAt argv 0))) := by
    simpa using h
  simp only [unwrapKnownShellMultiplexerInvocation, if_pos hname, ite_self]

theorem multiplexerUnwrap_suffix (h : unwrapKnownShellMultiplexerInvocation argv = .unwrapped wrapper inner) :
    inner <:+ argv ∧ isShellWrapperExecutable (trimmedAt inner 0) ∧ wrapper ∈ SHELL_MULTIPLEXER_WRAPPER_NAMES ∧
      wrapper = normalizeExecutableToken (trimmedAt argv 0) := by
  unfold unwrapKnownShellMultiplexerInvocation at h
  dsimp only at h
  split at h
  · cases h
  split at h
  · cases h
  rename_i hname
  generalize (if (trimmedAt argv 1 == js "--") = true then 2 else 1) = appletIndex at h
  split at h
  · exact absurd h nofun
  rename_i happlet
  split at h
  · exact absurd h nofun
  obtain ⟨rfl, rfl⟩ := Unwrap.unwrapped.inj h
  refine ⟨drop_suffix _ _, ?_, by simpa using hname, rfl⟩
  have hhead : trimmedAt (argv.drop appletIndex) 0 = trimmedAt argv appletIndex := by
    simp only [trimmedAt, argvAt, getElem?_drop, Nat.add_zero]
  rw [hhead]
  simp only [Bool.or_eq_true, Bool.not_eq_true', not_or, Bool.not_eq_false] at happlet
  exact happlet.2

theorem trimmedAt_ne_nil_of_multiplexer
    (h : unwrapKnownShellMultiplexerInvocation argv = .unwrapped wrapper inner) : trimmedAt argv 0 ≠ [] := by
  intro hnil
  simp only [unwrapKnownShellMultiplexerInvocation, hnil, isEmpty_nil, if_true] at h
  cases h

theorem shell_notWrapper (platform : Platform) (h : isShellWrapperExecutable (trimmedAt argv 0)) :
    unwrapKnownDispatchWrapperInvocation platform argv = .notWrapper ∧
      unwrapKnownShellMultiplexerInvocation argv = .notWrapper := by
  have hname : SHELL_WRAPPER_CANONICAL.contains (normalizeExecutableToken (trimmedAt argv 0)) := h
  obtain ⟨hdispatch, hmultiplexer⟩ := wrapperNames_disjoint.1 _ (contains_iff_mem.mp hname)
  exact ⟨dispatchUnwrap_eq_notWrapper_iff.mpr (.inr (isDispatchWrapperExecutable_eq_false hdispatch)),
    multiplexerUnwrap_eq_notWrapper hmultiplexer⟩

theorem dispatch_not_multiplexer (h : unwrapKnownDispatchWrapperInvocation platform argv ≠ .notWrapper) :
    unwrapKnownShellMultiplexerInvocation argv = .notWrapper := by
  refine multiplexerUnwrap_eq_notWrapper fun hname => h ?_
  exact dispatchUnwrap_eq_notWrapper_iff.mpr
    (.inr (isDispatchWrapperExecutable_eq_false (wrapperNames_disjoint.2 _ hname)))

end

/-! ## The candidate -/

/-- One wrapper of either kind taken off. -/
def wrapperUnwrap (platform : Platform) : Argv → Unwrap JsString Argv :=
  orElse (unwrapKnownDispatchWrapperInvocation platform) unwrapKnownShellMultiplexerInvocation

section

variable {platform : Platform} {argv b : Argv} {layers : List (Layer JsString Argv)}

def carriedState {τ : Type} (platform : Platform) (onDispatchUnwrap : τ → Argv → τ) :
    List (Layer JsString Argv) → τ → τ
  | [], state => state
  | layer :: layers, state =>
    carriedState platform onDispatchUnwrap layers
      (if unwrapKnownDispatchWrapperInvocation platform layer.outer = .notWrapper then state
        else onDispatchUnwrap state layer.outer)

theorem candidateWithin_of_peels {τ : Type} {onDispatchUnwrap : τ → Argv → τ} {levels : Nat} (state : τ)
    (h : Peels (wrapperUnwrap platform) layers argv b) (hlevels : layers.length < levels)
    (htoken : trimmedAt b 0 ≠ []) :
    resolveShellWrapperCandidateWithin platform onDispatchUnwrap levels argv state =
      some ⟨b, trimmedAt b 0, carriedState platform onDispatchUnwrap layers state⟩ := by
  obtain ⟨hreaches, hends⟩ := h
  induction hreaches generalizing levels state with
  | here argv =>
    obtain ⟨levels, rfl⟩ := Nat.exists_eq_succ_of_ne_zero (Nat.ne_of_gt hlevels)
    obtain ⟨hdispatch, hmultiplexer⟩ := orElse_eq_notWrapper_iff.mp hends
    simp only [resolveShellWrapperCandidateWithin,
      if_neg (mt List.isEmpty_iff.mp htoken), hdispatch, hmultiplexer, carriedState]
  | layer hstep _ ih =>
    obtain ⟨levels, rfl⟩ := Nat.exists_eq_succ_of_ne_zero (Nat.ne_of_gt (Nat.zero_lt_of_lt hlevels))
    rw [List.length_cons] at hlevels
    have hrest := fun state => ih state (Nat.lt_of_succ_lt_succ hlevels) htoken hends
    rcases orElse_eq_unwrapped_iff.mp hstep with hdispatch | ⟨hdispatch, hmultiplexer⟩
    · have hblank := trimmedAt_ne_nil_of_unwrapped hdispatch
      simp only [resolveShellWrapperCandidateWithin, if_neg (mt List.isEmpty_iff.mp hblank), hdispatch, hrest,
        carriedState, reduceCtorEq, if_false]
    · have hblank := trimmedAt_ne_nil_of_multiplexer hmultiplexer
      simp only [resolveShellWrapperCandidateWithin, if_neg (mt List.isEmpty_iff.mp hblank), hdispatch, hmultiplexer,
        hrest, carriedState, if_true]

theorem peels_of_candidateWithin {τ : Type} {onDispatchUnwrap : τ → Argv → τ} {levels : Nat} {state : τ}
    {candidate : ShellWrapperCandidate τ}
    (h : resolveShellWrapperCandidateWithin platform onDispatchUnwrap levels argv state = some candidate) :
    ∃ layers, Peels (wrapperUnwrap platform) layers argv candidate.argv ∧ layers.length < levels ∧
      candidate.token0 = trimmedAt candidate.argv 0 ∧ candidate.token0 ≠ [] ∧
      candidate.state = carriedState platform onDispatchUnwrap layers state := by
  induction levels generalizing argv state with
  | zero => cases h
  | succ levels ih =>
    unfold resolveShellWrapperCandidateWithin at h
    dsimp only at h
    split at h
    · cases h
    rename_i hblank
    split at h
    · cases h
    · rename_i w inner hdispatch
      obtain ⟨layers, ⟨hreaches, hends⟩, hlength, htoken, hne, hstate⟩ := ih h
      refine ⟨⟨w, argv⟩ :: layers, ⟨.layer (orElse_eq_unwrapped_iff.mpr (.inl hdispatch)) hreaches, hends⟩,
        Nat.succ_lt_succ hlength, htoken, hne, ?_⟩
      rw [hstate, carriedState, if_neg (by rw [hdispatch]; exact nofun)]
    · rename_i hdispatch
      split at h
      · cases h
      · rename_i w inner hmultiplexer
        obtain ⟨layers, ⟨hreaches, hends⟩, hlength, htoken, hne, hstate⟩ := ih h
        have hstep : wrapperUnwrap platform argv = .unwrapped w inner :=
          orElse_eq_unwrapped_iff.mpr (.inr ⟨hdispatch, hmultiplexer⟩)
        refine ⟨⟨w, argv⟩ :: layers, ⟨.layer hstep hreaches, hends⟩, Nat.succ_lt_succ hlength, htoken, hne, ?_⟩
        rw [hstate, carriedState, if_pos hdispatch]
      · rename_i hmultiplexer
        cases h
        exact ⟨[], .of_notWrapper (orElse_eq_notWrapper_iff.mpr ⟨hdispatch, hmultiplexer⟩), Nat.succ_pos _, rfl,
          fun hnil => hblank (isEmpty_iff.mpr hnil), rfl⟩

theorem wrapperUnwrap_eq_notWrapper_iff {other : Platform} :
    wrapperUnwrap platform argv = .notWrapper ↔ wrapperUnwrap other argv = .notWrapper := by
  rw [wrapperUnwrap, wrapperUnwrap, orElse_eq_notWrapper_iff, orElse_eq_notWrapper_iff,
    dispatchUnwrap_eq_notWrapper_iff, dispatchUnwrap_eq_notWrapper_iff]

theorem candidate_of_blocked {stuck : Argv} {w : JsString} (h : Reaches (wrapperUnwrap platform) layers argv stuck)
    (hblocked : wrapperUnwrap platform stuck = .blocked w) (depth : Nat) :
    resolveStatelessCandidate platform argv depth = none := by
  refine Option.eq_none_iff_forall_not_mem.mpr fun candidate hcandidate => ?_
  obtain ⟨way, hway, -⟩ := peels_of_candidateWithin hcandidate
  exact absurd (h.not_peels (.inl ⟨w, hblocked⟩) hway) (lt_irrefl way.length)

theorem candidate_of_peels (h : Peels (wrapperUnwrap platform) layers argv b)
    (hlength : layers.length ≤ MAX_DISPATCH_WRAPPER_DEPTH) :
    resolveStatelessCandidate platform argv 0 = if trimmedAt b 0 = [] then none else some ⟨b, trimmedAt b 0, ()⟩ := by
  split
  · rename_i hblank
    refine Option.eq_none_iff_forall_not_mem.mpr fun candidate hcandidate => ?_
    obtain ⟨way, hway, -, htoken, hne, -⟩ := peels_of_candidateWithin hcandidate
    rw [htoken, ← (h.unique hway).2] at hne
    exact hne hblank
  · rename_i htoken
    exact candidateWithin_of_peels () h (Nat.lt_succ_of_le hlength) htoken

variable {rawCommand : Option JsString}

theorem extract_congr (h : resolveStatelessCandidate platform argv 0 = resolveStatelessCandidate platform b 0) :
    extractShellWrapperCommand platform argv rawCommand = extractShellWrapperCommand platform b rawCommand := by
  simp only [extractShellWrapperCommand, extractShellWrapperCommandInternal, h]

theorem extract_of_peels (h : Peels (wrapperUnwrap platform) layers argv b)
    (hlength : layers.length ≤ MAX_DISPATCH_WRAPPER_DEPTH) :
    extractShellWrapperCommand platform argv rawCommand = extractShellWrapperCommand platform b rawCommand := by
  refine extract_congr ?_
  rw [candidate_of_peels h hlength, candidate_of_peels (.of_notWrapper h.ends) (Nat.zero_le _)]

theorem findShellWrapperSpec_isSome {token : JsString} :
    (findShellWrapperSpec (normalizeExecutableToken token)).isSome = isShellWrapperExecutable token := by
  rw [Bool.eq_iff_iff]
  simp [findShellWrapperSpec, SHELL_WRAPPER_SPECS, isShellWrapperExecutable, SHELL_WRAPPER_CANONICAL]

theorem extract_of_not_shell (h : wrapperUnwrap platform b = .notWrapper)
    (hshell : trimmedAt b 0 = [] ∨ isShellWrapperExecutable (trimmedAt b 0) = false) :
    extractShellWrapperCommand platform b rawCommand = ⟨false, none⟩ := by
  have hcandidate := candidate_of_peels (.of_notWrapper h) (Nat.zero_le _)
  rw [extractShellWrapperCommand, extractShellWrapperCommandInternal, hcandidate]
  by_cases hblank : trimmedAt b 0 = []
  · rw [if_pos hblank]
  · rw [if_neg hblank]
    have hnone := findShellWrapperSpec_isSome.trans (hshell.resolve_left hblank)
    rw [Option.isSome_eq_false_iff, Option.isNone_iff_eq_none] at hnone
    simp only [shellWrapperOf, hnone]

end

end ClawWorks.Exec
