import ClawWorks.Exec.EnvCarrier
import ClawWorks.Lib.Peel

/-!
# Dispatch wrappers

Commands that run the command given to them: `nice`, `env`, `timeout` and others, each with its own options.
-/

namespace ClawWorks.Exec

open Option List Peel

/-- `process.platform`. -/
inductive Platform
  | aix | android | cygwin | darwin | freebsd | haiku | linux | netbsd | openbsd | sunos | win32
  deriving DecidableEq

/-! ## Scanning -/

inductive WrapperScanDirective
  | continue | consumeNext | stop | invalid

/-- The tokens from `idx` on, up to where the command may start; `onToken` keeps a state of its own. -/
def scanWrapperTokens {σ : Type} [LowerCase] (separators : List JsString)
    (onToken : σ → JsString → JsString → WrapperScanDirective × σ) : Argv → Nat → Bool → σ → Option Nat
  | [], idx, expectsOptionValue, _ => if expectsOptionValue then none else some idx
  | item :: rest, idx, expectsOptionValue, state =>
    let token := trim item
    if token.isEmpty then scanWrapperTokens separators onToken rest (idx + 1) expectsOptionValue state
    else if expectsOptionValue then scanWrapperTokens separators onToken rest (idx + 1) false state
    else if separators.contains token then some (idx + 1)
    else
      match onToken state token (normalizeLowercaseStringOrEmpty token) with
      | (.stop, _) => some idx
      | (.invalid, _) => none
      | (.consumeNext, state) => scanWrapperTokens separators onToken rest (idx + 1) true state
      | (.continue, state) => scanWrapperTokens separators onToken rest (idx + 1) false state

def scanWrapperInvocation {σ : Type} [LowerCase] (argv : Argv) (separators : List JsString) (start : σ)
    (onToken : σ → JsString → JsString → WrapperScanDirective × σ)
    (adjustCommandIndex : Nat → Argv → Option Nat) : Option Argv :=
  match scanWrapperTokens separators onToken argv.tail 1 false start with
  | none => none
  | some idx =>
    match adjustCommandIndex idx argv with
    | none => none
    | some commandIndex => if argv.length ≤ commandIndex then none else some (argv.drop commandIndex)

def atCommandIndex (commandIndex : Nat) (_ : Argv) : Option Nat :=
  some commandIndex

def eachToken (onToken : JsString → JsString → WrapperScanDirective) (_ : Unit) (token lowerToken : JsString) :
    WrapperScanDirective × Unit :=
  (onToken token lowerToken, ())

variable {adjustCommandIndex : Nat → Argv → Option Nat}

theorem scanWrapperInvocation_suffix {σ : Type} [LowerCase] {argv inner : Argv} {separators : List JsString}
    {start : σ} {onToken : σ → JsString → JsString → WrapperScanDirective × σ}
    (h : scanWrapperInvocation argv separators start onToken adjustCommandIndex = some inner) :
    inner ≠ [] ∧ inner <:+ argv := by
  unfold scanWrapperInvocation at h
  split at h
  · cases h
  split at h
  · cases h
  · split at h
    · cases h
    · rename_i hlength
      cases h
      refine ⟨fun hnil => hlength (drop_eq_nil_iff.mp hnil), drop_suffix _ _⟩

variable [LowerCase]

variable (argv : Argv)

def unwrapDashOptionInvocation (onFlag : JsString → JsString → WrapperScanDirective)
    (adjustCommandIndex : Nat → Argv → Option Nat) : Option Argv :=
  scanWrapperInvocation argv [js "--"] ()
    (eachToken fun token lower => if isOperand token then .stop else onFlag (parseInlineOptionToken lower).name lower)
    adjustCommandIndex

theorem unwrapDashOptionInvocation_suffix {argv inner : Argv} {onFlag : JsString → JsString → WrapperScanDirective}
    (h : unwrapDashOptionInvocation argv onFlag adjustCommandIndex = some inner) : inner ≠ [] ∧ inner <:+ argv :=
  scanWrapperInvocation_suffix h

/-! ## The wrappers -/

def NICE_OPTIONS_WITH_VALUE : List JsString :=
  [js "-n", js "--adjustment", js "--priority"]

def CAFFEINATE_OPTIONS_WITH_VALUE : List JsString :=
  [js "-t", js "-w"]

def STDBUF_OPTIONS_WITH_VALUE : List JsString :=
  [js "-i", js "--input", js "-o", js "--output", js "-e", js "--error"]

def FLOCK_SHORT_FLAG_OPTIONS : List JsString :=
  [js "-e", js "-F", js "-n", js "-o", js "-s", js "-x"]

def FLOCK_LONG_FLAG_OPTIONS : List JsString :=
  [js "--close", js "--exclusive", js "--nb", js "--no-fork", js "--nonblock", js "--shared", js "--verbose"]

def FLOCK_SHORT_OPTIONS_WITH_VALUE : List JsString :=
  [js "-E", js "-w"]

def FLOCK_LONG_OPTIONS_WITH_VALUE : List JsString :=
  [js "--conflict-exit-code", js "--timeout", js "--wait"]

def TIME_FLAG_OPTIONS : List JsString :=
  [js "-a", js "--append", js "-h", js "--help", js "-l", js "-p", js "-q", js "--quiet", js "-v", js "--verbose",
    js "-V", js "--version"]

def TIME_OPTIONS_WITH_VALUE : List JsString :=
  [js "-f", js "--format", js "-o", js "--output"]

def BSD_SCRIPT_FLAG_OPTIONS : List JsString :=
  [js "-a", js "-d", js "-k", js "-p", js "-q", js "-r"]

def BSD_SCRIPT_OPTIONS_WITH_VALUE : List JsString :=
  [js "-F", js "-t"]

def SANDBOX_EXEC_OPTIONS_WITH_VALUE : List JsString :=
  [js "-f", js "-p", js "-d"]

def TIMEOUT_FLAG_OPTIONS : List JsString :=
  [js "--foreground", js "--preserve-status", js "-v", js "--verbose"]

def TIMEOUT_OPTIONS_WITH_VALUE : List JsString :=
  [js "-k", js "--kill-after", js "-s", js "--signal"]

def XCRUN_FLAG_OPTIONS : List JsString :=
  [js "-k", js "--kill-cache", js "-l", js "--log", js "-n", js "--no-cache", js "-r", js "--run", js "-v",
    js "--verbose"]

/-- A value that is attached with `=` is not the next token. -/
def valueDirective (attached : Bool) : WrapperScanDirective :=
  if attached then .continue else .consumeNext

/-- `/^-\d+$/`. -/
def isNumericOption : JsString → Bool
  | dash :: digit :: digits => dash == DASH && (digit :: digits).all isDigit
  | _ => false

def unwrapNiceInvocation : Option Argv :=
  unwrapDashOptionInvocation argv (fun flag lower =>
      if isNumericOption lower then .continue
      else if NICE_OPTIONS_WITH_VALUE.contains flag then valueDirective (lower.contains EQUALS || lower != flag)
      else if (js "-n").isPrefixOf lower && 2 < lower.length then .continue
      else .invalid)
    atCommandIndex

def unwrapCaffeinateInvocation : Option Argv :=
  unwrapDashOptionInvocation argv (fun flag lower =>
      if [js "-d", js "-i", js "-m", js "-s", js "-u"].contains flag then .continue
      else if CAFFEINATE_OPTIONS_WITH_VALUE.contains flag then valueDirective (lower != flag || lower.contains EQUALS)
      else .invalid)
    atCommandIndex

def unwrapNohupInvocation : Option Argv :=
  scanWrapperInvocation argv [js "--"] ()
    (eachToken fun token lower =>
      if isOperand token then .stop
      else if lower == js "--help" || lower == js "--version" then .continue
      else .invalid)
    atCommandIndex

def unwrapSandboxExecInvocation : Option Argv :=
  unwrapDashOptionInvocation argv (fun flag lower =>
      if SANDBOX_EXEC_OPTIONS_WITH_VALUE.contains flag then
        valueDirective (lower != flag || lower.contains EQUALS)
      else .invalid)
    atCommandIndex

def unwrapStdbufInvocation : Option Argv :=
  unwrapDashOptionInvocation argv (fun flag lower =>
      if STDBUF_OPTIONS_WITH_VALUE.contains flag then valueDirective (lower.contains EQUALS) else .invalid)
    atCommandIndex

def unwrapTimeInvocation : Option Argv :=
  unwrapDashOptionInvocation argv (fun flag lower =>
      if TIME_FLAG_OPTIONS.contains flag then .continue
      else if TIME_OPTIONS_WITH_VALUE.contains flag then valueDirective (lower.contains EQUALS)
      else .invalid)
    atCommandIndex

/-- `/^-[eFnsxo]+$/`. -/
def isFlockShortFlagCluster : JsString → Bool
  | dash :: flag :: flags => dash == DASH && (flag :: flags).all (js "eFnsxo").contains
  | _ => false

def unwrapFlockInvocation : Option Argv :=
  scanWrapperInvocation argv [js "--"] ()
    (eachToken fun token lower =>
      if isOperand token then .stop
      else
        let parsedToken := parseInlineOptionToken token
        let lowerFlag := (parseInlineOptionToken lower).name
        if FLOCK_LONG_FLAG_OPTIONS.contains lowerFlag then .continue
        else if FLOCK_LONG_OPTIONS_WITH_VALUE.contains lowerFlag then valueDirective parsedToken.hasInlineValue
        else if isFlockShortFlagCluster token then .continue
        else if FLOCK_SHORT_FLAG_OPTIONS.contains parsedToken.name then .continue
        else if FLOCK_SHORT_OPTIONS_WITH_VALUE.contains parsedToken.name then
          valueDirective (parsedToken.hasInlineValue || token != parsedToken.name)
        else .invalid)
    -- The first operand is the lock; the command can only be the next token.
    fun commandIndex currentArgv =>
      let wrappedCommand := trimmedAt currentArgv (commandIndex + 1)
      if !wrappedCommand.isEmpty && isOperand wrappedCommand then some (commandIndex + 1) else none

/-- Whether the options of `time` name an output file. -/
def timeTokensWriteOutputFile : Argv → Bool → Bool
  | [], _ => false
  | item :: rest, expectsOptionValue =>
    let token := trim item
    if token.isEmpty then timeTokensWriteOutputFile rest expectsOptionValue
    else if expectsOptionValue then timeTokensWriteOutputFile rest false
    else if token == js "--" then false
    else if isOperand token then false
    else
      let lower := normalizeLowercaseStringOrEmpty token
      let flag := (parseInlineOptionToken lower).name
      if flag == js "-o" || flag == js "--output" then true
      else timeTokensWriteOutputFile rest (TIME_OPTIONS_WITH_VALUE.contains flag && !lower.contains EQUALS)

def timeInvocationWritesOutputFile : Bool :=
  timeTokensWriteOutputFile argv.tail false

variable (platform : Platform)

def supportsScriptPositionalCommand : Bool :=
  platform == .darwin || platform == .freebsd

/-- The index of the second token that is not blank: the first is the transcript. -/
def afterTranscript : Argv → Nat → Bool → Option Nat
  | [], _, _ => none
  | item :: rest, idx, sawTranscript =>
    if (trim item).isEmpty then afterTranscript rest (idx + 1) sawTranscript
    else if !sawTranscript then afterTranscript rest (idx + 1) true
    else some idx

def unwrapScriptInvocation : Option Argv :=
  if !supportsScriptPositionalCommand platform then none
  else
    scanWrapperInvocation argv [js "--"] ()
      (eachToken fun token lower =>
        if isOperand lower then .stop
        else
          let flag := (parseInlineOptionToken token).name
          if BSD_SCRIPT_OPTIONS_WITH_VALUE.contains flag then valueDirective (token.contains EQUALS)
          else if BSD_SCRIPT_FLAG_OPTIONS.contains flag then .continue
          else .invalid)
      fun commandIndex currentArgv => afterTranscript (currentArgv.drop commandIndex) commandIndex false

def unwrapTimeoutInvocation : Option Argv :=
  unwrapDashOptionInvocation argv (fun flag lower =>
      if TIMEOUT_FLAG_OPTIONS.contains flag then .continue
      else if TIMEOUT_OPTIONS_WITH_VALUE.contains flag then valueDirective (lower.contains EQUALS)
      else .invalid)
    fun commandIndex currentArgv => if commandIndex + 1 < currentArgv.length then some (commandIndex + 1) else none

/-- `/^-[A-Za-z0-9_]+$/`. -/
def isArchSelectorToken : JsString → Bool
  | dash :: unit :: units => dash == DASH && (unit :: units).all isWordUnit
  | _ => false

def isKnownArchSelectorToken (token : JsString) : Bool :=
  [js "-arm64", js "-arm64e", js "-i386", js "-x86_64", js "-x86_64h"].contains token

def isKnownArchNameToken (token : JsString) : Bool :=
  isKnownArchSelectorToken (DASH :: token)

/-- The state is whether the name of an architecture is expected. -/
def unwrapArchInvocation : Option Argv :=
  scanWrapperInvocation argv [] false (fun expectsArchName token lower =>
      if expectsArchName then (if isKnownArchNameToken lower then .continue else .invalid, false)
      else if isOperand token then (.stop, false)
      else if lower == js "-32" || lower == js "-64" then (.continue, false)
      else if lower == js "-arch" then (.continue, true)
      -- These change the environment of the command.
      else if [js "-c", js "-d", js "-e", js "-h"].contains lower then (.invalid, false)
      else (if isArchSelectorToken token && isKnownArchSelectorToken lower then .continue else .invalid, false))
    atCommandIndex

def supportsArchDispatchWrapper : Bool :=
  platform == .darwin

def supportsXcrunDispatchWrapper : Bool :=
  platform == .darwin

def unwrapXcrunInvocation : Option Argv :=
  scanWrapperInvocation argv [] () (eachToken fun token lower =>
      if isOperand token then .stop else if XCRUN_FLAG_OPTIONS.contains lower then .continue else .invalid)
    atCommandIndex

/-! ## Their table -/

structure DispatchWrapperSpec where
  name : JsString
  unwrap : Option (Argv → Platform → Option Argv) := none
  transparentUsage : Argv → Platform → Bool := fun _ _ => false

/-- `time`. -/
def TIME : JsString := js "time"

/-- `script`. -/
def SCRIPT : JsString := js "script"

/-- `arch`. -/
def ARCH : JsString := js "arch"

/-- `xcrun`. -/
def XCRUN : JsString := js "xcrun"

def DISPATCH_WRAPPER_SPECS : List DispatchWrapperSpec :=
  [{ name := ARCH
     unwrap := some fun argv platform =>
       if supportsArchDispatchWrapper platform then unwrapArchInvocation argv else none
     transparentUsage := fun _ platform => supportsArchDispatchWrapper platform },
    { name := js "caffeinate"
      unwrap := some fun argv _ => unwrapCaffeinateInvocation argv
      transparentUsage := fun _ _ => true },
    { name := js "chrt" },
    { name := js "doas" },
    { name := ENV
      unwrap := some fun argv _ => unwrapEnvInvocation argv
      transparentUsage := fun argv _ => !envInvocationUsesModifiers argv },
    { name := js "flock"
      unwrap := some fun argv _ => unwrapFlockInvocation argv
      transparentUsage := fun _ _ => true },
    { name := js "ionice" },
    { name := js "nice"
      unwrap := some fun argv _ => unwrapNiceInvocation argv
      transparentUsage := fun _ _ => true },
    { name := js "nohup"
      unwrap := some fun argv _ => unwrapNohupInvocation argv
      transparentUsage := fun _ _ => true },
    { name := js "sandbox-exec"
      unwrap := some fun argv _ => unwrapSandboxExecInvocation argv
      transparentUsage := fun _ _ => true },
    { name := SCRIPT, unwrap := some unwrapScriptInvocation },
    { name := js "setsid" },
    { name := js "stdbuf"
      unwrap := some fun argv _ => unwrapStdbufInvocation argv
      transparentUsage := fun _ _ => true },
    { name := js "sudo" },
    { name := js "taskset" },
    { name := TIME
      unwrap := some fun argv _ => unwrapTimeInvocation argv
      transparentUsage := fun argv _ => !timeInvocationWritesOutputFile argv },
    { name := js "timeout"
      unwrap := some fun argv _ => unwrapTimeoutInvocation argv
      transparentUsage := fun _ _ => true },
    { name := XCRUN
      unwrap := some fun argv platform =>
        if supportsXcrunDispatchWrapper platform then unwrapXcrunInvocation argv else none
      transparentUsage := fun _ platform => supportsXcrunDispatchWrapper platform }]

def dispatchWrapperSpec? (name : JsString) : Option DispatchWrapperSpec :=
  DISPATCH_WRAPPER_SPECS.find? (·.name == name)

variable (wrapper : JsString)

def unwrapDispatchWrapper : Option Argv → Unwrap JsString Argv
  | some unwrapped => .unwrapped wrapper unwrapped
  | none => .blocked wrapper

def isDispatchWrapperExecutable (token : JsString) : Bool :=
  (dispatchWrapperSpec? (normalizeExecutableToken token)).isSome

def unwrapKnownDispatchWrapperInvocation (argv : Argv) : Unwrap JsString Argv :=
  let token0 := trimmedAt argv 0
  if token0.isEmpty then .notWrapper
  else
    let wrapper := normalizeExecutableToken token0
    match dispatchWrapperSpec? wrapper with
    | none => .notWrapper
    | some spec =>
      match spec.unwrap with
      | some unwrap => unwrapDispatchWrapper wrapper (unwrap argv platform)
      | none => .blocked wrapper

/-- Whether this use of a wrapper does more than run the command. -/
def isSemanticDispatchWrapperUsage (argv : Argv) (platform : Platform) : Bool :=
  match dispatchWrapperSpec? wrapper with
  | none => true
  | some spec => spec.unwrap.isNone || !spec.transparentUsage argv platform

def hasDispatchEnvManipulation (argv : Argv) : Bool :=
  match unwrapKnownDispatchWrapperInvocation platform argv with
  | .unwrapped wrapper _ => wrapper == ENV && envInvocationUsesModifiers argv
  | _ => false

def MAX_DISPATCH_WRAPPER_DEPTH : Nat := 4

structure DispatchWrapperTrustPlan where
  argv : Argv
  wrappers : List JsString
  policyBlocked : Bool
  blockedWrapper : Option JsString

def blockedDispatchWrapperPlan (wrappers : List JsString) (blockedWrapper : JsString) : DispatchWrapperTrustPlan :=
  ⟨argv, wrappers, true, some blockedWrapper⟩

/-- The loop of the plan: a blocked plan, or the vector and the wrappers it ends with. -/
def peelDispatchWrappers (platform : Platform) :
    Nat → Argv → List JsString → Except DispatchWrapperTrustPlan (Argv × List JsString)
  | 0, current, wrappers => .ok (current, wrappers)
  | depth + 1, current, wrappers =>
    match unwrapKnownDispatchWrapperInvocation platform current with
    | .blocked wrapper => .error (blockedDispatchWrapperPlan current wrappers wrapper)
    | .notWrapper => .ok (current, wrappers)
    | .unwrapped wrapper inner =>
      if inner.isEmpty then .ok (current, wrappers)
      else if isSemanticDispatchWrapperUsage wrapper current platform then
        .error (blockedDispatchWrapperPlan current (wrappers ++ [wrapper]) wrapper)
      else peelDispatchWrappers platform depth inner (wrappers ++ [wrapper])

def resolveDispatchWrapperTrustPlan (maxDepth : Nat) (platform : Platform) : DispatchWrapperTrustPlan :=
  match peelDispatchWrappers platform maxDepth argv [] with
  | .error plan => plan
  | .ok (current, wrappers) =>
    if maxDepth ≤ wrappers.length then
      match unwrapKnownDispatchWrapperInvocation platform current with
      | .blocked wrapper => blockedDispatchWrapperPlan current wrappers wrapper
      | .unwrapped wrapper _ => blockedDispatchWrapperPlan current wrappers wrapper
      | .notWrapper => ⟨current, wrappers, false, none⟩
    else ⟨current, wrappers, false, none⟩

def unwrapDispatchWrappersForResolution (maxDepth : Nat) (platform : Platform) : Argv :=
  (resolveDispatchWrapperTrustPlan argv maxDepth platform).argv

/-! ## One wrapper -/

def isPlatformWrapper : Prop :=
  wrapper = ARCH ∨ wrapper = SCRIPT ∨ wrapper = XCRUN

instance (wrapper : JsString) : Decidable (isPlatformWrapper wrapper) :=
  inferInstanceAs (Decidable (_ ∨ _))

/-- What every entry of the table keeps to. -/
structure DispatchWrapperSpec.Sound (spec : DispatchWrapperSpec) : Prop where
  /-- A part of the vector is left, or `env` splits a text. -/
  suffix : ∀ {unwrap argv platform inner}, spec.unwrap = some unwrap → unwrap argv platform = some inner →
    inner ≠ [] ∧ (inner <:+ argv ∨
      spec.name = ENV ∧ envSplitsString argv = true ∧ spec.transparentUsage argv platform = false)
  /-- Most wrappers are the same everywhere. -/
  platform : ¬ isPlatformWrapper spec.name → ∀ {unwrap}, spec.unwrap = some unwrap →
    ∀ argv platform other, unwrap argv platform = unwrap argv other
  /-- What a use that does more than run the command is. -/
  semantic : ∀ {unwrap argv platform inner}, spec.unwrap = some unwrap → unwrap argv platform = some inner →
    spec.transparentUsage argv platform = false → spec.name = ENV ∧ envInvocationUsesModifiers argv = true ∨
        spec.name = TIME ∧ timeInvocationWritesOutputFile argv = true ∨ spec.name = SCRIPT

theorem sound_blocked (name : JsString) : DispatchWrapperSpec.Sound { name := name } where
  suffix h := nomatch h
  platform _ _ h := nomatch h
  semantic h := nomatch h

variable {name : JsString}

theorem sound_scan {unwrap : Argv → Option Argv}
    (h : ∀ {argv inner}, unwrap argv = some inner → inner ≠ [] ∧ inner <:+ argv) :
    DispatchWrapperSpec.Sound
      { name := name, unwrap := some fun argv _ => unwrap argv, transparentUsage := fun _ _ => true } where
  suffix hunwrap hinner := by
    cases hunwrap
    exact (h hinner).imp_right .inl
  platform _ _ hunwrap := by
    cases hunwrap
    exact fun _ _ _ => rfl
  semantic _ _ h := nomatch h

theorem sound_darwin {unwrap : Argv → Option Argv} {supports : Platform → Bool} (hname : isPlatformWrapper name)
    (h : ∀ {argv inner}, unwrap argv = some inner → inner ≠ [] ∧ inner <:+ argv) :
    DispatchWrapperSpec.Sound
      { name := name
        unwrap := some fun argv platform => if supports platform then unwrap argv else none
        transparentUsage := fun _ platform => supports platform } where
  suffix hunwrap hinner := by
    cases hunwrap
    exact (h (ite_none_right_eq_some.mp hinner).2).imp_right .inl
  platform hother := absurd hname hother
  semantic hunwrap hinner htransparent := by
    cases hunwrap
    have hsupports := (ite_none_right_eq_some.mp hinner).1
    exact absurd htransparent (Bool.not_eq_false _ ▸ hsupports)

theorem dispatchWrapperSpecs_sound : ∀ spec ∈ DISPATCH_WRAPPER_SPECS, spec.Sound := by
  simp only [DISPATCH_WRAPPER_SPECS, forall_mem_cons]
  refine ⟨sound_darwin (.inl rfl) scanWrapperInvocation_suffix, sound_scan unwrapDashOptionInvocation_suffix,
    sound_blocked _, sound_blocked _, ?_, sound_scan scanWrapperInvocation_suffix, sound_blocked _,
    sound_scan unwrapDashOptionInvocation_suffix, sound_scan scanWrapperInvocation_suffix,
    sound_scan unwrapDashOptionInvocation_suffix, ?_, sound_blocked _, sound_scan unwrapDashOptionInvocation_suffix,
    sound_blocked _, sound_blocked _, ?_, sound_scan unwrapDashOptionInvocation_suffix,
    sound_darwin (.inr (.inr rfl)) scanWrapperInvocation_suffix, forall_mem_nil _⟩
  · refine ⟨fun hunwrap hinner => ?_, fun _ _ hunwrap => ?_, fun hunwrap _ hsemantic => ?_⟩
    · obtain rfl := some.inj hunwrap
      refine (unwrapEnvInvocation_cases hinner).imp_right fun h => h.imp_right ?_
      exact fun hsplit => ⟨rfl, hsplit.1, by simp only [hsplit.2, Bool.not_true]⟩
    · obtain rfl := some.inj hunwrap
      exact fun _ _ _ => rfl
    · exact .inl ⟨rfl, by simpa using hsemantic⟩
  · refine ⟨fun hunwrap hinner => ?_, fun hother => absurd (.inr (.inl rfl)) hother,
      fun _ _ _ => .inr (.inr rfl)⟩
    obtain rfl := some.inj hunwrap
    unfold unwrapScriptInvocation at hinner
    split at hinner
    · cases hinner
    · exact (scanWrapperInvocation_suffix hinner).imp_right .inl
  · refine ⟨fun hunwrap hinner => ?_, fun _ _ hunwrap => ?_, fun hunwrap _ hsemantic => ?_⟩
    · obtain rfl := some.inj hunwrap
      exact (unwrapDashOptionInvocation_suffix hinner).imp_right .inl
    · obtain rfl := some.inj hunwrap
      exact fun _ _ _ => rfl
    · exact .inr (.inl ⟨rfl, by simpa using hsemantic⟩)

section

variable {platform other : Platform} {argv inner : Argv} {wrapper : JsString}

theorem dispatchWrapperSpec_eq_some {spec : DispatchWrapperSpec} (h : dispatchWrapperSpec? wrapper = some spec) :
    spec.name = wrapper ∧ spec.Sound :=
  ⟨by simpa using find?_some h, dispatchWrapperSpecs_sound _ (mem_of_find?_eq_some h)⟩

omit [LowerCase] in
theorem unwrapDispatchWrapper_eq_unwrapped_iff {unwrapped : Option Argv} :
    unwrapDispatchWrapper name unwrapped = .unwrapped wrapper inner ↔ name = wrapper ∧ unwrapped = some inner := by
  cases unwrapped <;> simp [unwrapDispatchWrapper]

theorem dispatchUnwrap_cases (h : unwrapKnownDispatchWrapperInvocation platform argv = .unwrapped wrapper inner) :
    wrapper = normalizeExecutableToken (trimmedAt argv 0) ∧
      ∃ spec unwrap, dispatchWrapperSpec? wrapper = some spec ∧ spec.unwrap = some unwrap ∧
        unwrap argv platform = some inner := by
  unfold unwrapKnownDispatchWrapperInvocation at h
  dsimp only at h
  split at h
  · cases h
  split at h
  · cases h
  rename_i spec hspec
  split at h
  · rename_i unwrap hunwrap
    obtain ⟨rfl, hinner⟩ := unwrapDispatchWrapper_eq_unwrapped_iff.mp h
    exact ⟨rfl, spec, unwrap, hspec, hunwrap, hinner⟩
  · cases h

theorem dispatchUnwrap_eq_notWrapper_iff : unwrapKnownDispatchWrapperInvocation platform argv = .notWrapper ↔
    trimmedAt argv 0 = [] ∨ isDispatchWrapperExecutable (trimmedAt argv 0) = false := by
  unfold unwrapKnownDispatchWrapperInvocation isDispatchWrapperExecutable
  dsimp only
  split
  · rename_i hblank
    exact iff_of_true rfl (.inl (isEmpty_iff.mp hblank))
  · rename_i htoken
    have hne : trimmedAt argv 0 ≠ [] := fun hnil => htoken (isEmpty_iff.mpr hnil)
    split
    · rename_i hspec
      exact iff_of_true rfl (.inr (by rw [hspec]; rfl))
    · rename_i spec hspec
      have hwrapper : ¬ (trimmedAt argv 0 = [] ∨
          (dispatchWrapperSpec? (normalizeExecutableToken (trimmedAt argv 0))).isSome = false) := by
        rw [hspec]
        rintro (hnil | hnone)
        · exact hne hnil
        · cases hnone
      refine iff_of_false ?_ hwrapper
      split
      · rename_i unwrap _
        generalize unwrap argv platform = unwrapped
        cases unwrapped <;> exact nofun
      · exact nofun

section

variable (h : unwrapKnownDispatchWrapperInvocation platform argv = .unwrapped wrapper inner)

include h

theorem trimmedAt_ne_nil_of_unwrapped : trimmedAt argv 0 ≠ [] := by
  intro hnil
  cases h.symm.trans (dispatchUnwrap_eq_notWrapper_iff.mpr (.inl hnil))

/-- **What is unwrapped is a part of the vector, or `env` split a text, which is no transparent use.** -/
theorem dispatchUnwrap_suffix : inner ≠ [] ∧ (inner <:+ argv ∨
      wrapper = ENV ∧ envSplitsString argv ∧ isSemanticDispatchWrapperUsage wrapper argv platform) := by
  obtain ⟨-, spec, unwrap, hspec, hunwrap, hinner⟩ := dispatchUnwrap_cases h
  obtain ⟨hname, hsound⟩ := dispatchWrapperSpec_eq_some hspec
  refine (hsound.suffix hunwrap hinner).imp_right fun h => h.imp_right ?_
  rintro ⟨henv, hsplit, htransparent⟩
  refine ⟨hname.symm.trans henv, hsplit, ?_⟩
  simp only [isSemanticDispatchWrapperUsage, hspec, htransparent, Bool.not_false, Bool.or_true]

theorem semantic_cases (hsemantic : isSemanticDispatchWrapperUsage wrapper argv platform) :
    wrapper = ENV ∧ envInvocationUsesModifiers argv ∨
      wrapper = TIME ∧ timeInvocationWritesOutputFile argv ∨ wrapper = SCRIPT := by
  obtain ⟨-, spec, unwrap, hspec, hunwrap, hinner⟩ := dispatchUnwrap_cases h
  obtain ⟨rfl, hsound⟩ := dispatchWrapperSpec_eq_some hspec
  refine hsound.semantic hunwrap hinner ?_
  simpa [isSemanticDispatchWrapperUsage, hspec, hunwrap] using hsemantic

end

/-! ## Wrappers of some platforms, and uses that do more -/

theorem dispatchWrapperSpecs_names : DISPATCH_WRAPPER_SPECS.map (·.name) =
    [ARCH, js "caffeinate", js "chrt", js "doas", ENV, js "flock", js "ionice", js "nice", js "nohup",
      js "sandbox-exec", SCRIPT, js "setsid", js "stdbuf", js "sudo", js "taskset", TIME, js "timeout", XCRUN] :=
  rfl

theorem dispatchWrapperSpecs_nodup : (DISPATCH_WRAPPER_SPECS.map (·.name)).Nodup := by
  rw [dispatchWrapperSpecs_names]
  decide

theorem dispatchWrapperSpec_of_mem {spec : DispatchWrapperSpec} (h : spec ∈ DISPATCH_WRAPPER_SPECS) :
    dispatchWrapperSpec? spec.name = some spec := by
  cases hfound : dispatchWrapperSpec? spec.name with
  | none => exact absurd (beq_self_eq_true spec.name) (by simpa using find?_eq_none.mp hfound spec h)
  | some found =>
    have hname : found.name = spec.name := by simpa using find?_some hfound
    rw [inj_on_of_nodup_map dispatchWrapperSpecs_nodup (mem_of_find?_eq_some hfound) h hname]

theorem semantic_script (argv : Argv) (platform : Platform) : isSemanticDispatchWrapperUsage SCRIPT argv platform := by
  have hspec : dispatchWrapperSpec? SCRIPT = some { name := SCRIPT, unwrap := some unwrapScriptInvocation } :=
    dispatchWrapperSpec_of_mem (mem_of_getElem? (i := 10) rfl)
  simp only [isSemanticDispatchWrapperUsage, hspec, Bool.not_false, Bool.or_true]

theorem semantic_time {argv : Argv} (platform : Platform) (h : timeInvocationWritesOutputFile argv) :
    isSemanticDispatchWrapperUsage TIME argv platform := by
  have hspec : dispatchWrapperSpec? TIME = some
      { name := TIME
        unwrap := some fun argv _ => unwrapTimeInvocation argv
        transparentUsage := fun argv _ => !timeInvocationWritesOutputFile argv } :=
    dispatchWrapperSpec_of_mem (mem_of_getElem? (i := 15) rfl)
  simp only [isSemanticDispatchWrapperUsage, hspec, h, Bool.not_true, Bool.not_false, Bool.or_true]

theorem darwinWrapper_spec (h : wrapper = ARCH ∨ wrapper = XCRUN) :
    ∃ (spec : DispatchWrapperSpec) (unwrap : Argv → Option Argv), dispatchWrapperSpec? wrapper = some spec ∧
      spec.unwrap = some fun argv platform => if platform == .darwin then unwrap argv else none := by
  rcases h with rfl | rfl
  · exact ⟨_, unwrapArchInvocation, dispatchWrapperSpec_of_mem (mem_of_getElem? (i := 0) rfl), rfl⟩
  · exact ⟨_, unwrapXcrunInvocation, dispatchWrapperSpec_of_mem (mem_of_getElem? (i := 17) rfl), rfl⟩

section

variable (h : unwrapKnownDispatchWrapperInvocation platform argv = .unwrapped wrapper inner)

include h

theorem darwinWrapper_platform (hwrapper : wrapper = ARCH ∨ wrapper = XCRUN) : platform = .darwin := by
  obtain ⟨hname, found, read, hfound, hread, hinner⟩ := dispatchUnwrap_cases h
  obtain ⟨spec, unwrap, hspec, hunwrap⟩ := darwinWrapper_spec hwrapper
  obtain rfl := mem_unique hfound hspec
  obtain rfl := mem_unique hread hunwrap
  exact eq_of_beq (ite_none_right_eq_some.mp hinner).1

theorem darwinWrapper_blocked (hwrapper : wrapper = ARCH ∨ wrapper = XCRUN) (hother : other ≠ .darwin) :
    unwrapKnownDispatchWrapperInvocation other argv = .blocked wrapper := by
  obtain ⟨hname, -⟩ := dispatchUnwrap_cases h
  obtain ⟨spec, unwrap, hspec, hunwrap⟩ := darwinWrapper_spec hwrapper
  have htoken := trimmedAt_ne_nil_of_unwrapped h
  have hdarwin : ¬ (other == Platform.darwin) := by simpa using hother
  rw [hname] at hspec ⊢
  simp only [unwrapKnownDispatchWrapperInvocation, if_neg (mt List.isEmpty_iff.mp htoken), hspec, hunwrap,
    if_neg hdarwin, unwrapDispatchWrapper]

theorem transparent_platform (htransparent : isSemanticDispatchWrapperUsage wrapper argv platform = false)
    (hwrapper : ¬ (wrapper = ARCH ∨ wrapper = XCRUN)) (other : Platform) :
    unwrapKnownDispatchWrapperInvocation other argv = .unwrapped wrapper inner := by
  obtain ⟨hname, spec, unwrap, hspec, hunwrap, hinner⟩ := dispatchUnwrap_cases h
  obtain ⟨hspecName, hsound⟩ := dispatchWrapperSpec_eq_some hspec
  have hplatform : ¬ isPlatformWrapper spec.name := by
    rw [hspecName]
    rintro (harch | hscript | hxcrun)
    · exact hwrapper (.inl harch)
    · rw [hscript, semantic_script] at htransparent
      cases htransparent
    · exact hwrapper (.inr hxcrun)
  have htoken := trimmedAt_ne_nil_of_unwrapped h
  rw [hsound.platform hplatform hunwrap argv platform other] at hinner
  rw [hname] at hspec ⊢
  simp only [unwrapKnownDispatchWrapperInvocation, if_neg (mt List.isEmpty_iff.mp htoken), hspec, hunwrap, hinner,
    unwrapDispatchWrapper]

end

/-! ## All wrappers -/

/-- One wrapper taken off, when its use is transparent. -/
def transparentDispatchUnwrap (platform : Platform) : Argv → Unwrap JsString Argv :=
  restrict (fun wrapper argv => !isSemanticDispatchWrapperUsage wrapper argv platform)
    (unwrapKnownDispatchWrapperInvocation platform)

theorem transparentDispatchUnwrap_eq_unwrapped_iff :
    transparentDispatchUnwrap platform argv = .unwrapped wrapper inner ↔
      unwrapKnownDispatchWrapperInvocation platform argv = .unwrapped wrapper inner ∧
        isSemanticDispatchWrapperUsage wrapper argv platform = false := by
  rw [transparentDispatchUnwrap, restrict_eq_unwrapped_iff, Bool.not_eq_true']

theorem transparentDispatchUnwrap_eq_notWrapper_iff : transparentDispatchUnwrap platform argv = .notWrapper ↔
    unwrapKnownDispatchWrapperInvocation platform argv = .notWrapper :=
  restrict_eq_notWrapper_iff

theorem transparentDispatchUnwrap_blocked
    (h : unwrapKnownDispatchWrapperInvocation platform argv = .blocked wrapper) :
    transparentDispatchUnwrap platform argv = .blocked wrapper := by
  simp only [transparentDispatchUnwrap, restrict, h]

theorem transparentDispatchUnwrap_semantic
    (h : unwrapKnownDispatchWrapperInvocation platform argv = .unwrapped wrapper inner)
    (hsemantic : isSemanticDispatchWrapperUsage wrapper argv platform) :
    transparentDispatchUnwrap platform argv = .blocked wrapper := by
  simp [transparentDispatchUnwrap, restrict, h, hsemantic]

theorem transparentDispatchUnwrap_suffix (h : transparentDispatchUnwrap platform argv = .unwrapped wrapper inner) :
    inner <:+ argv := by
  obtain ⟨hunwrap, htransparent⟩ := transparentDispatchUnwrap_eq_unwrapped_iff.mp h
  rcases (dispatchUnwrap_suffix hunwrap).2 with hsuffix | ⟨-, -, hsemantic⟩
  · exact hsuffix
  · cases htransparent.symm.trans hsemantic

theorem peelDispatchWrappers_cases (platform : Platform) (depth : Nat) (current : Argv) (wrappers : List JsString) :
    match peelDispatchWrappers platform depth current wrappers with
    | .ok (b, all) => ∃ layers, Reaches (transparentDispatchUnwrap platform) layers current b ∧
        all = wrappers ++ layers.map (·.wrapper) ∧ layers.length ≤ depth ∧
        (layers.length < depth → unwrapKnownDispatchWrapperInvocation platform b = .notWrapper)
    | .error plan => plan.policyBlocked ∧
        ∃ layers, Reaches (transparentDispatchUnwrap platform) layers current plan.argv ∧
          ∃ w, transparentDispatchUnwrap platform plan.argv = .blocked w := by
  induction depth generalizing current wrappers with
  | zero => exact ⟨[], .here current, (append_nil _).symm, le_refl _, fun h => absurd h (lt_irrefl _)⟩
  | succ depth ih =>
    cases hunwrap : unwrapKnownDispatchWrapperInvocation platform current with
    | blocked w =>
      simp only [peelDispatchWrappers, hunwrap]
      exact ⟨rfl, [], .here current, w, transparentDispatchUnwrap_blocked hunwrap⟩
    | notWrapper =>
      simp only [peelDispatchWrappers, hunwrap]
      exact ⟨[], .here current, (append_nil _).symm, Nat.zero_le _, fun _ => trivial⟩
    | unwrapped w inner =>
      have hne : ¬ inner.isEmpty := fun h => (dispatchUnwrap_suffix hunwrap).1 (isEmpty_iff.mp h)
      by_cases hsemantic : isSemanticDispatchWrapperUsage w current platform
      · simp only [peelDispatchWrappers, hunwrap, if_neg hne, if_pos hsemantic]
        exact ⟨rfl, [], .here current, w, transparentDispatchUnwrap_semantic hunwrap hsemantic⟩
      · simp only [peelDispatchWrappers, hunwrap, if_neg hne, if_neg hsemantic]
        have hstep := transparentDispatchUnwrap_eq_unwrapped_iff.mpr ⟨hunwrap, Bool.eq_false_iff.mpr hsemantic⟩
        have hrest := ih inner (wrappers ++ [w])
        cases heq : peelDispatchWrappers platform depth inner (wrappers ++ [w]) with
        | ok result =>
          simp only [heq] at hrest ⊢
          obtain ⟨layers, hreaches, hall, hlength, hends⟩ := hrest
          refine ⟨⟨w, current⟩ :: layers, .layer hstep hreaches, ?_, Nat.succ_le_succ hlength, ?_⟩
          · rw [hall, append_assoc]
            rfl
          · exact fun h => hends (Nat.lt_of_succ_lt_succ h)
        | error plan =>
          simp only [heq] at hrest ⊢
          obtain ⟨hblocked, layers, hreaches, hstuck⟩ := hrest
          exact ⟨hblocked, ⟨w, current⟩ :: layers, .layer hstep hreaches, hstuck⟩

/-- **A plan that is not blocked has taken every wrapper off, and each was transparent.** -/
theorem dispatchPlan_peels {maxDepth : Nat}
    (h : (resolveDispatchWrapperTrustPlan argv maxDepth platform).policyBlocked = false) :
    ∃ layers, Peels (transparentDispatchUnwrap platform) layers argv
        (resolveDispatchWrapperTrustPlan argv maxDepth platform).argv ∧
      (resolveDispatchWrapperTrustPlan argv maxDepth platform).wrappers = layers.map (·.wrapper) ∧
      layers.length ≤ maxDepth := by
  have hloop := peelDispatchWrappers_cases platform maxDepth argv []
  unfold resolveDispatchWrapperTrustPlan at h ⊢
  cases heq : peelDispatchWrappers platform maxDepth argv [] with
  | error plan =>
    simp only [heq] at hloop h
    cases h.symm.trans hloop.1
  | ok result =>
    obtain ⟨current, wrappers⟩ := result
    simp only [heq] at hloop h ⊢
    obtain ⟨layers, hreaches, hall, hlength, hends⟩ := hloop
    rw [nil_append] at hall
    have hpeels : unwrapKnownDispatchWrapperInvocation platform current = .notWrapper →
        Peels (transparentDispatchUnwrap platform) layers argv current :=
      fun hnone => ⟨hreaches, transparentDispatchUnwrap_eq_notWrapper_iff.mpr hnone⟩
    by_cases hlimit : maxDepth ≤ wrappers.length
    · simp only [if_pos hlimit] at h ⊢
      cases hunwrap : unwrapKnownDispatchWrapperInvocation platform current with
      | notWrapper => exact ⟨layers, hpeels hunwrap, hall, hlength⟩
      | _ =>
        simp only [hunwrap] at h
        cases h
    · simp only [if_neg hlimit]
      rw [hall, length_map, not_le] at hlimit
      exact ⟨layers, hpeels (hends hlimit), hall, hlength⟩

theorem dispatchPlan_stuck {maxDepth : Nat}
    (h : (resolveDispatchWrapperTrustPlan argv maxDepth platform).policyBlocked) :
    ∃ layers, Reaches (transparentDispatchUnwrap platform) layers argv
        (resolveDispatchWrapperTrustPlan argv maxDepth platform).argv ∧
      Stuck (transparentDispatchUnwrap platform) maxDepth layers
        (resolveDispatchWrapperTrustPlan argv maxDepth platform).argv := by
  have hloop := peelDispatchWrappers_cases platform maxDepth argv []
  unfold resolveDispatchWrapperTrustPlan at h ⊢
  cases heq : peelDispatchWrappers platform maxDepth argv [] with
  | error plan =>
    simp only [heq] at hloop ⊢
    obtain ⟨-, layers, hreaches, hstuck⟩ := hloop
    exact ⟨layers, hreaches, .inl hstuck⟩
  | ok result =>
    obtain ⟨current, wrappers⟩ := result
    simp only [heq] at hloop h ⊢
    obtain ⟨layers, hreaches, hall, -, -⟩ := hloop
    rw [nil_append] at hall
    by_cases hlimit : maxDepth ≤ wrappers.length
    · have hstuck : unwrapKnownDispatchWrapperInvocation platform current ≠ .notWrapper →
          Stuck (transparentDispatchUnwrap platform) maxDepth layers current := by
        rw [hall, length_map] at hlimit
        exact fun hwrapper => .inr ⟨hlimit, fun h => hwrapper (transparentDispatchUnwrap_eq_notWrapper_iff.mp h)⟩
      simp only [if_pos hlimit] at h ⊢
      cases hunwrap : unwrapKnownDispatchWrapperInvocation platform current with
      | notWrapper =>
        simp only [hunwrap] at h
        cases h
      | _ => exact ⟨layers, hreaches, hstuck (by rw [hunwrap]; exact nofun)⟩
    · simp only [if_neg hlimit] at h
      cases h

end

end ClawWorks.Exec
