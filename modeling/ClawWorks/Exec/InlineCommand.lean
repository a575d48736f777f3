import ClawWorks.Exec.Tokens

/-!
# Inline commands

The option of a shell that carries the command as text, for each family of shells.
-/

namespace ClawWorks.Exec

def POSIX_INLINE_COMMAND_FLAGS : List JsString :=
  [js "-lc", js "-c", js "--command"]

/-- `+`. -/
def PLUS : UInt16 := 43

variable (token : JsString)

/-- `token.startsWith("-") || token.startsWith("+")`. -/
def startsWithSign : Bool :=
  startsWithDash token || token.head? == some PLUS

/-! ## PowerShell switches -/

def powerShellSwitchForms (name : JsString) : List JsString :=
  [js "-" ++ name, js "--" ++ name, js "/" ++ name]

def expandPowerShellSwitchPrefixForms (name smallestMatch : String) : List JsString :=
  (List.range' (js smallestMatch).length ((js name).length + 1 - (js smallestMatch).length)).flatMap fun length =>
    powerShellSwitchForms ((js name).take length)

def expandPowerShellSwitchForms (names : List String) : List JsString :=
  names.flatMap fun name => powerShellSwitchForms (js name)

def POWERSHELL_COMMAND_FLAGS : List JsString :=
  expandPowerShellSwitchPrefixForms "command" "c" ++ expandPowerShellSwitchPrefixForms "commandwithargs" "cwa" ++
    expandPowerShellSwitchForms ["cwa"]

def POWERSHELL_FILE_FLAGS : List JsString :=
  expandPowerShellSwitchPrefixForms "file" "f"

def POWERSHELL_INLINE_COMMAND_FLAGS : List JsString :=
  POWERSHELL_COMMAND_FLAGS ++ POWERSHELL_FILE_FLAGS ++ expandPowerShellSwitchPrefixForms "encodedcommand" "e" ++
    expandPowerShellSwitchPrefixForms "ec" "e"

def POWERSHELL_INLINE_REST_COMMAND_FLAGS : List JsString :=
  POWERSHELL_COMMAND_FLAGS

def POWERSHELL_OPTIONS_WITH_SEPARATE_VALUES : List JsString :=
  expandPowerShellSwitchPrefixForms "configurationfile" "conf" ++
    expandPowerShellSwitchPrefixForms "configurationname" "config" ++
    expandPowerShellSwitchPrefixForms "custompipename" "cus" ++
    expandPowerShellSwitchPrefixForms "encodedarguments" "encodeda" ++
    expandPowerShellSwitchPrefixForms "executionpolicy" "ex" ++
    expandPowerShellSwitchPrefixForms "inputformat" "inp" ++
    expandPowerShellSwitchPrefixForms "outputformat" "o" ++
    expandPowerShellSwitchPrefixForms "psconsolefile" "pscf" ++
    expandPowerShellSwitchPrefixForms "settingsfile" "settings" ++
    expandPowerShellSwitchPrefixForms "token" "to" ++
    expandPowerShellSwitchPrefixForms "utctimestamp" "utc" ++
    expandPowerShellSwitchPrefixForms "version" "v" ++
    expandPowerShellSwitchPrefixForms "windowstyle" "w" ++
    expandPowerShellSwitchPrefixForms "workingdirectory" "w" ++
    expandPowerShellSwitchForms ["ea", "ep", "if", "of", "wd"]

/-- `token.startsWith("-") || /^\/[A-Za-z][A-Za-z0-9]*$/.test(token)`. -/
def isPowerShellOptionToken : Bool :=
  startsWithDash token || match token with
    | slash :: letter :: units => slash == SLASH && isLetter letter && units.all fun u => isLetter u || isDigit u
    | _ => false

/-! ## POSIX options -/

def POSIX_SHELL_OPTIONS_WITH_SEPARATE_VALUES : List JsString :=
  [js "--init-file", js "--rcfile", js "-O", js "-o", js "+O", js "+o"]

/-- `c`. -/
def LOWER_C : UInt16 := 99

def countSeparateValueOptionChars : Nat :=
  token.tail.countP fun u => u == 111 || u == 79

/-- A cluster of short options with `c` in it: the command attached to it, or how many values stand before it. -/
structure CombinedCommandFlag where
  attachedCommand : Option JsString
  separateValueCount : Nat

def isShortCluster : Bool :=
  2 ≤ token.length && startsWithDash token && !token.tail.contains DASH

def parseCombinedCommandFlag : Option CombinedCommandFlag :=
  if !isShortCluster token then none
  else
    match token.tail.dropWhile (· != LOWER_C) with
    | [] => none
    | _ :: suffix =>
      if !suffix.all isLetter then some ⟨some suffix, 0⟩
      else some ⟨none, countSeparateValueOptionChars token⟩

def isCombinedCommandFlag : Bool :=
  (parseCombinedCommandFlag token).isSome

def combinedSeparateValueOptionCount : Nat :=
  if token.length < 2 || !startsWithSign token || token.tail.contains DASH then 0
  else countSeparateValueOptionChars token

def isPosixShortOption (option : UInt16) : Bool :=
  isShortCluster token && token.tail.contains option

def isPosixInteractiveModeOption : Bool :=
  token == js "--interactive" || isPosixShortOption token 105

def advancePosixInlineOptionScan : Nat :=
  if 0 < combinedSeparateValueOptionCount token then 1 + combinedSeparateValueOptionCount token
  else if POSIX_SHELL_OPTIONS_WITH_SEPARATE_VALUES.contains token then 2
  else 1

/-! ## The command -/

structure InlineCommandOptions where
  allowCombinedC : Bool := false
  isOptionToken : JsString → Bool := startsWithSign
  restValueFlags : List JsString := []
  stopAtFirstNonOption : Bool := false
  valueOptions : List JsString := []

structure InlineCommandMatch where
  command : Option JsString
  valueTokenIndex : Option Nat

def commandAt (argv : Argv) (index : Nat) : Option JsString :=
  truthy? (some (trimmedAt argv index))

section

variable [LowerCase]

/-- The tokens from `i` on, so many of them passed over first. -/
def resolveInlineCommandMatchFrom (argv : Argv) (flags : List JsString) (options : InlineCommandOptions) :
    Argv → Nat → Nat → InlineCommandMatch
  | [], _, _ => ⟨none, none⟩
  | _ :: rest, i, passed + 1 => resolveInlineCommandMatchFrom argv flags options rest (i + 1) passed
  | item :: rest, i, 0 =>
    let token := trim item
    let lower := normalizeLowercaseStringOrEmpty token
    let comparableToken := if options.allowCombinedC then token else lower
    if token.isEmpty then resolveInlineCommandMatchFrom argv flags options rest (i + 1) 0
    else if lower == js "--" then ⟨none, none⟩
    else if flags.contains comparableToken then
      let valueTokenIndex := if i + 1 < argv.length then some (i + 1) else none
      if options.restValueFlags.contains comparableToken then
        ⟨truthy? (some (trim (List.intercalate (js " ") ((argv.drop (i + 1)).map trim)))), valueTokenIndex⟩
      else ⟨commandAt argv (i + 1), valueTokenIndex⟩
    else
      match (if options.allowCombinedC then parseCombinedCommandFlag token else none) with
      | some ⟨some attachedCommand, _⟩ => ⟨truthy? (some (trim attachedCommand)), some i⟩
      | some ⟨none, separateValueCount⟩ =>
        ⟨commandAt argv (i + 1 + separateValueCount), some (i + 1 + separateValueCount)⟩
      | none =>
        if options.valueOptions.contains lower then resolveInlineCommandMatchFrom argv flags options rest (i + 1) 1
        else if options.stopAtFirstNonOption && !options.isOptionToken token then ⟨none, none⟩
        else if options.allowCombinedC && !startsWithSign token then ⟨none, none⟩
        else
          resolveInlineCommandMatchFrom argv flags options rest (i + 1)
            (if options.allowCombinedC then advancePosixInlineOptionScan token - 1 else 0)

def resolveInlineCommandMatch (argv : Argv) (flags : List JsString) (options : InlineCommandOptions) :
    InlineCommandMatch :=
  resolveInlineCommandMatchFrom argv flags options argv.tail 1 0

def resolvePowerShellInlineCommandMatch (argv : Argv) : InlineCommandMatch :=
  resolveInlineCommandMatch argv POWERSHELL_INLINE_COMMAND_FLAGS
    { isOptionToken := isPowerShellOptionToken
      restValueFlags := POWERSHELL_INLINE_REST_COMMAND_FLAGS
      stopAtFirstNonOption := true
      valueOptions := POWERSHELL_OPTIONS_WITH_SEPARATE_VALUES }

def isPowerShellInlineRestCommandFlag (token : JsString) : Bool :=
  POWERSHELL_INLINE_REST_COMMAND_FLAGS.contains (normalizeLowercaseStringOrEmpty token)

end

def hasStartupBeforeInlineCommand (isStartup : JsString → Bool) (flags : List JsString) : Argv → Nat → Bool → Bool
  | [], _, _ => false
  | _ :: rest, passed + 1, saw => hasStartupBeforeInlineCommand isStartup flags rest passed saw
  | item :: rest, 0, saw =>
    let token := trim item
    if token.isEmpty then hasStartupBeforeInlineCommand isStartup flags rest 0 saw
    else if token == js "--" then false
    else
      let saw := saw || isStartup token
      if flags.contains token || isCombinedCommandFlag token then saw
      else if !startsWithSign token then false
      else hasStartupBeforeInlineCommand isStartup flags rest (advancePosixInlineOptionScan token - 1) saw

variable (argv : Argv)

def hasPosixInteractiveStartupBeforeInlineCommand (flags : List JsString) : Bool :=
  hasStartupBeforeInlineCommand isPosixInteractiveModeOption flags argv.tail 0 false

def hasPosixLoginStartupBeforeInlineCommand (flags : List JsString) : Bool :=
  hasStartupBeforeInlineCommand (fun token => token == js "--login" || isPosixShortOption token 108) flags argv.tail 0
    false

/-- Whether an option of a kind stands before the first operand. -/
def hasFishOption (isOption : JsString → Bool) : Argv → Bool
  | [] => false
  | item :: rest =>
    let token := trim item
    if token.isEmpty then hasFishOption isOption rest
    else if token == js "--" then false
    else if isOption token then true
    else if !startsWithSign token then false
    else hasFishOption isOption rest

def hasFishInitCommandOption : Bool :=
  hasFishOption
    (fun token => token == js "--init-command" || (js "-C").isPrefixOf token ||
      (js "--init-command=").isPrefixOf token)
    argv.tail

def hasFishAttachedCommandOption : Bool :=
  hasFishOption (fun token => (js "-c").isPrefixOf token && token != js "-c") argv.tail

end ClawWorks.Exec
